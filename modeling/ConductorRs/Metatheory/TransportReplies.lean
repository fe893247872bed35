import ConductorRs.Core.RaftTransport

/-!
Replies of raft peers, through the HTTP envelope and back.

A reply whose own encoding is `null` cannot be told from an absent one: the
envelope decodes to one without a result. The reply of `transfer_leader` is the
only one of that kind, so the client reports every transfer that its peer has
accepted as an error.
-/
namespace ConductorRs.RaftHttpResponse

section
variable {α : Type} {inner : Serde α}

theorem option_decode_encode (hinner : inner.RoundTrips) {x : α} (hx : inner.encode x ≠ .null) :
    inner.option.decode (inner.option.encode (some x)) = .ok (some x) := by
  have hdecode := hinner x
  simp only [Serde.option]
  rw [hdecode]
  rfl

theorem option_decode_null {x : α} (hx : inner.encode x = .null) :
    inner.option.decode (inner.option.encode (some x)) = .ok none := by
  simp [Serde.option, hx]

theorem decode_encode (inner : Serde α) (response : RaftHttpResponse α) :
    (serde inner).decode ((serde inner).encode response) = (do
      let result ← inner.option.decode (inner.option.encode response.result)
      let error ← Serde.string.option.decode (Serde.string.option.encode response.error)
      return ⟨result, error⟩) := by
  have hresult : ∀ r e : Value, inner.optionField "result" [("result", r), ("error", e)] =
      inner.option.decode r := by
    intro r e
    simp [Serde.optionField]
  have herror : ∀ r e : Value, Serde.string.optionField "error" [("result", r), ("error", e)] =
      Serde.string.option.decode e := by
    intro r e
    simp [Serde.optionField]
  simp only [serde, hresult, herror]

/-- Encode, decode, and ask for the result. -/
def roundTrip (inner : Serde α) (response : RaftHttpResponse α) :
    Except String (Except String α) :=
  ((serde inner).decode ((serde inner).encode response)).map intoResult

theorem roundTrip_ok (hinner : inner.RoundTrips) {x : α} (hx : inner.encode x ≠ .null) :
    roundTrip inner (ok x) = .ok (.ok x) := by
  rw [roundTrip, decode_encode]
  simp only [ok, option_decode_encode hinner hx]
  rfl

theorem roundTrip_null {x : α} (hx : inner.encode x = .null) :
    roundTrip inner (ok x) = .ok (.error "raft peer returned empty response") := by
  rw [roundTrip, decode_encode]
  simp only [ok, option_decode_null hx]
  rfl

theorem roundTrip_err (e : String) : roundTrip inner (err e) = .ok (.error e) := by
  rw [roundTrip, decode_encode]
  rfl

end

variable {R : RaftReplies}

theorem serde_roundTrips (hR : R.Lawful) (method : RaftMethod) : (R.serde method).RoundTrips := by
  cases method with
  | appendEntries => exact hR.appendEntries
  | vote => exact hR.vote
  | fullSnapshot => exact hR.snapshot
  | transferLeader => exact Serde.unit_roundTrips

/-- Errors always come back. A reply comes back just when its own encoding is not
`null`. -/
theorem reply_roundTrips_iff (R : RaftReplies) (hR : R.Lawful) (method : RaftMethod)
    (x : R.Reply method) (e : String) :
    (roundTrip (R.serde method) (ok x) = .ok (.ok x) ↔ (R.serde method).encode x ≠ .null) ∧
      roundTrip (R.serde method) (err e) = .ok (.error e) := by
  refine ⟨⟨fun hback hnull => ?_, fun hx => ?_⟩, roundTrip_err e⟩
  · rw [roundTrip_null hnull] at hback
    simp at hback
  · exact roundTrip_ok (serde_roundTrips hR method) hx

/-- Replies that are booleans. -/
def plainReplies : RaftReplies where
  AppendEntriesResponse := Bool
  VoteResponse := Bool
  SnapshotResponse := Bool
  RaftError := String
  appendEntries := .bool
  vote := .bool
  snapshot := .bool
  displayError e := e

theorem vote_roundTrips :
    roundTrip (plainReplies.serde .vote) (ok true) = .ok (.ok true) :=
  (reply_roundTrips_iff plainReplies
    ⟨Serde.bool_roundTrips, Serde.bool_roundTrips, Serde.bool_roundTrips⟩ .vote true "").1.mpr
    (by simp [RaftReplies.serde, plainReplies, Serde.bool])

theorem transfer_reply_lost :
    roundTrip (plainReplies.serde .transferLeader) (ok ()) =
      .ok (.error "raft peer returned empty response") := by
  rfl

/-- What a peer accepts, the client reports as a failure. -/
theorem post_transferLeader (R : RaftReplies) (target : String) :
    HttpRaftClient.post target (R.serde .transferLeader)
        (.success ((serde (R.serde .transferLeader)).encode
          (R.handle .transferLeader (.ok ())))) =
      .error (.network
        ("raft peer " ++ target ++ ": " ++ "raft peer returned empty response")) := by
  have hback : (serde (R.serde .transferLeader)).decode
      ((serde (R.serde .transferLeader)).encode (R.handle .transferLeader (.ok ()))) =
        .ok ⟨none, none⟩ := decode_encode _ _
  simp only [HttpRaftClient.post, hback]
  rfl

/-- The other replies reach the client as they were sent. -/
theorem post_handle (hR : R.Lawful) (target : String) {method : RaftMethod}
    (answer : Except R.RaftError (R.Reply method))
    (hanswer : ∀ x, answer = .ok x → (R.serde method).encode x ≠ .null) :
    HttpRaftClient.post target (R.serde method)
        (.success ((serde (R.serde method)).encode (R.handle method answer))) =
      match answer with
      | .ok x => .ok x
      | .error err => .error (.network
          ("raft peer " ++ target ++ ": " ++ R.displayError err)) := by
  have hhandle : R.handle method answer = R.respond answer := by
    cases method <;> rfl
  rw [hhandle]
  cases answer with
  | ok x =>
      have hdecode := decode_encode (R.serde method) (ok x)
      simp only [ok, option_decode_encode (serde_roundTrips hR method) (hanswer x rfl)] at hdecode
      simp only [RaftReplies.respond, ok, HttpRaftClient.post, hdecode]
      rfl
  | error err =>
      have hdecode := decode_encode (R.serde method) (.err (R.displayError err))
      simp only [RaftReplies.respond, HttpRaftClient.post, hdecode]
      rfl

end ConductorRs.RaftHttpResponse
