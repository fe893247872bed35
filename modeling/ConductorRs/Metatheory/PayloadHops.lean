import ConductorRs.Metatheory.CommittedStates
import ConductorRs.Metatheory.JsonReadBack

/-!
An accepted payload on its way to `apply`.

Acceptance reads a member of the payload, so an accepted payload is an object;
objects are what flattening keeps. One lemma for each kind of document says that
it gives back what it carries, one for each kind of hop that the payload comes
out as it went in, and the list of hops is an induction.
-/
namespace ConductorRs

section
variable {json : JsonText}

theorem lookup_append_cons {key : String} {v : Value} {before after : List (String × Value)}
    (h : before.lookup key = none) : (before ++ (key, v) :: after).lookup key = some v := by
  induction before with
  | nil => simp
  | cons m before ih =>
      obtain ⟨k, w⟩ := m
      simp only [List.cons_append, List.lookup_cons] at h ⊢
      cases hk : key == k with
      | true => simp [hk] at h
      | false =>
          simp only [hk] at h ⊢
          exact ih h

theorem Carrier.field_lawful {before after : List (String × Value)} {key : String}
    (h : before.lookup key = none) : (Carrier.field before key after).Lawful := by
  intro v
  simp [Carrier.field, lookup_append_cons h]

theorem Carrier.inside_lawful {inner outer : Carrier} (hinner : inner.Lawful)
    (houter : outer.Lawful) : (inner.inside outer).Lawful := by
  intro v
  simp only [Carrier.inside, houter (inner.wrap v)]
  exact hinner v

theorem Carrier.quoted_lawful {inner : Carrier} (hjson : json.Lawful) (hinner : inner.Lawful) :
    (inner.quoted json).Lawful := by
  intro v
  simp only [Carrier.quoted, hjson (inner.wrap v)]
  exact hinner v

theorem stateMachineCarrier_lawful (lastAppliedLog lastMembership : Value) :
    (stateMachineCarrier lastAppliedLog lastMembership).Lawful :=
  Carrier.field_lawful (by simp [List.lookup_cons])

theorem ImageParts.smCarrier_lawful (image : ImageParts) : image.smCarrier.Lawful :=
  Carrier.field_lawful (by simp [List.lookup_cons])

theorem ImageParts.logCarrier_lawful (image : ImageParts) : image.logCarrier.Lawful :=
  Carrier.field_lawful (by simp [List.lookup_cons])

end

section
variable {json : JsonText} {α : Type} {serde : TrySerde α} {carrier : Carrier} {x : α} {v : Value}

/-- A value whose encoding decodes to it comes out of a document as it went in. -/
theorem travel_of_roundTrip (hjson : json.Lawful) (hcarrier : carrier.Lawful)
    (henc : serde.encode x = .ok v) (hdec : serde.decode v = .ok x) :
    travel json carrier serde x = .ok x := by
  simp only [travel, henc]
  change (json.parse (json.print (carrier.wrap v)) >>= fun doc =>
    carrier.unwrap doc >>= serde.decode) = .ok x
  rw [hjson (carrier.wrap v)]
  change (carrier.unwrap (carrier.wrap v) >>= serde.decode) = .ok x
  rw [hcarrier v]
  exact hdec

variable {members : List (String × Value)}

theorem passCommand_object (hjson : json.Lawful) (hcarrier : carrier.Lawful) :
    passCommand json carrier ⟨.object members⟩ = .ok ⟨.object members⟩ := by
  have hpass : travel json carrier RaftCommand.serde (.commitUnsafePayload ⟨.object members⟩) =
      .ok (.commitUnsafePayload ⟨.object members⟩) :=
    travel_of_roundTrip hjson hcarrier
      (v := .object [("CommitUnsafePayload", .object members)]) rfl rfl
  simp only [passCommand, hpass]
  rfl

theorem passState_object (hjson : json.Lawful) (hcarrier : carrier.Lawful) :
    passState json carrier ⟨.object members⟩ = .ok ⟨.object members⟩ := by
  have hpass : travel json carrier PayloadEnvelope.serde.option (some ⟨.object members⟩) =
      .ok (some ⟨.object members⟩) :=
    travel_of_roundTrip hjson hcarrier (v := .object members) rfl rfl
  simp only [passState, hpass]
  rfl

theorem Hop.pass_object (hjson : json.Lawful) (hop : Hop) (h : hop.Lawful) :
    hop.pass json ⟨.object members⟩ = .ok ⟨.object members⟩ := by
  cases hop with
  | logStore entry => exact passCommand_object hjson h
  | appendEntries entry request =>
      exact passCommand_object hjson (Carrier.inside_lawful h.1 h.2)
  | imageLog entry image before index after =>
      apply passCommand_object hjson
      apply Carrier.inside_lawful _ image.logCarrier_lawful
      exact Carrier.inside_lawful (Carrier.quoted_lawful hjson h.1) (Carrier.field_lawful h.2)
  | imageState image lastAppliedLog lastMembership =>
      apply passState_object hjson
      exact Carrier.inside_lawful (stateMachineCarrier_lawful _ _) image.smCarrier_lawful
  | snapshot lastAppliedLog lastMembership =>
      exact passState_object hjson (stateMachineCarrier_lawful _ _)

theorem passAll_object (hjson : json.Lawful) (hops : List Hop) (h : ∀ hop ∈ hops, hop.Lawful) :
    passAll json hops ⟨.object members⟩ = .ok ⟨.object members⟩ := by
  induction hops with
  | nil => rfl
  | cons hop hops ih =>
      have hfirst : hop.pass json ⟨.object members⟩ = .ok ⟨.object members⟩ :=
        Hop.pass_object hjson hop (h hop List.mem_cons_self)
      have hrest := ih fun hop' hmem => h hop' (List.mem_cons_of_mem hop hmem)
      simp only [passAll, List.foldlM_cons, hfirst]
      exact hrest

end

namespace RaftConsensus

theorem accepts_iff_valid (payload : PayloadEnvelope) : Accepts payload ↔ payload.Valid := by
  simp only [Accepts, commitUnsafePayload, PayloadEnvelope.Valid]
  cases payload.blockNumber with
  | error err => simp [Except.isOk, Except.toBool]
  | ok number =>
      cases payload.blockHash with
      | error err => simp [Except.isOk, Except.toBool]
      | ok hash =>
          simp only [Except.isOk, Except.toBool, and_self, iff_true]
          exact ⟨_, rfl⟩

end RaftConsensus

theorem PayloadEnvelope.Valid.object {payload : PayloadEnvelope} (h : payload.Valid) :
    ∃ members, payload.raw = .object members := by
  obtain ⟨raw⟩ := payload
  cases raw with
  | object members => exact ⟨members, rfl⟩
  | _ =>
      simp [Valid, blockNumber, executionPayload, Value.get, Except.isOk, Except.toBool, bind,
        Except.bind] at h

section
variable {T : TypeConfig}

/-- A valid payload is applied; neither check of `apply` stops it. -/
theorem applyEntry_commit (sm : UnsafeHeadStateMachine T) (logId : LogId T)
    {payload : PayloadEnvelope} (h : payload.Valid) :
    ∃ response, (sm.applyEntry ⟨logId, .normal (.commitUnsafePayload payload)⟩).1 =
      .ok response := by
  have hentry : (⟨logId, .normal (.commitUnsafePayload payload)⟩ : Entry T).Valid :=
    (Entry.valid_iff rfl).mpr h
  obtain ⟨response, hok⟩ := sm.applyEntry_of_valid hentry
  exact ⟨response, congrArg Prod.fst hok⟩

/-- Every payload that `commit_unsafe_payload` accepts comes out of any number of
hops as it went in, with the same number and the same hash, and is applied. -/
theorem accepted_payload_applies (json : JsonText) (hjson : json.Lawful) (raw : Value)
    (haccepts : RaftConsensus.Accepts ⟨raw⟩) (hops : List Hop)
    (hhops : ∀ hop ∈ hops, hop.Lawful) :
    ∃ payload, passAll json hops ⟨raw⟩ = .ok payload ∧ payload = ⟨raw⟩ ∧
      payload.blockNumber = PayloadEnvelope.blockNumber ⟨raw⟩ ∧
      payload.blockHash = PayloadEnvelope.blockHash ⟨raw⟩ ∧
      ∀ (sm : UnsafeHeadStateMachine T) (logId : LogId T),
        ∃ response, (sm.applyEntry ⟨logId, .normal (.commitUnsafePayload payload)⟩).1 =
          .ok response := by
  have hvalid := (RaftConsensus.accepts_iff_valid _).mp haccepts
  obtain ⟨members, hraw⟩ := hvalid.object
  dsimp only at hraw
  subst hraw
  exact ⟨_, passAll_object hjson hops hhops, rfl, rfl, rfl,
    fun sm logId => applyEntry_commit sm logId hvalid⟩

end

/-- The payload of a block, replicated to a peer, persisted there in the log and
in the state machine, and sent on in a snapshot. -/
def replicatedHops : List Hop :=
  let entry := Carrier.field [("log_id", .null)] "payload" []
  [.logStore entry, .appendEntries entry (.field [("vote", .null)] "entries" []),
    .imageLog entry ⟨.null, .null, .null, .null, .null, .null, .null⟩ [] "1" [],
    .imageState ⟨.null, .null, .null, .null, .null, .null, .null⟩ .null .null,
    .snapshot .null .null]

theorem accepted_block_applies :
    ∃ payload, passAll .compact replicatedHops (.ofBlock ⟨.zero, 7⟩) = .ok payload ∧
      payload = .ofBlock ⟨.zero, 7⟩ ∧
      payload.blockNumber = (PayloadEnvelope.ofBlock ⟨.zero, 7⟩).blockNumber ∧
      payload.blockHash = (PayloadEnvelope.ofBlock ⟨.zero, 7⟩).blockHash ∧
      ∀ (sm : UnsafeHeadStateMachine .single) (logId : LogId .single),
        ∃ response, (sm.applyEntry ⟨logId, .normal (.commitUnsafePayload payload)⟩).1 =
          .ok response := by
  have hentry : (Carrier.field [("log_id", .null)] "payload" []).Lawful :=
    Carrier.field_lawful rfl
  have hhops : ∀ hop ∈ replicatedHops, hop.Lawful := by
    simp only [replicatedHops, List.mem_cons, List.not_mem_nil, or_false, forall_eq_or_imp,
      forall_eq]
    exact ⟨hentry, ⟨hentry, Carrier.field_lawful rfl⟩, ⟨hentry, rfl⟩, trivial, trivial⟩
  have hvalid : (PayloadEnvelope.ofBlock ⟨.zero, 7⟩).Valid := ⟨by decide +kernel, by decide +kernel⟩
  exact accepted_payload_applies .compact JsonText.compact_lawful _
    ((RaftConsensus.accepts_iff_valid _).mpr hvalid) replicatedHops hhops

end ConductorRs
