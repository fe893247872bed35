import ConductorRs.Core.MembershipHistory

/-!
Versions read from the cluster as guards of later changes.

Every change puts a membership with a larger version in force, and a node's metrics
only move to larger versions, so a version read before a change is stale after it.
It is refused by `check_version` exactly where the check is made and sees the change:
after the leader check and the connection test, once this node's metrics have moved
past the version, and not for version 0, which means "do not check" and is also the
version of the membership that `initialize` writes.
-/
namespace ConductorRs.RaftConsensus
open Concurrency Collections

/-- The same membership, the same metrics and the same leadership. -/
def Node.Same (s s' : Node) : Prop :=
  s'.core = s.core ∧ s'.metrics = s.metrics ∧ s'.leading = s.leading

section
variable {net : String → Except ConnectError Unit} {s s' : Node}
variable {r : Except ConsensusError Unit}

theorem checkLeader_runs (h : Runs (Node.perform net) checkLeader s r s') :
    s.Same s' ∧ r = if s.leading then .ok () else .error .notLeader := by
  obtain ⟨leader, s₁, hop, hend⟩ := h.of_bind
  obtain ⟨x, hx⟩ := Runs.of_call hop
  cases hx
  cases hend
  exact ⟨⟨rfl, rfl, rfl⟩, rfl⟩

theorem checkMemberAddrOpen_runs {addr : String}
    (h : Runs (Node.perform net) (checkMemberAddrOpen addr) s r s') :
    s.Same s' ∧ (r = .ok () ↔ net addr = .ok ()) ∧
      ∀ expected actual, r ≠ .error (.versionMismatch expected actual) := by
  obtain ⟨reply, s₁, hop, hend⟩ := h.of_bind
  obtain ⟨x, hx⟩ := Runs.of_call hop
  simp only [Node.perform, answer, Members.perform, Option.some.injEq, Prod.mk.injEq] at hx
  obtain ⟨rfl, rfl⟩ := hx
  cases hend
  refine ⟨⟨rfl, rfl, rfl⟩, ?_⟩
  cases net addr with
  | ok u => simp
  | error err => cases err <;> simp

theorem checkVersion_runs {expected : Nat}
    (h : Runs (Node.perform net) (checkVersion expected) s r s') :
    s.Same s' ∧ r = if expected = 0 ∨ s.metrics.version = expected then .ok ()
      else .error (.versionMismatch expected s.metrics.version) := by
  simp only [checkVersion] at h
  split at h
  · next hzero =>
      cases h
      exact ⟨⟨rfl, rfl, rfl⟩, by simp [hzero]⟩
  · next hne =>
      obtain ⟨actual, s₁, hop, hend⟩ := h.of_bind
      obtain ⟨x, hx⟩ := Runs.of_call hop
      cases hx
      cases hend
      refine ⟨⟨rfl, rfl, rfl⟩, ?_⟩
      by_cases heq : s.metrics.version = expected <;> simp [hne, heq]

theorem changeMembership_runs {change : ChangeMembers} {retain : Bool}
    (h : Runs (Node.perform net) (changeMembership change retain) s r s') :
    ∀ expected actual, r ≠ .error (.versionMismatch expected actual) := by
  obtain ⟨reply, s₁, hop, hend⟩ := h.of_bind
  cases hend
  cases reply with
  | ok u => simp [Except.mapError]
  | error err => cases err <;> simp [Except.mapError, mapClientWriteError]

/-- The call has been refused for its expected version, and nothing has changed. -/
def Refused (expected : Nat) (s : Node) (r : Except ConsensusError Unit) (s' : Node) : Prop :=
  (∃ actual, r = .error (.versionMismatch expected actual)) ∧ s'.core = s.core

theorem refused_of_same {expected : Nat} {s₁ : Node} (hsame : s.Same s₁) :
    Refused expected s₁ r s' ↔ Refused expected s r s' := by
  simp only [Refused, hsame.1]

variable {expected : Nat} {φ : Prop} {rest : ExceptT ConsensusError (Task MemberOps) Unit}

theorem leader_then (hrest : ∀ s₁, s.Same s₁ → Runs (Node.perform net) rest.run s₁ r s' →
      (Refused expected s₁ r s' ↔ φ))
    (h : Runs (Node.perform net) (Task.attempt checkLeader >>= fun _ => rest).run s r s') :
    Refused expected s r s' ↔ s.leading = true ∧ φ := by
  rcases h.of_bindExcept with ⟨e, hrun, rfl⟩ | ⟨u, s₁, hrun, hgo⟩
  · obtain ⟨_, hr⟩ := checkLeader_runs hrun
    cases hlead : s.leading with
    | true => simp [hlead] at hr
    | false =>
        simp only [hlead, Bool.false_eq_true, ↓reduceIte, Except.error.injEq] at hr
        simp [Refused, hr]
  · obtain ⟨hsame, hr⟩ := checkLeader_runs hrun
    have hlead : s.leading = true := by
      by_contra hne
      simp [hne] at hr
    rw [← refused_of_same hsame, hrest s₁ hsame hgo]
    simp [hlead]

theorem connect_then {addr : String}
    (hrest : ∀ s₁, s.Same s₁ → Runs (Node.perform net) rest.run s₁ r s' →
      (Refused expected s₁ r s' ↔ φ))
    (h : Runs (Node.perform net)
      (Task.attempt (checkMemberAddrOpen addr) >>= fun _ => rest).run s r s') :
    Refused expected s r s' ↔ net addr = .ok () ∧ φ := by
  rcases h.of_bindExcept with ⟨e, hrun, rfl⟩ | ⟨u, s₁, hrun, hgo⟩
  · obtain ⟨_, hopen, hne⟩ := checkMemberAddrOpen_runs hrun
    have hclosed : ¬net addr = .ok () := fun hok => by simpa using hopen.mpr hok
    constructor
    · rintro ⟨⟨actual, hr⟩, _⟩
      exact absurd hr (hne expected actual)
    · exact fun h => absurd h.1 hclosed
  · obtain ⟨hsame, hopen, _⟩ := checkMemberAddrOpen_runs hrun
    rw [← refused_of_same hsame, hrest s₁ hsame hgo]
    simp [hopen.mp rfl]

/-- A version other than that of the metrics is refused, unless it is 0. -/
theorem version_then
    (hrest : ∀ s₁, Runs (Node.perform net) rest.run s₁ r s' →
      ∀ actual, r ≠ .error (.versionMismatch expected actual))
    (h : Runs (Node.perform net)
      (Task.attempt (checkVersion expected) >>= fun _ => rest).run s r s') :
    Refused expected s r s' ↔ expected ≠ 0 ∧ s.metrics.version ≠ expected := by
  rcases h.of_bindExcept with ⟨e, hrun, rfl⟩ | ⟨u, s₁, hrun, hgo⟩
  · obtain ⟨hsame, hr⟩ := checkVersion_runs hrun
    by_cases hpass : expected = 0 ∨ s.metrics.version = expected
    · simp [hpass] at hr
    · simp only [hpass, ↓reduceIte, Except.error.injEq] at hr
      simp [Refused, hr, hsame.1, not_or.mp hpass]
  · obtain ⟨_, hr⟩ := checkVersion_runs hrun
    have hpass : expected = 0 ∨ s.metrics.version = expected := by
      by_contra hne
      simp [hne] at hr
    constructor
    · rintro ⟨⟨actual, hmis⟩, _⟩
      exact absurd hmis (hrest s₁ hgo actual)
    · exact fun hne => absurd hpass (not_or.mpr hne)

/-- The version check of a call comes after the leader check. -/
theorem leader_version_then
    (hrest : ∀ s₁, Runs (Node.perform net) rest.run s₁ r s' →
      ∀ actual, r ≠ .error (.versionMismatch expected actual))
    (h : Runs (Node.perform net) (Task.attempt checkLeader >>= fun _ =>
      Task.attempt (checkVersion expected) >>= fun _ => rest).run s r s') :
    Refused expected s r s' ↔
      s.leading = true ∧ expected ≠ 0 ∧ s.metrics.version ≠ expected := by
  refine leader_then (fun s₁ hsame hrun => ?_) h
  rw [version_then hrest hrun, hsame.2.1]

theorem addNode_refused {change : BTreeMap String RaftNode → ChangeMembers} {id addr : String}
    (h : Runs (Node.perform net) (addNode change id addr expected).run s r s') :
    Refused expected s r s' ↔
      s.leading = true ∧ net addr = .ok () ∧ expected ≠ 0 ∧ s.metrics.version ≠ expected := by
  refine leader_then (fun s₁ h₁ hrun => connect_then (fun s₂ h₂ hrun => ?_) hrun) h
  rw [version_then (fun s₃ hrun => changeMembership_runs hrun expected) hrun, h₂.2.1, h₁.2.1]

theorem demoteVoter_refused {id : String}
    (h : Runs (Node.perform net) (demoteVoter id expected).run s r s') :
    Refused expected s r s' ↔
      s.leading = true ∧ expected ≠ 0 ∧ s.metrics.version ≠ expected :=
  leader_version_then (fun _ hrun => changeMembership_runs hrun expected) h

theorem removeServer_refused {id : String}
    (h : Runs (Node.perform net) (removeServer id expected).run s r s') :
    Refused expected s r s' ↔
      s.leading = true ∧ expected ≠ 0 ∧ s.metrics.version ≠ expected := by
  refine leader_version_then (fun s₁ hrun => ?_) h
  obtain ⟨servers, s₂, _, hchange⟩ := (runs_lift.mp hrun).of_bind
  exact changeMembership_runs hchange expected

theorem memberBody_refused {call : MembershipCall}
    (h : Runs (Node.perform net) (memberBody call) s r s') :
    Refused call.version s r s' ↔ call.version ≠ 0 ∧ s.leading = true ∧ Reachable net call ∧
      s.metrics.version ≠ call.version := by
  cases call with
  | addVoter id addr version | addNonVoter id addr version =>
      refine (addNode_refused h).trans ?_
      simp only [Reachable, MembershipCall.version]
      constructor
      · rintro ⟨hlead, hopen, hzero, hpast⟩
        exact ⟨hzero, hlead, hopen, hpast⟩
      · rintro ⟨hzero, hlead, hopen, hpast⟩
        exact ⟨hlead, hopen, hzero, hpast⟩
  | demoteVoter id version =>
      refine (demoteVoter_refused h).trans ?_
      simp only [Reachable, MembershipCall.version, true_and]
      exact and_left_comm
  | removeServer id version =>
      refine (removeServer_refused h).trans ?_
      simp only [Reachable, MembershipCall.version, true_and]
      exact and_left_comm

end

section
variable {s s' : Node}

/-- The metrics carry a membership that is or has been in force. -/
def Node.Behind (s : Node) : Prop := s.metrics.version ≤ s.core.version

/-- Membership and metrics are the same, or have larger versions. -/
structure Later (s s' : Node) : Prop where
  core : s'.core = s.core ∨ s.core.version < s'.core.version
  metrics : s.metrics.version ≤ s'.metrics.version
  behind : s.Behind → s'.Behind

theorem Later.refl (s : Node) : Later s s := ⟨.inl rfl, le_refl _, id⟩

theorem Later.version_le (h : Later s s') : s.core.version ≤ s'.core.version := by
  cases h.core with
  | inl heq => rw [heq]
  | inr hlt => exact hlt.le

theorem Later.trans {s'' : Node} (h : Later s s') (h' : Later s' s'') : Later s s'' := by
  refine ⟨?_, h.metrics.trans h'.metrics, fun hb => h'.behind (h.behind hb)⟩
  cases h.core with
  | inl heq =>
      rw [← heq]
      exact h'.core
  | inr hlt => exact .inr (hlt.trans_le h'.version_le)

/-- A membership with a larger version comes into force. -/
theorem later_core {config : MembershipConfig} {ledger : Ledger Unit MembershipConfig}
    (hlt : s.core.version < config.version) :
    Later s { s with core := config, ledger } :=
  ⟨.inr hlt, le_refl _, fun hb => hb.trans hlt.le⟩

theorem perform_later {net : String → Except ConnectError Unit} {o : MemberOp}
    {x : MemberChoice} {r : o.Reply} (h : Node.perform net s o x = some (r, s')) :
    Later s s' := by
  simp only [Node.perform] at h
  cases o with
  | leader | snapshotServers =>
      cases h
      exact .refl s
  | snapshotVersion =>
      cases h
      exact ⟨.inl rfl, le_refl _, id⟩
  | connect addr =>
      cases h
      exact .refl s
  | changeMembership change retain =>
      cases x with
      | none => cases h
      | connected reply => cases h
      | changed reply =>
          cases reply with
          | error e =>
              cases h
              exact .refl s
          | ok config =>
              simp only [answer, Members.perform] at h
              split at h
              · next hgo =>
                  cases h
                  simp only [Bool.and_eq_true, decide_eq_true_eq] at hgo
                  exact later_core hgo.2
              · cases h

theorem step_later (h : Node.Step s s') : Later s s' := by
  cases h with
  | call net call hrun =>
      exact hrun.keeps (I := Later s) (.refl s) fun _ _ _ _ _ hs hp => hs.trans (perform_later hp)
  | commit config hlt => exact later_core hlt
  | publish config hlt hle => exact ⟨.inl rfl, hlt.le, fun _ => hle⟩
  | lead leading => exact ⟨.inl rfl, le_refl _, id⟩

theorem history_later (h : Node.History s s') : Later s s' := by
  induction h with
  | refl => exact .refl s
  | tail _ hstep ih => exact ih.trans (step_later hstep)

theorem history_of_changed (h : Node.Changed s s') : Node.History s s' := by
  obtain ⟨a, b, hsa, hab, -, hbs⟩ := h
  exact (hsa.tail hab).trans hbs

theorem changed_version (h : Node.Changed s s') : s.core.version < s'.core.version := by
  obtain ⟨a, b, hsa, hab, hne, hbs⟩ := h
  have hlt : a.core.version < b.core.version := (step_later hab).core.resolve_left hne.symm
  have hfirst := (history_later hsa).version_le
  have hlast := (history_later hbs).version_le
  omega

/-- After a history in which the membership has changed since version `v` was read,
`v` is stale. A call that expects it is refused with a version mismatch, and changes
nothing, exactly if `v` is not 0, the node leads, the connection test passes and the
node's metrics have moved past `v`. -/
theorem stale_version_refused_iff (members : List (String × String)) (leading : Bool)
    (s₁ s₂ : Node) (h₁ : Node.History (Node.start members leading) s₁)
    (h₂ : Node.Changed s₁ s₂) (call : MembershipCall)
    (hv : call.version = s₁.membership.version) (net : String → Except ConnectError Unit)
    (r : Except ConsensusError Unit) (s₃ : Node)
    (hrun : Runs (Node.perform net) (memberBody call) s₂ r s₃) :
    call.version < s₂.core.version ∧
      (Refused call.version s₂ r s₃ ↔ call.version ≠ 0 ∧ s₂.leading = true ∧
        Reachable net call ∧ call.version < s₂.metrics.version) := by
  have hread : call.version = s₁.metrics.version := hv
  have hbehind : s₁.Behind := (history_later h₁).behind (le_refl _)
  have hle : call.version ≤ s₂.metrics.version :=
    hread ▸ (history_later (history_of_changed h₂)).metrics
  refine ⟨hread ▸ hbehind.trans_lt (changed_version h₂), ?_⟩
  rw [memberBody_refused hrun, hle.lt_iff_ne, ne_comm (a := s₂.metrics.version)]

end

section

def both : List (String × String) := [("a", "addr"), ("b", "addr")]

def config (index : Nat) (voters : List String) (members : List (String × String)) :
    MembershipConfig :=
  ⟨some index, voters, (initializeMembers members).nodes⟩

def reach : String → Except ConnectError Unit := fun _ => .ok ()

/-- The outcome of a call for which the raft core, if asked, commits this membership. -/
def outcome (s : Node) (call : MembershipCall) (config : MembershipConfig) :
    Option (Except ConsensusError Unit × Node) :=
  execute (Node.perform reach) (.changed (.ok config)) (memberBody call) s

def ran (s : Node) (call : MembershipCall) (config : MembershipConfig) : Node :=
  ((outcome s call config).map Prod.snd).getD s

theorem step_ran {s : Node} {call : MembershipCall} {config : MembershipConfig}
    (h : (outcome s call config).isSome = true) : Node.Step s (ran s call config) := by
  obtain ⟨⟨r, s'⟩, hrun⟩ := Option.isSome_iff_exists.mp h
  have hnext : ran s call config = s' := by simp [ran, hrun]
  rw [hnext]
  exact .call reach call (runs_of_execute_eq hrun)

/-- The node publishes the membership in force. -/
def published (s : Node) : Node := { s with metrics := s.core }

theorem changed_ran {s : Node} {call : MembershipCall} {config : MembershipConfig}
    (h : (outcome s call config).isSome = true) (hne : s.core ≠ (ran s call config).core)
    (hlt : (ran s call config).metrics.version < (ran s call config).core.version) :
    Node.Changed s (published (ran s call config)) :=
  ⟨s, _, .refl, step_ran h, hne, .single (.publish _ hlt (le_refl _))⟩

def bootstrapped : Node := Node.start both true

/-- The version is read after one change and is stale after the next, which
the node has published. -/
theorem stale_remove_refused :
    ∃ s₁ s₂ : Node, Node.History bootstrapped s₁ ∧ Node.Changed s₁ s₂ ∧
      s₁.membership.version = 1 ∧
      ∃ r s₃, Runs (Node.perform reach) (memberBody (.removeServer "b" 1)) s₂ r s₃ ∧
        Refused 1 s₂ r s₃ := by
  let s₁ := published (ran bootstrapped (.demoteVoter "b" 0) (config 1 ["a"] both))
  let s₂ := published (ran s₁ (.addVoter "b" "addr" 1) (config 2 ["a", "b"] both))
  have h₁ : Node.Changed bootstrapped s₁ :=
    changed_ran (by decide +kernel) (by decide +kernel) (by decide +kernel)
  have h₂ : Node.Changed s₁ s₂ :=
    changed_ran (by decide +kernel) (by decide +kernel) (by decide +kernel)
  have hlead : s₂.leading = true := by decide +kernel
  have hends : ∃ r s₃, Runs (Node.perform reach) (memberBody (.removeServer "b" 1)) s₂ r s₃ ∧
      true = true := runs_of_execute (x := .none) (p := fun _ => true) (by decide +kernel)
  obtain ⟨r, s₃, hrun, _⟩ := hends
  have hrefused := (stale_version_refused_iff _ true s₁ s₂ (history_of_changed h₁) h₂
    (.removeServer "b" 1) (by decide +kernel) reach r s₃ hrun).2.mpr
      ⟨by decide, hlead, trivial, by decide +kernel⟩
  exact ⟨s₁, s₂, history_of_changed h₁, h₂, by decide +kernel, r, s₃, hrun, hrefused⟩

/-- The call has succeeded and another membership is in force. -/
def changedFrom (s : Node) (q : Except ConsensusError Unit × Node) : Bool :=
  q.1.isOk && decide (q.2.core ≠ s.core)

/-- The version of the bootstrap membership is 0: read before a change and passed
after it, it is not checked, and the call succeeds. -/
theorem bootstrap_version_accepted :
    ∃ s₁ s₂ : Node, Node.History bootstrapped s₁ ∧ Node.Changed s₁ s₂ ∧
      (MembershipCall.removeServer "b" 0).version = s₁.membership.version ∧
      ∃ r s₃, Runs (Node.perform reach) (memberBody (.removeServer "b" 0)) s₂ r s₃ ∧
        r.isOk = true ∧ s₃.core ≠ s₂.core := by
  let s₂ := published (ran bootstrapped (.demoteVoter "b" 0) (config 1 ["a"] both))
  have h₂ : Node.Changed bootstrapped s₂ :=
    changed_ran (by decide +kernel) (by decide +kernel) (by decide +kernel)
  have hends : ∃ r s₃, Runs (Node.perform reach) (memberBody (.removeServer "b" 0)) s₂ r s₃ ∧
      changedFrom s₂ (r, s₃) = true :=
    runs_of_execute (x := MemberChoice.changed (.ok (config 2 ["a"] [("a", "addr")])))
      (by decide +kernel)
  obtain ⟨r, s₃, hrun, hgood⟩ := hends
  rw [changedFrom, Bool.and_eq_true, decide_eq_true_eq] at hgood
  exact ⟨bootstrapped, s₂, .refl, h₂, rfl, r, s₃, hrun, hgood⟩

end
end ConductorRs.RaftConsensus
