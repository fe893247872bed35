import ConductorRs.Concurrency.SwapOutline
import ConductorRs.Core.MembershipMachine

/-!
Membership versions as compare-and-swap.

The check of the expected version and the change are two operations in all four
calls and in both implementations. Under the policies below the two act as one:
a check that passes has seen the version of the membership in place, and no
change lands while another call stands between its check and its own change.
-/
namespace ConductorRs
open Concurrency Collections Ledger

/-- The stage after a version check. -/
def passed {ε : Type} (v : Nat) : Except ε Unit → Stage
  | .ok _ => .checked v
  | .error _ => .entered v

/-- The stage after a check that comes before the version check. -/
def entered {ε : Type} (v : Nat) : Except ε Unit → Stage
  | _ => .entered v

namespace RaftConsensus

section
variable {Tid : Type} [DecidableEq Tid]

/-- A version check that passes reads metrics that are not behind the core, and a
change succeeds only when no other call has passed its check and not yet made
its change. -/
@[reducible] def serial :
    Policy Tid MemberOps (Members Tid) MembershipCall MemberChoice MemberEnv where
  call _ _ _ := True
  step s i
    | .snapshotVersion, _ =>
        s.metrics.version = s.ledger.expecting i → s.metrics.version = s.core.version
    | .changeMembership _ _, .changed (.ok _) => ∀ j, j ≠ i → s.ledger.checked j = false
    | _, _ => True
  env _ _ := True

structure Inv (s : Members Tid) : Prop where
  sound : s.ledger.Sound s.core.version s.core
  clean : s.ledger.Clean

abbrev swapOutline : Outline Tid MemberOps (Members Tid) :=
  Ledger.outline Members.ledger Inv

abbrev logic (i : Tid) : Logic MemberOps (Members Tid) :=
  (memberMachine Tid).logic serial swapOutline i

def At (i : Tid) (stage : Stage) (s : Members Tid) : Prop := s.ledger.At i stage

variable {i : Tid}

theorem checkLeader_holds (v : Nat) :
    (logic i).Holds (At i (.entered v)) checkLeader fun r => At i (entered v r) := by
  refine (logic i).bind (R := fun _ => At i (.entered v)) (stage_keep ?_)
    fun leader => (logic i).done fun _ _ h => h
  intro s x r s' hi hp
  cases hp
  exact ⟨hi, rfl⟩

theorem checkMemberAddrOpen_holds (addr : String) (v : Nat) :
    (logic i).Holds (At i (.entered v)) (checkMemberAddrOpen addr) fun r =>
      At i (entered v r) := by
  refine (logic i).bind (R := fun _ => At i (.entered v)) (stage_keep ?_)
    fun r => (logic i).done fun _ _ h => h
  intro s x r s' hi hp
  cases x with
  | connected c =>
      cases hp
      exact ⟨hi, rfl⟩
  | none | changed c => cases hp

theorem snapshotVersion_holds (v : Nat) :
    (logic i).Holds (At i (.entered v)) (op .snapshotVersion) fun seen =>
      At i (if seen = v then .checked v else .entered v) := by
  refine stage_call _ ?_
  intro s x r s' hi hs hp hπ
  cases hp
  refine ⟨⟨hi.sound.compare fun heq => ⟨hπ heq, hi.clean⟩, hi.clean⟩,
    fun j hj => own_compare hj _, hs.compare _⟩

theorem checkVersion_holds (v : Nat) :
    (logic i).Holds (At i (.entered v)) (checkVersion v) fun r => At i (passed v r) := by
  unfold checkVersion
  split
  · next h0 =>
      subst h0
      exact (logic i).done fun _ _ h => h.unchecked
  · refine (logic i).bind (snapshotVersion_holds v) fun actual => (logic i).done ?_
    intro s _ h
    by_cases heq : actual = v
    · simpa [heq, passed] using h
    · simpa [heq, passed] using h

theorem changeMembership_holds (change : ChangeMembers) (retain : Bool) (v : Nat) :
    (logic i).Holds (At i (.checked v)) (changeMembership change retain) fun r =>
      At i (.returned v r) := by
  refine (logic i).bind (R := fun r => At i (.returned v r)) (stage_call _ ?_)
    fun r => (logic i).done fun s _ h => ?_
  · intro s x r s' hi hs hp hπ
    match x with
    | .none | .connected _ => cases hp
    | .changed (.error e) =>
        cases hp
        exact ⟨hi, fun j _ => own_refl j _, hs.entered⟩
    | .changed (.ok config) =>
        simp only [memberMachine, Members.perform, Bool.and_eq_true, decide_eq_true_eq] at hp
        split at hp
        · next hlt =>
            cases hp
            have hwrote := hs.change s.core
            have hsound := hi.sound.change hπ (fun hne => hs.2.2.2 (hs.1 ▸ hne)) config
            refine ⟨⟨hsound.release hwrote.2.2.1 hlt.2, ?_⟩,
              fun j hj => (own_change hj _).trans (own_release hj _ _),
              hwrote.release config.version config⟩
            intro j
            by_cases hj : j = i
            · simp [release, hj]
            · simpa [release, Ledger.change, hj] using hi.clean j
        · cases hp
  · cases r <;> exact h

theorem addNode_holds (change : BTreeMap String RaftNode → ChangeMembers) (id addr : String)
    (v : Nat) : (logic i).Holds (At i (.entered v)) (addNode change id addr v).run fun r =>
      At i (.returned v r) := by
  refine (logic i).bindExcept (checkLeader_holds v) (fun _ => ?_) fun _ _ _ h => h
  refine (logic i).bindExcept (checkMemberAddrOpen_holds addr v) (fun _ => ?_) fun _ _ _ h => h
  refine (logic i).bindExcept (checkVersion_holds v) (fun _ => ?_) fun _ _ _ h => h
  exact changeMembership_holds _ true v

theorem demoteVoter_holds (id : String) (v : Nat) :
    (logic i).Holds (At i (.entered v)) (demoteVoter id v).run fun r =>
      At i (.returned v r) := by
  refine (logic i).bindExcept (checkLeader_holds v) (fun _ => ?_) fun _ _ _ h => h
  refine (logic i).bindExcept (checkVersion_holds v) (fun _ => ?_) fun _ _ _ h => h
  exact changeMembership_holds _ true v

theorem removeServer_holds (id : String) (v : Nat) :
    (logic i).Holds (At i (.entered v)) (removeServer id v).run fun r =>
      At i (.returned v r) := by
  refine (logic i).bindExcept (checkLeader_holds v) (fun _ => ?_) fun _ _ _ h => h
  refine (logic i).bindExcept (checkVersion_holds v) (fun _ => ?_) fun _ _ _ h => h
  have hservers : (logic i).Holds (At i (.checked v)) (op .snapshotServers)
      fun _ => At i (.checked v) := by
    refine stage_keep ?_
    intro s x r s' hi hp
    cases hp
    exact ⟨hi, rfl⟩
  refine (logic i).bindLift hservers fun servers => ?_
  exact changeMembership_holds _ false v

theorem memberMachine_verified : (memberMachine Tid).Verified serial swapOutline := by
  refine verified_of_stages MembershipCall.version ?_ ?_ ?_ ?_
  · intro s i call s' hi he
    cases he
    exact ⟨⟨hi.sound.begin _, hi.clean⟩, rfl⟩
  · intro i call
    cases call with
    | addVoter id addr v => exact addNode_holds .addVoters id addr v
    | addNonVoter id addr v => exact addNode_holds .addNodes id addr v
    | demoteVoter id v => exact demoteVoter_holds id v
    | removeServer id v => exact removeServer_holds id v
  · intro s i call out hi hs
    refine ⟨⟨hi.sound.finish hs, ?_⟩, rfl⟩
    cases out <;> exact hi.clean
  · intro s e s' hi he
    cases e <;> cases he <;> exact ⟨⟨hi.sound, hi.clean⟩, rfl⟩

end
end RaftConsensus

namespace LocalConsensus

section
variable {Tid : Type} [DecidableEq Tid]

/-- A version check that passes does so when every change of the members has its
version, the members are changed only when no other call has passed its check and
not yet made its change, and the version does not wrap around. -/
@[reducible] def serial : Policy Tid MemberOps (Members Tid) MembershipCall Unit Empty where
  call _ _ _ := True
  step s i
    | .loadVersion, _ => s.version = s.ledger.expecting i → s.ledger.Clean
    | .insertMember _ _, _ | .removeMember _, _ | .demoteMember _, _ =>
        ∀ j, j ≠ i → s.ledger.checked j = false
    | .fetchAddVersion, _ => s.version + 1 < 2 ^ 64
    | .lockMembers, _ | .unlockMembers, _ => True
  env _ _ := True

def Inv (s : Members Tid) : Prop := s.ledger.Sound s.version s.members

abbrev swapOutline : Outline Tid MemberOps (Members Tid) :=
  Ledger.outline Members.ledger Inv

abbrev logic (i : Tid) : Logic MemberOps (Members Tid) :=
  (memberMachine Tid).logic serial swapOutline i

def At (i : Tid) (stage : Stage) (s : Members Tid) : Prop := s.ledger.At i stage

variable {i : Tid}

theorem loadVersion_holds (v : Nat) :
    (logic i).Holds (At i (.entered v)) (op .loadVersion) fun seen =>
      At i (if seen = v then .checked v else .entered v) := by
  refine stage_call _ ?_
  intro s x r s' hi hs hp hπ
  cases hp
  exact ⟨Sound.compare hi fun heq => ⟨rfl, hπ heq⟩, fun j hj => own_compare hj _, hs.compare _⟩

theorem checkVersion_holds (v : Nat) :
    (logic i).Holds (At i (.entered v)) (checkVersion v) fun r => At i (passed v r) := by
  unfold checkVersion
  split
  · next h0 =>
      subst h0
      exact (logic i).done fun _ _ h => h.unchecked
  · refine (logic i).bind (loadVersion_holds v) fun actual => (logic i).done ?_
    intro s _ h
    by_cases heq : actual = v
    · simpa [heq, passed] using h
    · simpa [heq, passed] using h

/-- The members are replaced by a thread that has checked its version. -/
theorem write_keeps {s : Members Tid} {v : Nat} (hi : Inv s) (hs : At i (.checked v) s)
    (hothers : ∀ j, j ≠ i → s.ledger.checked j = false)
    (members : BTreeMap String ServerInfo) :
    Inv (s.write i members) ∧ (∀ j, j ≠ i → Own j s.ledger (s.write i members).ledger) ∧
      At i (.wrote v) (s.write i members) :=
  ⟨Sound.change hi hothers (fun hne => hs.2.2.2 (hs.1 ▸ hne)) members,
    fun _ hj => own_change hj _, Ledger.At.change hs _⟩

/-- A statement that takes the members' lock, writes and drops the guard. -/
theorem statement_holds {o : MemberOp} {r : o.Reply}
    (change : BTreeMap String ServerInfo → BTreeMap String ServerInfo)
    (hperform : ∀ s : Members Tid, s.perform i o =
      if s.owner.isNone then some (r, s.write i (change s.members)) else none)
    (hserial : ∀ s : Members Tid, serial.step s i o () →
      ∀ j, j ≠ i → s.ledger.checked j = false) (v : Nat) :
    (logic i).Holds (At i (.checked v)) (op o) fun _ => At i (.wrote v) := by
  refine stage_call _ ?_
  intro s x r' s' hi hs hp hπ
  rw [show (memberMachine Tid).perform s i o x = _ from hperform s] at hp
  split at hp
  · cases hp
    exact write_keeps hi hs (hserial s hπ) _
  · cases hp

theorem insertMember_holds (id : String) (info : ServerInfo) (v : Nat) :
    (logic i).Holds (At i (.checked v)) (op (.insertMember id info)) fun _ =>
      At i (.wrote v) :=
  statement_holds (fun members => members.insert id info) (fun _ => rfl) (fun _ h => h) v

theorem removeMember_holds (id : String) (v : Nat) :
    (logic i).Holds (At i (.checked v)) (op (.removeMember id)) fun _ =>
      At i (.wrote v) :=
  statement_holds (fun members => members.erase id) (fun _ => rfl) (fun _ h => h) v

theorem demoteMember_holds (id : String) (v : Nat) :
    (logic i).Holds (At i (.checked v)) (op (.demoteMember id)) fun found =>
      At i (if found then .wrote v else .checked v) := by
  refine stage_call _ ?_
  intro s x r s' hi hs hp hπ
  simp only [memberMachine, Members.perform] at hp
  split at hp
  · cases hp
    exact ⟨hi, fun j _ => own_refl j _, hs⟩
  · cases hp
    exact write_keeps hi hs hπ _

theorem fetchAddVersion_holds (v : Nat) :
    (logic i).Holds (At i (.wrote v)) (op .fetchAddVersion) fun _ => At i (.made v) := by
  refine stage_call _ ?_
  intro s x r s' hi hs hp hπ
  cases hp
  have hlt : s.version < (s.version + 1) % 2 ^ 64 := by
    change s.version + 1 < 2 ^ 64 at hπ
    omega
  exact ⟨Sound.release hi hs.2.2.1 hlt, fun j hj => own_release hj _ _, hs.release _ _⟩

theorem lockMembers_holds (stage : Stage) :
    (logic i).Holds (At i stage) (op .lockMembers) fun _ => At i stage := by
  refine stage_keep ?_
  intro s x r s' hi hp
  simp only [memberMachine, Members.perform] at hp
  split at hp
  · cases hp
    exact ⟨hi, rfl⟩
  · cases hp

theorem unlockMembers_holds (stage : Stage) :
    (logic i).Holds (At i stage) (op .unlockMembers) fun _ => At i stage := by
  refine stage_keep ?_
  intro s x r s' hi hp
  cases hp
  exact ⟨hi, rfl⟩

theorem addMember_holds (suffrage : ServerSuffrage) (id addr : String) (v : Nat) :
    (logic i).Holds (At i (.entered v)) (addMember suffrage id addr v).run fun r =>
      At i (.returned v r) := by
  refine (logic i).bindExcept (checkVersion_holds v) (fun _ => ?_) fun _ _ _ h => h
  refine (logic i).bindLift (insertMember_holds id ⟨id, addr, suffrage⟩ v) fun _ => ?_
  exact (logic i).lift (fetchAddVersion_holds v) fun _ _ h => h

theorem removeServer_holds (id : String) (v : Nat) :
    (logic i).Holds (At i (.entered v)) (removeServer id v).run fun r =>
      At i (.returned v r) := by
  refine (logic i).bindExcept (checkVersion_holds v) (fun _ => ?_) fun _ _ _ h => h
  refine (logic i).bindLift (removeMember_holds id v) fun _ => ?_
  exact (logic i).lift (fetchAddVersion_holds v) fun _ _ h => h

theorem demoteVoter_holds (id : String) (v : Nat) :
    (logic i).Holds (At i (.entered v)) (demoteVoter id v).run fun r =>
      At i (.returned v r) := by
  refine (logic i).bindExcept (checkVersion_holds v) (fun _ => ?_) fun _ _ _ h => h
  refine (logic i).bindLift (lockMembers_holds _) fun _ => ?_
  refine (logic i).bindLift (demoteMember_holds id v) fun found => ?_
  cases found with
  | true =>
      refine (logic i).bindLift (fetchAddVersion_holds v) fun _ => ?_
      exact (logic i).lift (unlockMembers_holds _) fun _ _ h => h
  | false =>
      refine (logic i).bindLift (unlockMembers_holds _) fun _ => ?_
      exact (logic i).done fun _ _ h => h.entered

theorem memberMachine_verified : (memberMachine Tid).Verified serial swapOutline := by
  refine verified_of_stages MembershipCall.version ?_ ?_ ?_ ?_
  · intro s i call s' hi he
    cases he
    exact ⟨Sound.begin hi _, rfl⟩
  · intro i call
    cases call with
    | addVoter id addr v => exact addMember_holds .voter id addr v
    | addNonVoter id addr v => exact addMember_holds .nonvoter id addr v
    | demoteVoter id v => exact demoteVoter_holds id v
    | removeServer id v => exact removeServer_holds id v
  · intro s i call out hi hs
    exact ⟨Sound.finish hi hs, rfl⟩
  · intro s e
    cases e

end
end LocalConsensus
end ConductorRs
