import ConductorRs.Metatheory.MembershipVersions

/-!
Membership versions as compare-and-swap: the runs.

The last section leaves the policies. Two calls that both pass their check before
either makes its change both succeed, in both implementations, and the second is
applied to a membership that never carried the version it expected.
-/
namespace ConductorRs.MembershipVersions
open Concurrency Collections

/-- For both implementations: at most one call for each version expected succeeds,
and it was applied to the membership that carried that version. -/
theorem versions_swap (Tid : Type) [DecidableEq Tid] :
    (∀ core metrics leading c, (RaftConsensus.memberMachine Tid).Reaches RaftConsensus.serial
      (Config.quiet (.initial core metrics leading)) c → c.state.ledger.Swaps) ∧
    ∀ serverId addr c, (LocalConsensus.memberMachine Tid).Reaches LocalConsensus.serial
      (Config.quiet (.new serverId addr)) c → c.state.ledger.Swaps := by
  constructor
  · intro core metrics leading c hr
    have hquiet : (RaftConsensus.memberMachine Tid).Conforms RaftConsensus.serial
        RaftConsensus.swapOutline (Config.quiet (.initial core metrics leading)) :=
      Machine.conforms_quiet _ ⟨Ledger.sound_start _ _, fun _ => rfl⟩ fun _ => ⟨rfl, rfl, rfl⟩
    exact (RaftConsensus.memberMachine_verified.reaches hquiet hr).1.sound.swaps
  · intro serverId addr c hr
    have hquiet : (LocalConsensus.memberMachine Tid).Conforms LocalConsensus.serial
        LocalConsensus.swapOutline (Config.quiet (.new serverId addr)) :=
      Machine.conforms_quiet _ (Ledger.sound_start _ _) fun _ => ⟨rfl, rfl, rfl⟩
    exact Ledger.Sound.swaps (LocalConsensus.memberMachine_verified.reaches hquiet hr).1

section
open RaftConsensus (MemberChoice MemberEnv MembershipConfig)

instance (s : RaftConsensus.Members Bool) (i : Bool) (o : RaftConsensus.MemberOp)
    (x : MemberChoice) : Decidable (RaftConsensus.serial.step s i o x) := by
  unfold RaftConsensus.serial
  dsimp only
  split <;> infer_instance

instance (s : LocalConsensus.Members Bool) (i : Bool) (o : LocalConsensus.MemberOp)
    (x : Unit) : Decidable (LocalConsensus.serial.step s i o x) := by
  unfold LocalConsensus.serial Ledger.Clean
  dsimp only
  split <;> infer_instance

def config (index : Nat) (voters : List String) : MembershipConfig :=
  ⟨some index, voters,
    ((BTreeMap.empty.insert "a" ⟨"addr"⟩).insert "b" ⟨"addr"⟩).insert "c" ⟨"addr"⟩⟩

def threeVoters : RaftConsensus.Members Bool :=
  .initial (config 1 ["a", "b", "c"]) (config 1 ["a", "b", "c"]) true

abbrev RaftEvent := Event Bool MembershipCall MemberChoice MemberEnv

/-- Leadership and version are checked. -/
def raftChecked (i : Bool) (id : String) (version : Nat) : List RaftEvent :=
  [.call i (.demoteVoter id version), .step i .none, .step i .none]

def raftChanged (i : Bool) (index : Nat) (voters : List String) : List RaftEvent :=
  [.step i (.changed (.ok (config index voters))), .ret i]

/-- A call that expects the next version is refused while the first is under way, and
tried again after the change has been published. -/
def raftCalls : List RaftEvent :=
  raftChecked false "b" 1 ++ raftChecked true "c" 2 ++ [.ret true] ++
    raftChanged false 2 ["a", "c"] ++ [.env .publish] ++
    raftChecked true "c" 2 ++ raftChanged true 3 ["a"]

abbrev LocalEvent := Event Bool MembershipCall Unit Empty

def localChecked (i : Bool) (id : String) (version : Nat) : List LocalEvent :=
  [.call i (.addVoter id "addr" version), .step i ()]

def localChanged (i : Bool) : List LocalEvent :=
  [.step i (), .step i (), .ret i]

def localCalls : List LocalEvent :=
  localChecked false "b" 1 ++ localChecked true "c" 2 ++ [.ret true] ++ localChanged false ++
    localChecked true "c" 2 ++ localChanged true

theorem calls_swap :
    (∃ c, (RaftConsensus.memberMachine Bool).Reaches RaftConsensus.serial
        (Config.quiet threeVoters) c ∧
      c.state.ledger.successes.map Prod.fst = [2, 1] ∧ c.state.ledger.Swaps) ∧
    ∃ c, (LocalConsensus.memberMachine Bool).Reaches LocalConsensus.serial
        (Config.quiet (.new "a" "addr")) c ∧
      c.state.ledger.successes.map Prod.fst = [2, 1] ∧ c.state.ledger.Swaps := by
  constructor
  · have hrun : ∃ c, (RaftConsensus.memberMachine Bool).Reaches RaftConsensus.serial
        (Config.quiet threeVoters) c ∧
        decide (c.state.ledger.successes.map Prod.fst = [2, 1]) = true :=
      Machine.reaches_of_permitted raftCalls (by decide +kernel)
    obtain ⟨c, hr, hboth⟩ := hrun
    exact ⟨c, hr, of_decide_eq_true hboth, (versions_swap Bool).1 _ _ _ c hr⟩
  · have hrun : ∃ c, (LocalConsensus.memberMachine Bool).Reaches LocalConsensus.serial
        (Config.quiet (.new "a" "addr")) c ∧
        decide (c.state.ledger.successes.map Prod.fst = [2, 1]) = true :=
      Machine.reaches_of_permitted localCalls (by decide +kernel)
    obtain ⟨c, hr, hboth⟩ := hrun
    exact ⟨c, hr, of_decide_eq_true hboth, (versions_swap Bool).2 _ _ c hr⟩

/-- Two calls have succeeded for version 1, one of them on a membership that did
not carry it. -/
def Doubled {M : Type} (L : Ledger Bool M) : Prop :=
  L.successes.map Prod.fst = [1, 1] ∧ ∃ p ∈ L.successes, p.2 ≠ L.carried p.1

instance {M : Type} [DecidableEq M] (L : Ledger Bool M) : Decidable (Doubled L) :=
  inferInstanceAs (Decidable (_ ∧ _))

theorem both_checked :
    (∃ c, (RaftConsensus.memberMachine Bool).Reaches Policy.any
        (Config.quiet threeVoters) c ∧ Doubled c.state.ledger) ∧
    ∃ c, (LocalConsensus.memberMachine Bool).Reaches Policy.any
        (Config.quiet (.new "a" "addr")) c ∧ Doubled c.state.ledger := by
  constructor
  · have hrun : ∃ c, (RaftConsensus.memberMachine Bool).Reaches Policy.any
        (Config.quiet threeVoters) c ∧ decide (Doubled c.state.ledger) = true :=
      Machine.reaches_of_permitted (raftChecked false "b" 1 ++ raftChecked true "c" 1 ++
        raftChanged false 2 ["a", "c"] ++ raftChanged true 3 ["a"]) (by decide +kernel)
    obtain ⟨c, hr, hdoubled⟩ := hrun
    exact ⟨c, hr, of_decide_eq_true hdoubled⟩
  · have hrun : ∃ c, (LocalConsensus.memberMachine Bool).Reaches Policy.any
        (Config.quiet (.new "a" "addr")) c ∧ decide (Doubled c.state.ledger) = true :=
      Machine.reaches_of_permitted (localChecked false "b" 1 ++ localChecked true "c" 1 ++
        localChanged false ++ localChanged true) (by decide +kernel)
    obtain ⟨c, hr, hdoubled⟩ := hrun
    exact ⟨c, hr, of_decide_eq_true hdoubled⟩

end
end ConductorRs.MembershipVersions
