import ConductorRs.Metatheory.Control

/-!
What precedes a start command, in an arbitrary logic.

A start is sent only by `start_sequencer`, after it has read the committed
payload. A result about starts needs one assertion for a thread that is not
between that read and its command and one for a thread that is; every entry
point, the startup included, then keeps the first.
-/
namespace ConductorRs.Conductor
open Concurrency

/-- Neither the read of the committed payload nor the start command. -/
def Op.plain : Op → Bool
  | .consensus .latestUnsafePayload => false
  | o => !o.isStart

def Plain (o : Op) : Prop := o.plain = true

section
variable {cfg : ConductorConfig}

theorem routine_plain {o : Op} (h : Routine o) : Plain o := by
  cases o with
  | consensus o => cases o <;> first | rfl | cases h
  | sequencer o => cases o <;> first | rfl | cases h
  | _ => rfl

theorem transferring_plain {o : Op} (h : Transferring o) : Plain o := by
  cases o with
  | consensus o => cases o <;> first | rfl | cases h
  | metric m => rfl
  | _ => cases h

theorem stopSequencer_plain : stopSequencer.All Plain :=
  stopSequencer_all rfl rfl fun _ => rfl

theorem settle_plain (status : State) (result : Outcome) :
    (settle status result).All Plain :=
  settle_all status result rfl rfl

theorem transferAndSettle_plain (status : State) :
    ((transferLeaderInternal cfg).bind (settle status)).All Plain :=
  Task.all_bind _ _ _ (Task.all_mono (fun _ => transferring_plain) _
    transferLeaderInternal_transferring) (settle_plain status)

theorem stopAndTransferLeader_plain : (stopAndTransferLeader cfg).All Plain := by
  refine Task.all_bind _ _ _ stopSequencer_plain fun stopped => ?_
  refine Task.all_bind _ _ _ (Task.all_mono (fun _ => transferring_plain) _
    transferLeaderInternal_transferring) fun transferred => ?_
  cases stopped <;> cases transferred <;> trivial

theorem initializeStartupState_plain : initializeStartupState.All Plain := by
  refine Task.all_bindExcept _ _ _ ?_ fun _ => ?_
  · exact Task.all_bindExcept _ _ _ (all_sequencer rfl) fun _ => ⟨rfl, fun _ => trivial⟩
  · exact Task.all_bind _ _ _ (seedPreviousStateFromCurrent_all rfl rfl rfl fun _ => rfl)
      fun _ => trivial

end

/-- What holds after the read of the committed payload: `B` of a payload that was
found, otherwise still `A`. -/
def AfterRead {State ε : Type} (A : State → Prop) (B : PayloadEnvelope → State → Prop) :
    Except ε (Option PayloadEnvelope) → State → Prop
  | .ok (some payload) => B payload
  | .ok none | .error _ => A

/-- `A` away from a start, `B` once the committed payload has been read. -/
structure StartControl {State : Type} (L : Logic Shared State) (A : State → Prop)
    (B : PayloadEnvelope → State → Prop) : Prop where
  plain : ∀ o, Plain o → L.Holds A (op o) fun _ => A
  read : L.Holds A (op (.consensus .latestUnsafePayload)) (AfterRead A B)
  prepare : ∀ payload o, Preparing o → L.Holds (B payload) (op o) fun _ => B payload
  send : ∀ payload hash,
    L.Holds (B payload) (op (.sequencer (.startSequencer hash))) fun _ => A
  drop : ∀ payload s, B payload s → A s

namespace StartControl
variable {State : Type} {L : Logic Shared State} {cfg : ConductorConfig} {A : State → Prop}
variable {B : PayloadEnvelope → State → Prop} (S : StartControl L A B)
include S

theorem sendStart_holds (payload : PayloadEnvelope) (hash : Hash) :
    L.Holds (B payload) (sendStart hash) fun _ => A := by
  refine L.bind (S.send payload hash) fun r => L.all S.plain (t := _) ?_
  cases r with
  | ok u => exact ⟨rfl, fun _ => trivial⟩
  | error err =>
      dsimp only
      split
      · exact ⟨rfl, fun _ => trivial⟩
      · trivial

theorem startBody_holds : L.Holds A (startBody cfg).run fun _ => A := by
  refine L.bindExcept (R := AfterRead A B) ?_ (fun latest => ?_) fun err s _ h => h
  · refine L.bind S.read fun r => L.done fun s _ h => ?_
    cases r with
    | error err => exact h
    | ok latest => cases latest <;> exact h
  · cases latest with
    | none => exact L.done fun s _ h => h
    | some payload =>
        have hfail : ∀ (err : ConductorError) (s : State), L.inv s → B payload s → A s :=
          fun _ s _ h => S.drop payload s h
        refine L.bindPure (fun hash _ => ?_) hfail
        refine L.bindPure (fun number _ => ?_) hfail
        refine L.bindExcept (R := fun _ => B payload)
          (L.all (S.prepare payload) (all_sequencer rfl)) (fun head => ?_) hfail
        refine L.bindExcept (R := fun _ => B payload)
          (L.all (S.prepare payload) (startHash_preparing _ _ _ _)) (fun start => ?_) hfail
        exact S.sendStart_holds payload start

theorem startSequencer_holds : L.Holds A (startSequencer cfg) fun _ => A := by
  refine L.bind S.startBody_holds fun r => ?_
  cases r <;> exact L.all S.plain ⟨rfl, fun _ => trivial⟩

theorem react_holds (health : Health) (status : Conductor.State) :
    L.Holds A (react cfg health status) fun _ => A := by
  have hsettle : ∀ status result, L.Holds A (settle status result) fun _ => A :=
    fun status result => L.all S.plain (settle_plain status result)
  match status with
  | ⟨false, _, true⟩ =>
      exact L.bind (L.all S.plain stopSequencer_plain) fun r => hsettle _ r
  | ⟨true, true, false⟩ => exact L.bind S.startSequencer_holds fun r => hsettle _ r
  | ⟨true, false, false⟩ =>
      refine L.bind (S.plain _ rfl) fun prev => ?_
      split
      · refine L.bind S.startSequencer_holds fun r => ?_
        cases r with
        | ok u => exact hsettle _ _
        | error err => exact L.all S.plain (transferAndSettle_plain _)
      · exact L.all S.plain (transferAndSettle_plain _)
  | ⟨true, false, true⟩ =>
      refine L.bind (L.all S.plain ⟨rfl, fun _ => trivial⟩) fun wait => ?_
      cases wait with
      | true => exact L.done fun s _ h => h
      | false =>
          exact L.bind (L.all S.plain stopAndTransferLeader_plain) fun r => hsettle _ r
  | ⟨true, true, true⟩ => exact hsettle _ (.ok ())
  | ⟨false, _, false⟩ => exact hsettle _ (.ok ())

theorem actionLocked_holds : L.Holds A (actionLocked cfg) fun _ => A := by
  refine L.bind (S.plain _ rfl) fun paused => ?_
  cases paused with
  | true => exact L.done fun s _ h => h
  | false =>
      refine L.bind (L.all S.plain (Task.all_mono (fun _ => routine_plain) _
        stoppingOrStopped_routine)) fun stopped => ?_
      cases stopped with
      | true => exact L.done fun s _ h => h
      | false =>
          refine L.bind (S.plain _ rfl) fun health => ?_
          refine L.bind (S.plain _ rfl) fun leader => ?_
          exact L.bind (S.plain _ rfl) fun active => S.react_holds health _

theorem control : Control L cfg A A fun _ => A where
  free o ho := S.plain o (routine_plain ho)
  held o ho := S.plain o (routine_plain ho)
  lock := S.plain _ rfl
  unlock := S.plain _ rfl
  read := S.plain _ rfl
  store _ := S.plain _ rfl
  fail _ _ h := h
  critical := S.actionLocked_holds

theorem body_holds (call : Call) : L.Holds A (body cfg call) fun _ => A := by
  by_cases hcall : call = .initializeStartupState
  · rw [hcall]
    exact L.all S.plain initializeStartupState_plain
  · exact S.control.body_holds call hcall

end StartControl
end ConductorRs.Conductor
