import ConductorRs.Concurrency.Logic
import ConductorRs.Core.StoreMachine

/-!
`persist_to_disk`, judged in an arbitrary logic.

`Persisting` asks for triples for the single steps: taking the persist lock,
reading the image, preparing and writing the temporary file, renaming it,
releasing the lock. The whole of `persist_to_disk` then leads from `free` to
`done` when it succeeds and back to `free` when it fails.
-/
namespace ConductorRs.MemoryRaftStore
open Concurrency

section
variable {T : TypeConfig} {Bytes : Type} (codec : Codec T Bytes)
variable {p : StoreOp T Bytes → Prop}

theorem file_all (hfile : ∀ o, p (.file o)) (o : FileOp Bytes) :
    (file o : ExceptT IoError (Task (StoreOps T Bytes)) Unit).run.All p :=
  ⟨hfile o, fun _ => trivial⟩

theorem writeFile_all (hfile : ∀ o, p (.file o)) (path : StorePath) (data : Bytes) :
    (writeFile path data : ExceptT IoError (Task (StoreOps T Bytes)) Unit).run.All p := by
  have hbody : (ExceptT.run do
      file .createTmp
      file .setLen
      file (.writeTmp data)
      file .openTmp
      file .syncTmp
      (file .rename : ExceptT IoError (Task (StoreOps T Bytes)) Unit)).All p := by
    refine Task.all_bindExcept _ _ _ (file_all hfile _) fun _ => ?_
    refine Task.all_bindExcept _ _ _ (file_all hfile _) fun _ => ?_
    refine Task.all_bindExcept _ _ _ (file_all hfile _) fun _ => ?_
    refine Task.all_bindExcept _ _ _ (file_all hfile _) fun _ => ?_
    exact Task.all_bindExcept _ _ _ (file_all hfile _) fun _ => file_all hfile _
  unfold writeFile
  split
  · exact Task.all_bindExcept _ _ _ (file_all hfile _) fun _ => hbody
  · exact hbody

theorem syncParent_all (hfile : ∀ o, p (.file o)) (path : StorePath) :
    (syncParent path : Task (StoreOps T Bytes) Unit).All p := by
  unfold syncParent
  split
  · refine ⟨hfile _, fun r => ?_⟩
    cases r with
    | ok u => exact ⟨hfile _, fun _ => trivial⟩
    | error err => trivial
  · trivial

theorem readImage_all (hread : ∀ field, p (.read field)) :
    (readImage : Task (StoreOps T Bytes) (PersistedRaftStore T Bytes)).All p :=
  ⟨hread _, fun _ => ⟨hread _, fun _ => ⟨hread _, fun _ => ⟨hread _, fun _ =>
    ⟨hread _, fun _ => ⟨hread _, fun _ => ⟨hread _, fun _ => trivial⟩⟩⟩⟩⟩⟩⟩

theorem persistLocked_all (hread : ∀ field, p (.read field)) (hfile : ∀ o, p (.file o))
    (path : StorePath) : (persistLocked codec path).All p := by
  refine Task.all_bind _ _ _ (readImage_all hread) fun image => ?_
  refine Task.all_bind _ _ _ (writeFile_all hfile path _) fun r => ?_
  cases r with
  | ok u => exact Task.all_bind _ _ _ (syncParent_all hfile path) fun _ => trivial
  | error err => trivial

theorem persistToDisk_all (hread : ∀ field, p (.read field)) (hfile : ∀ o, p (.file o))
    (hlock : p .lockPersist) (hunlock : p .unlockPersist) (path : Option StorePath) :
    (persistToDisk codec path).All p := by
  cases path with
  | none => trivial
  | some path =>
      refine Task.all_bind _ (op .lockPersist) _ ⟨hlock, fun _ => trivial⟩ fun _ => ?_
      refine Task.all_bind _ _ _ (persistLocked_all codec hread hfile path) fun result => ?_
      exact ⟨hunlock, fun _ => trivial⟩

def KeepsFields (o : StoreOp T Bytes) : Prop := o.target = none

/-- Persisting changes no field. -/
theorem persistToDisk_keepsFields (path : Option StorePath) :
    (persistToDisk codec path).All KeepsFields :=
  persistToDisk_all (p := KeepsFields) codec (fun _ => rfl) (fun _ => rfl) rfl rfl path

end

section
variable {T : TypeConfig} {Bytes State : Type}

/-- `locked` holds under the persist lock, `known image` once the image has been
read, `written image` once the temporary file holds it, `renamed` once it is in
place, and `done` after the lock has been released again. -/
structure Persisting (L : Logic (StoreOps T Bytes) State) (codec : Codec T Bytes)
    (free locked : State → Prop) (known written : PersistedRaftStore T Bytes → State → Prop)
    (renamed done : State → Prop) : Prop where
  lock : L.Holds free (op .lockPersist) fun _ => locked
  read : L.Holds locked readImage known
  prepare : ∀ image o, o = .createDirAll ∨ o = .createTmp ∨ o = .setLen →
    L.Holds (known image) (op (.file o)) fun _ => known image
  write : ∀ image, L.Holds (known image) (op (.file (.writeTmp (codec.store image))))
    fun r s => match r with
      | .ok _ => written image s
      | .error _ => locked s
  flush : ∀ image o, o = .openTmp ∨ o = .syncTmp →
    L.Holds (written image) (op (.file o)) fun _ => written image
  rename : ∀ image, L.Holds (written image) (op (.file .rename)) fun r s => match r with
    | .ok _ => renamed s
    | .error _ => locked s
  sync : ∀ o, o = .openParent ∨ o = .syncParent →
    L.Holds renamed (op (.file o)) fun _ => renamed
  unlock : L.Holds renamed (op .unlockPersist) fun _ => done
  abandon : L.Holds locked (op .unlockPersist) fun _ => free
  known_locked : ∀ image s, known image s → locked s
  written_locked : ∀ image s, written image s → locked s

/-- After `persist_to_disk`. -/
def Persisted {α : Type} (free done : State → Prop) : Except IoError α → State → Prop
  | .ok _, s => done s
  | .error _, s => free s

namespace Persisting
variable {L : Logic (StoreOps T Bytes) State} {codec : Codec T Bytes}
variable {free locked : State → Prop}
variable {known written : PersistedRaftStore T Bytes → State → Prop}
variable {renamed done : State → Prop}
variable (P : Persisting L codec free locked known written renamed done)
include P

theorem writeFile_holds (path : StorePath) (image : PersistedRaftStore T Bytes) :
    L.Holds (known image) (writeFile path (codec.store image)).run
      (Persisted locked renamed) := by
  have hknown : ∀ (err : IoError) (s : State), L.inv s → known image s →
      Persisted locked renamed (.error err : Except IoError Unit) s :=
    fun _ s _ h => P.known_locked image s h
  have hwritten : ∀ (err : IoError) (s : State), L.inv s → written image s →
      Persisted locked renamed (.error err : Except IoError Unit) s :=
    fun _ s _ h => P.written_locked image s h
  have hbody : L.Holds (known image) (ExceptT.run do
      file .createTmp
      file .setLen
      file (.writeTmp (codec.store image))
      file .openTmp
      file .syncTmp
      (file .rename : ExceptT IoError (Task (StoreOps T Bytes)) Unit))
      (Persisted locked renamed) := by
    refine L.bindExcept (P.prepare image _ (.inr (.inl rfl))) (fun _ => ?_) hknown
    refine L.bindExcept (P.prepare image _ (.inr (.inr rfl))) (fun _ => ?_) hknown
    refine L.bindExcept (P.write image) (fun _ => ?_) fun _ _ _ h => h
    refine L.bindExcept (P.flush image _ (.inl rfl)) (fun _ => ?_) hwritten
    refine L.bindExcept (P.flush image _ (.inr rfl)) (fun _ => ?_) hwritten
    refine L.post (P.rename image) fun r s h => ?_
    cases r with
    | ok u => exact h
    | error err => exact h
  unfold writeFile
  split
  · exact L.bindExcept (P.prepare image _ (.inl rfl)) (fun _ => hbody) hknown
  · exact hbody

theorem syncParent_holds (path : StorePath) :
    L.Holds renamed (syncParent path) fun _ => renamed := by
  unfold syncParent
  split
  · refine L.bind (P.sync _ (.inl rfl)) fun r => ?_
    cases r with
    | ok u => exact L.bind (P.sync _ (.inr rfl)) fun _ => L.done fun _ _ h => h
    | error err => exact L.done fun _ _ h => h
  · exact L.done fun _ _ h => h

theorem persistLocked_holds (path : StorePath) :
    L.Holds locked (persistLocked codec path) (Persisted locked renamed) := by
  refine L.bind P.read fun image => ?_
  refine L.bind (P.writeFile_holds path image) fun r => ?_
  cases r with
  | ok u => exact L.bind (P.syncParent_holds path) fun _ => L.done fun _ _ h => h
  | error err => exact L.done fun _ _ h => h

theorem persistToDisk_holds (path : StorePath) :
    L.Holds free (persistToDisk codec (some path)) (Persisted free done) := by
  refine L.bind P.lock fun _ => ?_
  refine L.bind (P.persistLocked_holds path) fun r => ?_
  cases r with
  | ok u => exact L.bind P.unlock fun _ => L.done fun _ _ h => h
  | error err => exact L.bind P.abandon fun _ => L.done fun _ _ h => h

end Persisting
end

section
variable {T : TypeConfig} {Bytes State : Type}

theorem respondAll_all {p : StoreOp T Bytes → Prop}
    (responses : List (Option UnsafeHeadStateMachine.Responder × RaftCommandResponse))
    (h : ∀ responder response, (some responder, response) ∈ responses →
      p (.respond responder response)) :
    (respondAll responses : Task (StoreOps T Bytes) Unit).All p := by
  induction responses with
  | nil => trivial
  | cons q rest ih =>
      obtain ⟨responder, response⟩ := q
      have hrest := ih fun responder response hmem =>
        h responder response (List.mem_cons_of_mem _ hmem)
      cases responder with
      | none => exact hrest
      | some responder => exact ⟨h responder response List.mem_cons_self, fun _ => hrest⟩

variable {L : Logic (StoreOps T Bytes) State} {codec : Codec T Bytes}
variable {path : Option StorePath} {A free done : State → Prop}

theorem noSnapshot_triple {t : Task (StoreOps T Bytes) (Except IoError Unit)}
    {Q : StoreOut T Bytes → State → Prop} (h : L.Holds A t fun r => Q (r.map fun _ => none)) :
    L.Holds A (noSnapshot t) Q :=
  L.bind h fun _ => L.done fun _ _ hs => hs

theorem noSnapshot_persisted {t : Task (StoreOps T Bytes) (Except IoError Unit)}
    (h : L.Holds A t (Persisted free done)) : L.Holds A (noSnapshot t) (Persisted free done) := by
  refine noSnapshot_triple (L.post h fun r s hs => ?_)
  cases r <;> exact hs

theorem append_persisted {entries : List (Entry T)}
    (hwrite : L.Holds A
      (op (.insertLog (entries.map fun entry => (entry.logId.index, codec.entry entry))))
      fun _ => free)
    (hpersist : L.Holds free (persistToDisk codec path) (Persisted free done))
    (hcompleted : L.Holds done (op (.ioCompleted (.ok ()))) fun _ => done)
    (hfailed : ∀ err, L.Holds free (op (.ioCompleted (.error err))) fun _ => free) :
    L.Holds A (append codec path entries) (Persisted free done) := by
  refine L.bind hwrite fun _ => ?_
  refine L.bind hpersist fun r => ?_
  cases r with
  | ok u => exact L.bind hcompleted fun _ => L.done fun _ _ h => h
  | error err => exact L.bind (hfailed err) fun _ => L.done fun _ _ h => h

theorem apply_persisted
    {items : List (Except IoError (Entry T × Option UnsafeHeadStateMachine.Responder))}
    (hwrite : L.Holds A (op (.applySm items)) fun _ => free)
    (hpersist : L.Holds free (persistToDisk codec path) (Persisted free done))
    (hrespond : ∀ responder response,
      L.Holds done (op (.respond responder response)) fun _ => done) :
    L.Holds A (apply codec path items) (Persisted free done) := by
  refine L.bind hwrite fun applied => ?_
  cases applied with
  | error err => exact L.done fun _ _ h => h
  | ok responses =>
      refine L.bind hpersist fun r => ?_
      cases r with
      | error err => exact L.done fun _ _ h => h
      | ok u =>
          have hall : L.Holds done (respondAll responses) fun _ => done :=
            L.all (p := fun o => L.Holds done (op o) fun _ => done) (fun _ ho => ho)
              (respondAll_all responses fun responder response _ => hrespond responder response)
          exact L.bind hall fun _ => L.done fun _ _ h => h

end
end ConductorRs.MemoryRaftStore
