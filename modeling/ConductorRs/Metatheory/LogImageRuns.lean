import ConductorRs.Metatheory.LogImageSteps

/-!
The log in the file has no gap: the calls and their runs.

The last section leaves the policy: a purge between the two reads of an apply
that persists leaves a file whose log starts beyond the recorded id.
-/
namespace ConductorRs.MemoryRaftStore.LogImage
open Concurrency Collections

section
variable {T : TypeConfig} {Bytes : Type} {codec : Codec T Bytes} {path : StorePath}
variable {i : StoreTask}

theorem unlocked_stable : (outline codec).Stable i (Unlocked i) := persistLock.unlocked_stable

theorem inert_free {o : StoreOp T Bytes} (ho : Inert o) :
    (logic codec path i).Holds (Unlocked i) (op o) fun _ => Unlocked i :=
  inert_holds ho unlocked_stable

theorem apply_holds
    (entries : List (Except IoError (Entry T × Option UnsafeHeadStateMachine.Responder))) :
    (logic codec path i).Holds (Unlocked i) (apply codec (some path) entries)
      fun _ => Unlocked i := by
  refine (logic codec path i).bind (inert_free trivial) fun applied => ?_
  cases applied with
  | error err => exact (logic codec path i).done fun _ _ h => h
  | ok responses =>
      refine (logic codec path i).bind persistToDisk_holds fun r => ?_
      cases r with
      | error err => exact (logic codec path i).done fun _ _ h => h
      | ok u =>
          refine (logic codec path i).bind ((logic codec path i).all (fun o ho => inert_free ho)
            (respondAll_all responses fun _ _ _ => trivial)) fun _ => ?_
          exact (logic codec path i).done fun _ _ h => h

theorem installSnapshot_holds (snapshotMeta : SnapshotMeta T) (data : Bytes) :
    (logic codec path i).Holds (Unlocked i)
      (installSnapshot codec (some path) snapshotMeta data) fun _ => Unlocked i := by
  unfold installSnapshot
  split
  · exact (logic codec path i).done fun _ _ h => h
  · refine (logic codec path i).bind (inert_free (by simp [Inert])) fun _ => ?_
    exact (logic codec path i).bind (inert_free (by simp [Inert])) fun _ => persistToDisk_holds

theorem buildSnapshot_holds :
    (logic codec path i).Holds (Unlocked i) (buildSnapshot codec (some path))
      fun _ => Unlocked i := by
  refine (logic codec path i).bind (inert_free (by simp [Inert])) fun sm => ?_
  refine (logic codec path i).bind (inert_free trivial) fun idx => ?_
  refine (logic codec path i).bind (inert_free (by simp [Inert])) fun _ => ?_
  refine (logic codec path i).bind persistToDisk_holds fun r => ?_
  cases r <;> exact (logic codec path i).done fun _ _ h => h

theorem append_holds (entries : List (Entry T)) :
    (logic codec path .log).Holds
      (fun s => Unlocked .log s ∧ Rules s (.append entries))
      (append codec (some path) entries) fun _ => Unlocked .log := by
  have hpre : ∀ s : Sys T Bytes, Unlocked .log s ∧ Rules s (.append entries) →
      Unlocked .log s ∧
        (entries.map fun entry => (entry.logId.index, codec.entry entry)).map Prod.fst =
          List.range' (nextLogIndex (lastPurged s) (currentLog s))
            (entries.map fun entry => (entry.logId.index, codec.entry entry)).length := by
    rintro s ⟨hfree, hrule⟩
    refine ⟨hfree, ?_⟩
    rw [List.map_map, List.length_map]
    exact hrule
  refine (logic codec path .log).bind ((logic codec path .log).pre hpre (append_log _))
    fun _ => ?_
  refine (logic codec path .log).bind persistToDisk_holds fun r => ?_
  cases r with
  | ok u => exact (logic codec path .log).bind (inert_free trivial) fun _ =>
      (logic codec path .log).done fun _ _ h => h
  | error err => exact (logic codec path .log).bind (inert_free trivial) fun _ =>
      (logic codec path .log).done fun _ _ h => h

theorem purge_holds (logId : LogId T) :
    (logic codec path .log).Holds
      (fun s => Unlocked .log s ∧ Rules s (.purge logId))
      (purge codec (some path) logId) fun _ => Unlocked .log := by
  refine (logic codec path .log).bind
    ((logic codec path .log).pre (fun s h => ⟨h.1, h.2.1⟩) (record_purged logId)) fun _ => ?_
  exact (logic codec path .log).bind (remove_purged logId) fun _ => persistToDisk_holds

theorem body_holds (call : StoreCall T Bytes) :
    (logic codec path call.task).Holds (fun s => Unlocked call.task s ∧ Rules s call)
      (body codec (some path) call) fun _ => Unlocked call.task := by
  have hfree : ∀ s : Sys T Bytes, Unlocked call.task s ∧ Rules s call → Unlocked call.task s :=
    fun s h => h.1
  cases call with
  | saveVote vote =>
      refine (logic codec path _).pre hfree (noSnapshot_triple ?_)
      exact (logic codec path _).bind (inert_free (by simp [Inert])) fun _ => persistToDisk_holds
  | saveCommitted committed =>
      refine (logic codec path _).pre hfree (noSnapshot_triple ?_)
      exact (logic codec path _).bind (inert_free (by simp [Inert])) fun _ => persistToDisk_holds
  | append entries => exact noSnapshot_triple (append_holds entries)
  | truncateAfter lastLogId =>
      refine (logic codec path _).pre hfree (noSnapshot_triple ?_)
      exact (logic codec path _).bind (truncate_log _) fun _ => persistToDisk_holds
  | purge logId => exact noSnapshot_triple (purge_holds logId)
  | buildSnapshot =>
      refine (logic codec path _).pre hfree ?_
      exact (logic codec path _).bind buildSnapshot_holds fun r =>
        (logic codec path _).done fun _ _ h => h
  | apply entries => exact (logic codec path _).pre hfree (noSnapshot_triple (apply_holds entries))
  | installSnapshot snapshotMeta data =>
      exact (logic codec path _).pre hfree
        (noSnapshot_triple (installSnapshot_holds snapshotMeta data))

theorem verified (codec : Codec T Bytes) (path : StorePath) :
    (machine codec (some path) watch).Verified policy (outline codec) := by
  refine Machine.verified_of_calls coherent
    (A := fun i call s => call.task = i ∧ Unlocked i s ∧ Rules s call)
    (Q := fun i _ _ => Unlocked i) (fun _ _ _ => unlocked_stable) ?_ ?_ ?_ fun s e => e.elim
  · intro s i call s' hi hidle he hrule
    cases he
    exact ⟨⟨hi, fun j _ => Rely.refl j s⟩, hrule.1, hidle, hrule.2⟩
  · rintro i call s hi ⟨rfl, hs⟩
    exact body_holds call s hi hs
  · exact fun s i call out hi hs => ⟨⟨hi, fun j _ => Rely.refl j s⟩, hs⟩

/-- A store that has just been opened from an image. -/
def initial (codec : Codec T Bytes) (image : PersistedRaftStore T Bytes) : Sys T Bytes :=
  ⟨.opened codec image, .none⟩

end

section
instance (s : Sys .single (Document .single)) (i : StoreTask)
    (call : StoreCall .single (Document .single)) : Decidable (rules.call s i call) :=
  inferInstanceAs (Decidable (_ ∧ _))

instance (s : Sys .single (Document .single)) (i : StoreTask)
    (call : StoreCall .single (Document .single)) : Decidable (policy.call s i call) :=
  inferInstanceAs (Decidable (rules.call s i call))

instance (s : Sys .single (Document .single)) (i : StoreTask)
    (o : StoreOp .single (Document .single)) (x : FileChoice (Document .single)) :
    Decidable (rules.step s i o x) :=
  .isTrue trivial

instance (s : Sys .single (Document .single)) (i : StoreTask)
    (o : StoreOp .single (Document .single)) (x : FileChoice (Document .single)) :
    Decidable (policy.step s i o x) := by
  unfold policy
  dsimp only
  split <;> infer_instance

def entry (index : Nat) : Entry .single := ⟨⟨(), index⟩, .blank⟩

def fresh : Sys .single (Document .single) := initial (Codec.document .single) (.default .single _)

/-- Four entries are appended, and three of them applied and put into a snapshot. -/
def covered : List Trace :=
  [.call .log (.append [entry 0, entry 1, entry 2, entry 3])] ++ run .log 17 ++ [.ret .log] ++
  [.call .sm (.apply [.ok (entry 0, none), .ok (entry 1, none), .ok (entry 2, none)])] ++
  run .sm 16 ++ [.ret .sm] ++
  [.call .snapshot .buildSnapshot] ++ run .snapshot 18 ++ [.ret .snapshot]

/-- The fourth entry is being applied and has read the recorded id when a purge
records its own. The image is written before the purge goes on. -/
def purged : List Trace :=
  covered ++ [.call .sm (.apply [.ok (entry 3, none)])] ++ run .sm 3 ++
  [.call .log (.purge ⟨(), 2⟩)] ++ run .log 1 ++ run .sm 13 ++ [.ret .sm] ++
  run .log 16 ++ [.ret .log]

def received : StoreCall .single (Document .single) :=
  .installSnapshot ⟨some ⟨(), 8⟩, ⟨none, ()⟩, "received"⟩ (.sm ⟨some ⟨(), 8⟩, ⟨none, ()⟩, none⟩)

end
end ConductorRs.MemoryRaftStore.LogImage
