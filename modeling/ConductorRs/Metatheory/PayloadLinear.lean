import ConductorRs.Core.PayloadMachine
import ConductorRs.Metatheory.PayloadFile

/-!
A payload store under concurrent commits and reads.

The lock makes every interleaving a sequence of whole calls, so what the callers
see is decided by what a sequence of calls can do: the latest payload only ever
gives way to one of a higher number, and it is there as soon as its commit is.
-/
namespace ConductorRs
open Concurrency

namespace FilePayloadStore

/-- The payload that a call has shown to be there. -/
def shown : StoreCall → StoreAnswer → Option PayloadEnvelope
  | .commit payload, .committed (.ok ()) => some payload.val
  | .latest, .latest (.ok latest) => latest
  | _, _ => none

section
variable {Tid : Type} {json : JsonText} {path : Path}

def payloads (log : List (Tid × StoreCall × StoreAnswer)) : List PayloadEnvelope :=
  log.filterMap fun entry => shown entry.2.1 entry.2.2

theorem payloads_snoc (log : List (Tid × StoreCall × StoreAnswer)) (i : Tid) (call : StoreCall)
    (answer : StoreAnswer) :
    payloads (log ++ [(i, call, answer)]) = payloads log ++ (shown call answer).toList := by
  simp only [payloads, List.filterMap_append]
  cases h : shown call answer <;> simp [h]

theorem mem_payloads {log : List (Tid × StoreCall × StoreAnswer)} {i : Tid} {call : StoreCall}
    {answer : StoreAnswer} {p : PayloadEnvelope} (h : (i, call, answer) ∈ log)
    (hp : shown call answer = some p) : p ∈ payloads log :=
  List.mem_filterMap.mpr ⟨_, h, hp⟩

theorem answer_of_shown {answer : StoreAnswer} {p : PayloadEnvelope}
    (h : shown .latest answer = some p) : answer = .latest (.ok (some p)) := by
  cases answer with
  | committed result => cases h
  | latest result =>
      cases result with
      | error err => cases h
      | ok latest => rw [show latest = some p from h]

/-- The latest payload gives way to higher ones only. -/
def Advances (latest latest' : Option PayloadEnvelope) : Prop :=
  ∀ p, latest = some p → ∃ q, latest' = some q ∧ (q = p ∨ p.number < q.number)

theorem advances_refl (latest : Option PayloadEnvelope) : Advances latest latest :=
  fun p hp => ⟨p, hp, .inl rfl⟩

theorem Advances.trans {latest latest' latest'' : Option PayloadEnvelope}
    (h : Advances latest latest') (h' : Advances latest' latest'') : Advances latest latest'' := by
  intro p hp
  obtain ⟨q, hq, hle⟩ := h p hp
  obtain ⟨r, hr, hle'⟩ := h' q hq
  refine ⟨r, hr, ?_⟩
  rcases hle with rfl | hlt
  · exact hle'
  · rcases hle' with rfl | hlt'
    · exact .inr hlt
    · exact .inr (hlt.trans hlt')

variable (json path) in
/-- What a sequence of calls leaves behind. -/
structure Consistent (log : List (Tid × StoreCall × StoreAnswer)) (s : LocalState) : Prop where
  kept : Kept json path s (payloads log)
  reads : ∀ i p, (i, StoreCall.latest, StoreAnswer.latest (.ok (some p))) ∈ log →
    Advances (some p) s.latest
  origin : ∀ q, s.latest = some q → ∃ i p, p.val = q ∧
    (i, StoreCall.commit p, StoreAnswer.committed (.ok ())) ∈ log

/-- A commit is whole or has changed nothing, and says which. -/
theorem committed_of_runs (hpath : path ≠ path.withExtension "tmp")
    {payload : PayloadEnvelope} {s t : LocalState} {r : Except StoreError Unit}
    (hrun : Runs LocalState.perform (commit json path payload).run s r t) :
    OrUntouched path s (Committed json path payload s) r t :=
  (commit_holds hpath s (.inl rfl) ⟨rfl, rfl⟩).2 _ t hrun

theorem runs_commit {p : { payload : PayloadEnvelope // payload.Valid }} {s t : LocalState}
    {answer : StoreAnswer}
    (h : Runs LocalState.perform (sections json path (.commit p)).task s answer t) :
    ∃ r, answer = .committed r ∧
      Runs LocalState.perform (commit json path p.val).run s r t := by
  obtain ⟨r, s₁, hrun, hdone⟩ := Runs.of_bind h
  obtain ⟨rfl, rfl⟩ := runs_done.mp hdone
  exact ⟨r, rfl, hrun⟩

theorem runs_latest {s t : LocalState} {answer : StoreAnswer}
    (h : Runs LocalState.perform (sections json path .latest).task s answer t) :
    answer = .latest (.ok s.latest) ∧ t = s := by
  cases h with
  | perform x hp hdone =>
      cases hp
      exact runs_done.mp hdone

theorem Consistent.same {log : List (Tid × StoreCall × StoreAnswer)} {s t : LocalState}
    (h : Consistent json path log s) (hsame : Untouched path s t) :
    Consistent json path log t where
  kept := h.kept.same hsame
  reads i p hp := by
    rw [hsame.1]
    exact h.reads i p hp
  origin q hq := by
    rw [hsame.1] at hq
    exact h.origin q hq

/-- The calls before are as they were, and the new one fits. -/
theorem Consistent.snoc {log : List (Tid × StoreCall × StoreAnswer)} {s : LocalState} {i : Tid}
    {call : StoreCall} {answer : StoreAnswer} (h : Consistent json path log s)
    (hshown : ∀ p, shown call answer = some p →
      p.Valid ∧ ∃ q, s.latest = some q ∧ p.number ≤ q.number)
    (hreads : ∀ p, call = .latest → answer = .latest (.ok (some p)) → s.latest = some p) :
    Consistent json path (log ++ [(i, call, answer)]) s where
  kept := by
    refine ⟨h.kept.stored, fun p hp => ?_⟩
    rw [payloads_snoc, List.mem_append, Option.mem_toList] at hp
    rcases hp with hp | hp
    · exact h.kept.covers p hp
    · exact hshown p hp
  reads j p hp := by
    rcases List.mem_append.mp hp with hp | hp
    · exact h.reads j p hp
    · simp only [List.mem_singleton, Prod.mk.injEq] at hp
      rw [hreads p hp.2.1.symm hp.2.2.symm]
      exact advances_refl _
  origin q hq := by
    obtain ⟨j, p, hp, hmem⟩ := h.origin q hq
    exact ⟨j, p, hp, List.mem_append_left _ hmem⟩

/-- A higher payload takes the place of the latest one. -/
theorem Consistent.replace {log : List (Tid × StoreCall × StoreAnswer)} {s t : LocalState}
    {i : Tid} {p : { payload : PayloadEnvelope // payload.Valid }}
    (h : Consistent json path log s) (hlatest : t.latest = some p.val)
    (hrenamed : Renamed json path p.val s t) :
    Consistent json path (log ++ [(i, .commit p, .committed (.ok ()))]) t where
  kept := by
    rw [payloads_snoc]
    refine ⟨?_, fun q hq => ?_⟩
    · rw [hlatest]
      exact hrenamed.stored
    · rw [hlatest]
      rcases List.mem_append.mp hq with hq | hq
      · exact h.kept.covers.raise hrenamed.lt q hq
      · obtain rfl := Option.some.inj (Option.mem_toList.mp hq)
        exact ⟨p.property, p.val, rfl, le_refl _⟩
  reads j q hq := by
    rcases List.mem_append.mp hq with hq | hq
    · refine (h.reads j q hq).trans fun current hcurrent => ?_
      exact ⟨p.val, hlatest, .inr (hrenamed.lt current hcurrent)⟩
    · simp at hq
  origin q hq := by
    obtain rfl := Option.some.inj (hlatest.symm.trans hq)
    exact ⟨i, p, rfl, List.mem_append_right _ (List.mem_singleton.mpr rfl)⟩

theorem Consistent.call (hpath : path ≠ path.withExtension "tmp")
    {log : List (Tid × StoreCall × StoreAnswer)} {s t : LocalState} {call : StoreCall}
    {answer : StoreAnswer} (h : Consistent json path log s)
    (hrun : Runs LocalState.perform (sections json path call).task s answer t) (i : Tid) :
    Consistent json path (log ++ [(i, call, answer)]) t := by
  cases call with
  | latest =>
      obtain ⟨rfl, rfl⟩ := runs_latest hrun
      refine h.snoc (fun p hp => ?_) fun p _ hp => ?_
      · have hstored := h.kept.stored
        rw [show t.latest = some p from hp] at hstored ⊢
        exact ⟨hstored.1, p, rfl, le_refl _⟩
      · injection hp with hp
        exact Except.ok.inj hp
  | commit p =>
      obtain ⟨r, rfl, hcommit⟩ := runs_commit hrun
      have hdone := committed_of_runs hpath hcommit
      cases r with
      | error err =>
          exact (h.same hdone).snoc (fun p hp => by cases hp) fun p hp => by cases hp
      | ok =>
          obtain ⟨hvalid, ⟨hsame, current, hcurrent, hle⟩ | ⟨hlatest, hrenamed⟩⟩ := hdone
          · refine (h.same hsame).snoc (fun q hq => ?_) fun q hq => by cases hq
            cases hq
            exact ⟨hvalid, current, hsame.1.trans hcurrent, hle⟩
          · exact h.replace hlatest hrenamed

theorem consistent_of_serial (hpath : path ≠ path.withExtension "tmp")
    {log : List (Tid × StoreCall × StoreAnswer)} {s : LocalState}
    (h : Serial (sections json path) LocalState.perform .empty log s) :
    Consistent json path log s := by
  induction h with
  | nil => exact ⟨⟨rfl, nofun⟩, nofun, nofun⟩
  | @snoc _ _ _ i _ _ _ hrun ih => exact ih.call hpath hrun i

/-- Wherever a call is cut, the file holds a payload that covers the others. -/
theorem Consistent.cut (hpath : path ≠ path.withExtension "tmp")
    {log : List (Tid × StoreCall × StoreAnswer)} {s t : LocalState} {call : StoreCall}
    (h : Consistent json path log s)
    (hcut : Cut LocalState.perform (sections json path call).task s t) :
    ∃ latest, Stored json latest (t.files path) ∧ Covers latest (payloads log) := by
  cases call with
  | latest =>
      have hsame : t = s := by
        cases hcut with
        | here => rfl
        | later x hp hrest =>
            cases hp
            cases hrest
            rfl
      rw [hsame]
      exact ⟨s.latest, h.kept.stored, h.kept.covers⟩
  | commit p =>
      have hcommit : Cut LocalState.perform (commit json path p.val).run s t := by
        rcases Cut.of_bind hcut with hcut | ⟨r, s₁, hrun, hrest⟩
        · exact hcut
        · cases hrest
          exact hrun.cut
      rcases (commit_holds hpath s (.inl rfl) ⟨rfl, rfl⟩).1 t hcommit with hfile | hrenamed
      · refine ⟨s.latest, ?_, h.kept.covers⟩
        rw [hfile]
        exact h.kept.stored
      · exact ⟨some p.val, hrenamed.stored, h.kept.covers.raise hrenamed.lt⟩

end

section
variable {Tid : Type} {json : JsonText} {path : Path}

/-- The file holds a payload that covers the others at every moment. -/
theorem stored_of_sound (hpath : path ≠ path.withExtension "tmp")
    {s : GuardState Tid LocalState StoreCall StoreAnswer}
    (h : Guarding.Sound (sections json path) LocalState.perform .empty s) :
    ∃ latest, Stored json latest (s.value.files path) ∧ Covers latest (payloads s.log) := by
  obtain ⟨settled, hserial, hvalue⟩ := h.serial
  have hconsistent := consistent_of_serial hpath hserial
  rw [Guarding.Value] at hvalue
  split at hvalue
  · rw [hvalue]
    exact ⟨settled.latest, hconsistent.kept.stored, hconsistent.kept.covers⟩
  · obtain ⟨call, hcut⟩ := hvalue
    exact hconsistent.cut hpath hcut

/-- A read returns the latest payload of the calls that stand before it. -/
theorem read_of_sound (hpath : path ≠ path.withExtension "tmp")
    {s : GuardState Tid LocalState StoreCall StoreAnswer}
    (h : Guarding.Sound (sections json path) LocalState.perform .empty s)
    {f : Finished Tid StoreCall StoreAnswer} (hf : f ∈ s.finished) (hcall : f.call = .latest) :
    ∃ before, Consistent json path (s.log.take f.placed) before ∧
      f.out = .latest (.ok before.latest) := by
  obtain ⟨-, -, -, hat⟩ := h.finished f hf
  obtain ⟨settled, hserial, -⟩ := h.serial
  obtain ⟨before, after, hbefore, hrun, -⟩ := hserial.split hat
  rw [hcall] at hrun
  exact ⟨before, consistent_of_serial hpath hbefore, (runs_latest hrun).1⟩

/-- A call that returned before another was made stands before it. -/
theorem mem_take_of_sound {s : GuardState Tid LocalState StoreCall StoreAnswer}
    (h : Guarding.Sound (sections json path) LocalState.perform .empty s)
    {f g : Finished Tid StoreCall StoreAnswer} (hf : f ∈ s.finished) (hg : g ∈ s.finished)
    (horder : g.ended ≤ f.began) : (g.tid, g.call, g.out) ∈ s.log.take f.placed := by
  obtain ⟨hbegan, -, -, -⟩ := h.finished f hf
  obtain ⟨-, hended, -, hat⟩ := h.finished g hg
  refine List.mem_of_getElem? (i := g.placed) ?_
  rw [List.getElem?_take_of_lt (by omega)]
  exact hat

end

/-- Concurrent commits and reads of a store, on a disk that may fail at any call,
are calls made one after the other: each takes effect between the moment it is
made and the moment it returns. So a read returns a payload that a commit has put
there, none lower than what was committed or read before the read was made, and
at one height always the same; and the file, at whatever moment it is opened
again, is not behind any call that has returned. -/
theorem payload_store_linearizable {Tid : Type} [DecidableEq Tid] (json : JsonText) (path : Path)
    (hpath : path.extension ≠ some "tmp")
    {c : Config Tid (Guarded LocalOps StoreCall StoreAnswer)
      (GuardState Tid LocalState StoreCall StoreAnswer) StoreCall StoreAnswer}
    (h : (storeMachine json path Tid).Reaches .any (.quiet (.free .empty)) c) :
    Guarding.Sound (sections json path) LocalState.perform .empty c.state ∧
    (∀ f ∈ c.state.finished, f.call = .latest → ∃ latest, f.out = .latest (.ok latest) ∧
      (∀ q, latest = some q → ∃ i p, p.val = q ∧
        (i, .commit p, .committed (.ok ())) ∈ c.state.log.take f.placed) ∧
      ∀ g ∈ c.state.finished, g.ended ≤ f.began → ∀ p, shown g.call g.out = some p →
        ∃ q, latest = some q ∧ p.number ≤ q.number ∧
          (g.call = .latest → q = p ∨ p.number < q.number)) ∧
    (json.Faithful → ∀ u v latest, u.files path = c.state.value.files path →
      Runs LocalState.perform (openStore json path) u (.ok latest) v →
      ∀ g ∈ c.state.finished, ∀ p, shown g.call g.out = some p →
        ∃ q, latest = some q ∧ p.number ≤ q.number) := by
  have hne := Path.ne_withExtension hpath
  have hsound := Guarding.guard_sound h
  refine ⟨hsound, fun f hf hcall => ?_, fun hjson u v latest hfile hopen g hg p hp => ?_⟩
  · obtain ⟨before, hbefore, hout⟩ := read_of_sound hne hsound hf hcall
    refine ⟨before.latest, hout, hbefore.origin, fun g hg horder p hp => ?_⟩
    have hmem := mem_take_of_sound hsound hf hg horder
    obtain ⟨-, q, hq, hle⟩ := hbefore.kept.covers p (mem_payloads hmem hp)
    refine ⟨q, hq, hle, fun hread => ?_⟩
    rw [hread] at hmem hp
    rw [answer_of_shown hp] at hmem
    obtain ⟨q', hq', hhigher⟩ := hbefore.reads g.tid p hmem p rfl
    obtain rfl := Option.some.inj (hq.symm.trans hq')
    exact hhigher
  · obtain ⟨stored, hstored, hcovers⟩ := stored_of_sound hne hsound
    rw [← hfile] at hstored
    obtain ⟨rfl, -⟩ := hstored.open hjson hopen
    obtain ⟨-, -, -, hat⟩ := hsound.finished g hg
    obtain ⟨-, q, hq, hle⟩ := hcovers p (mem_payloads (List.mem_of_getElem? hat) hp)
    exact ⟨q, hq, hle⟩

theorem storedBlock_valid : (storedBlock 7).Valid := ⟨by decide +kernel, by decide +kernel⟩

/-- A read is made while a commit is under way, another after it has returned. -/
def readsAroundCommit : List (Event (Fin 3) StoreCall (FileChoice String) Empty) :=
  [.call 0 (.commit ⟨storedBlock 7, storedBlock_valid⟩)] ++
    List.replicate 6 (.step 0 (.smooth String)) ++ [.call 1 .latest] ++
    List.replicate 7 (.step 0 (.smooth String)) ++
    [.ret 0, .call 2 .latest, .step 2 (.smooth String), .ret 2, .step 1 (.smooth String), .ret 1]

def StoreCall.isLatest : StoreCall → Bool
  | .latest => true
  | .commit _ => false

/-- A read that was made after some other call had returned with a payload. -/
def readAfter {Tid : Type} (finished : List (Finished Tid StoreCall StoreAnswer)) : Bool :=
  finished.any fun f => f.call.isLatest &&
    finished.any fun g => decide (g.ended ≤ f.began) && (shown g.call g.out).isSome

theorem readAfter_iff {Tid : Type} {finished : List (Finished Tid StoreCall StoreAnswer)} :
    readAfter finished = true ↔ ∃ f ∈ finished, f.call = .latest ∧
      ∃ g ∈ finished, g.ended ≤ f.began ∧ ∃ p, shown g.call g.out = some p := by
  have hlatest : ∀ call : StoreCall, call.isLatest = true ↔ call = .latest := by
    intro call
    cases call <;> simp [StoreCall.isLatest]
  simp only [readAfter, List.any_eq_true, Bool.and_eq_true, decide_eq_true_eq,
    Option.isSome_iff_exists, hlatest]

theorem read_after_commit :
    ∃ c, (storeMachine .compact unsafeJson (Fin 3)).Reaches .any (.quiet (.free .empty)) c ∧
      ∃ f ∈ c.state.finished, ∃ g ∈ c.state.finished, ∃ p q,
        f.out = .latest (.ok (some q)) ∧ g.ended ≤ f.began ∧
        shown g.call g.out = some p ∧ p.number ≤ q.number := by
  obtain ⟨c, hreach, hread⟩ := Machine.reaches_of_permitted (π := .any)
    (M := storeMachine .compact unsafeJson (Fin 3)) (c := .quiet (.free .empty))
    (p := fun c => readAfter c.state.finished) readsAroundCommit (by decide +kernel)
  obtain ⟨f, hf, hcall, g, hg, horder, p, hp⟩ := readAfter_iff.mp hread
  obtain ⟨-, hreads, -⟩ := payload_store_linearizable .compact unsafeJson (by decide) hreach
  obtain ⟨latest, hout, -, hlater⟩ := hreads f hf hcall
  obtain ⟨q, rfl, hle, -⟩ := hlater g hg horder p hp
  exact ⟨c, hreach, f, hf, g, hg, p, q, hout, horder, hp, hle⟩

end FilePayloadStore
end ConductorRs
