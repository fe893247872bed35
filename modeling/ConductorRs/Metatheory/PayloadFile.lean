import ConductorRs.Collections.Checks
import ConductorRs.Metatheory.PayloadRegister

/-!
The file of a payload store, over commits that fail and processes that stop.

Every call of `persist` up to the rename leaves the file at the path alone,
provided that the temporary file is another file; the rename is the one step that
replaces it, and nothing after it fails. So a file is the one from before the
commit or the one from after it, wherever the commit is cut, and an error means
that it is the one from before.
-/
namespace ConductorRs
open Concurrency Collections

/-- What is read back from a printed document is the document, in the order it was
printed with; that it is read at all is not assumed. -/
def JsonText.Faithful (json : JsonText) : Prop :=
  ∀ v w, json.parse (json.print v) = .ok w → w = v

theorem JsonText.Lawful.faithful {json : JsonText} (h : json.Lawful) : json.Faithful := by
  intro v w hparse
  rw [h v] at hparse
  cases hparse
  rfl

namespace FilePayloadStore

/-- The histories of one store, with the payloads whose commits have returned
`Ok`. After a crash the file at the path is as it was, and no other file need be;
the next process opens the store again. -/
inductive History (json : JsonText) (path : Path) :
    LocalState → List PayloadEnvelope → Prop where
  | empty : History json path .empty []
  | lead {s : LocalState} {acked : List PayloadEnvelope} (leader : Bool) :
      History json path s acked → History json path { s with leader := leader } acked
  | commit {s t : LocalState} {acked : List PayloadEnvelope} (payload : PayloadEnvelope) :
      History json path s acked →
      Runs LocalState.perform (LocalConsensus.commitUnsafePayload json path payload) s (.ok ()) t →
      History json path t (payload :: acked)
  | fail {s t : LocalState} {acked : List PayloadEnvelope} (payload : PayloadEnvelope)
      (err : ConsensusError) : History json path s acked →
      Runs LocalState.perform (LocalConsensus.commitUnsafePayload json path payload) s
        (.error err) t →
      History json path t acked
  | crash {s t u v : LocalState} {acked : List PayloadEnvelope}
      {latest : Option PayloadEnvelope} (payload : PayloadEnvelope) :
      History json path s acked →
      Cut LocalState.perform (LocalConsensus.commitUnsafePayload json path payload) s t →
      u.files path = t.files path →
      Runs LocalState.perform (openStore json path) u (.ok latest) v →
      History json path (v.reopened latest) acked

end FilePayloadStore

def DiskOp.Touches : DiskOp → Path → Prop
  | .create file, other | .setLen file, other | .write file _, other => other = file
  | .rename source target, other => other = source ∨ other = target
  | .createDirAll _, _ | .openRead _, _ | .syncAll _, _ | .openDirectory _, _
  | .syncDirectory _, _ => False

theorem LocalState.performDisk_frame {s s' : LocalState} {x : FileChoice String} {o : DiskOp}
    {r : Except IoError Unit} (h : s.performDisk x o = some (r, s')) :
    s'.latest = s.latest ∧ ∀ file, ¬o.Touches file → s'.files file = s.files file := by
  cases o with
  | create file | setLen file | write file text =>
      simp only [performDisk] at h
      split at h <;> cases h <;> exact ⟨rfl, fun other hne => s.put_files_of_ne _ hne⟩
  | rename source target =>
      simp only [performDisk] at h
      split at h
      · cases h
        refine ⟨rfl, fun other hne => ?_⟩
        rw [put_files_of_ne _ _ fun h => hne (.inr h), put_files_of_ne _ _ fun h => hne (.inl h)]
      · cases h
      · cases h
        exact ⟨rfl, fun _ _ => rfl⟩
  | createDirAll | openRead | syncAll | openDirectory | syncDirectory =>
      cases h
      exact ⟨rfl, fun _ _ => rfl⟩

/-- A call that can change no file changes nothing. -/
theorem LocalState.performDisk_quiet {s s' : LocalState} {x : FileChoice String} {o : DiskOp}
    {r : Except IoError Unit} (ho : ∀ file, ¬o.Touches file)
    (h : s.performDisk x o = some (r, s')) : s' = s := by
  cases o with
  | create file | setLen file | write file text => exact absurd rfl (ho file)
  | rename source target => exact absurd (.inl rfl) (ho source)
  | createDirAll | openRead | syncAll | openDirectory | syncDirectory =>
      cases h
      rfl

theorem Path.withExtension_eq {path : Path} {extension : String}
    (h : path.extension = some extension) : path.withExtension extension = path := by
  rw [Path.withExtension, ← h]

theorem Path.ne_withExtension {path : Path} {extension : String}
    (h : path.extension ≠ some extension) : path ≠ path.withExtension extension := by
  intro heq
  apply h
  rw [heq]
  rfl

namespace FilePayloadStore
variable {json : JsonText} {path : Path} {payload : PayloadEnvelope} {s₀ : LocalState}

variable (json path payload s₀)

/-- The text that a commit of the payload writes, if it gets that far. -/
def Written (text : String) : Prop :=
  encode json payload = .ok text ∧ payload.Valid ∧
    ∀ current, s₀.latest = some current → current.number < payload.number

def Untouched (s : LocalState) : Prop :=
  s.latest = s₀.latest ∧ s.files path = s₀.files path

/-- The rename has happened. -/
def Renamed (s : LocalState) : Prop :=
  ∃ text, Written json payload s₀ text ∧ s.files path = some text

/-- The file from before the commit or from after it. -/
def OldOrNew (s : LocalState) : Prop :=
  s.files path = s₀.files path ∨ Renamed json path payload s₀ s

def logic : Logic LocalOps LocalState :=
  crashLogic LocalState.perform (OldOrNew json path payload s₀)

/-- An error leaves everything as it was. -/
def OrUntouched (Q : LocalState → Prop) {ε : Type} : Except ε Unit → LocalState → Prop
  | .ok _, s => Q s
  | .error _, s => Untouched path s₀ s

/-- The temporary file holds the text; the file is still the old one. -/
def Ready (text : String) (s : LocalState) : Prop :=
  Untouched path s₀ s ∧ s.files (path.withExtension "tmp") = some text

/-- The latest payload is not lower than the committed one, or is that one now. -/
def Committed (s : LocalState) : Prop :=
  payload.Valid ∧
    ((Untouched path s₀ s ∧ ∃ current, s₀.latest = some current ∧
        payload.number ≤ current.number) ∨
      (s.latest = some payload ∧ Renamed json path payload s₀ s))

variable {json path payload s₀}

theorem disk_holds {A : LocalState → Prop} {Q : Except StoreError Unit → LocalState → Prop}
    {o : DiskOp} (ho : ¬o.Touches path)
    (h : ∀ s x r s', A s → s.performDisk x o = some (r, s') → s'.latest = s.latest →
      s'.files path = s.files path → Q (r.mapError fun err => .io err.message) s') :
    (logic json path payload s₀).Holds A (disk o).run Q := by
  refine (logic json path payload s₀).bind (crashLogic_call fun s x r s' hi hs hp => ?_)
    fun r => (logic json path payload s₀).done fun s _ hQ => hQ
  obtain ⟨hlatest, hfiles⟩ := LocalState.performDisk_frame hp
  have hfile := hfiles path ho
  refine ⟨?_, h s x r s' hs hp hlatest hfile⟩
  rcases hi with hold | ⟨text, htext, hnew⟩
  · exact .inl (hfile.trans hold)
  · exact .inr ⟨text, htext, hfile.trans hnew⟩

theorem disk_untouched {o : DiskOp} (ho : ¬o.Touches path) :
    (logic json path payload s₀).Holds (Untouched path s₀) (disk o).run
      fun _ => Untouched path s₀ :=
  disk_holds ho fun _ _ _ _ hs _ hlatest hfile => ⟨hlatest.trans hs.1, hfile.trans hs.2⟩

theorem disk_quiet {A : LocalState → Prop} {o : DiskOp} (ho : ∀ file, ¬o.Touches file) :
    (logic json path payload s₀).Holds A (disk o).run fun _ => A := by
  refine disk_holds (ho path) fun s x r s' hs hp _ _ => ?_
  rw [LocalState.performDisk_quiet ho hp]
  exact hs

theorem write_holds (hpath : path ≠ path.withExtension "tmp") (text : String) :
    (logic json path payload s₀).Holds (Untouched path s₀)
      (disk (.write (path.withExtension "tmp") text)).run
      (OrUntouched path s₀ (Ready path s₀ text)) := by
  refine disk_holds hpath fun s x r s' hs hp hlatest hfile => ?_
  have hkept : Untouched path s₀ s' := ⟨hlatest.trans hs.1, hfile.trans hs.2⟩
  simp only [LocalState.performDisk] at hp
  split at hp <;> cases hp
  · exact ⟨hkept, s.put_files_self _ _⟩
  · exact hkept

/-- The one step that changes the file. -/
theorem rename_holds {text : String} (htext : Written json payload s₀ text) :
    (logic json path payload s₀).Holds (Ready path s₀ text)
      (disk (.rename (path.withExtension "tmp") path)).run
      (OrUntouched path s₀ (Renamed json path payload s₀)) := by
  refine (logic json path payload s₀).bind (crashLogic_call fun s x r s' hi hs hp => ?_)
    fun r => (logic json path payload s₀).done fun s _ hQ => hQ
  simp only [LocalState.perform, LocalState.performDisk, hs.2] at hp
  split at hp
  · next written _ hwritten =>
      cases hwritten
      cases hp
      have hrenamed : Renamed json path payload s₀
          ((s.put (path.withExtension "tmp") none).put path (some text)) :=
        ⟨text, htext, LocalState.put_files_self _ _ _⟩
      exact ⟨.inr hrenamed, hrenamed⟩
  · cases hp
  · cases hp
    exact ⟨hi, hs.1⟩

theorem writeFile_holds (hpath : path ≠ path.withExtension "tmp") {text : String}
    (htext : Written json payload s₀ text) :
    (logic json path payload s₀).Holds (Untouched path s₀) (writeFile path text).run
      (OrUntouched path s₀ (Renamed json path payload s₀)) := by
  refine (logic json path payload s₀).bindExcept (disk_untouched hpath) (fun _ => ?_)
    fun _ _ _ h => h
  refine (logic json path payload s₀).bindExcept (disk_untouched hpath) (fun _ => ?_)
    fun _ _ _ h => h
  refine (logic json path payload s₀).bindExcept (write_holds hpath text) (fun _ => ?_)
    fun _ _ _ h => h
  refine (logic json path payload s₀).bindExcept (disk_quiet fun _ h => h) (fun _ => ?_)
    fun _ _ _ h => h.1
  refine (logic json path payload s₀).bindExcept (disk_quiet fun _ h => h) (fun _ => ?_)
    fun _ _ _ h => h.1
  exact rename_holds htext

/-- Whatever becomes of the last sync, it changes nothing. -/
theorem syncParent_holds {A : LocalState → Prop} :
    (logic json path payload s₀).Holds A (syncParent path) fun _ => A := by
  have hop : ∀ o : DiskOp, (∀ file, ¬o.Touches file) →
      (logic json path payload s₀).Holds A (op (.disk o)) fun _ => A := by
    intro o ho
    refine crashLogic_call fun s x r s' hi hs hp => ?_
    rw [LocalState.performDisk_quiet ho hp]
    exact ⟨hi, hs⟩
  unfold syncParent
  cases path.parent with
  | none => exact (logic json path payload s₀).done fun _ _ h => h
  | some parent =>
      refine (logic json path payload s₀).bind (hop _ fun _ h => h) fun r => ?_
      cases r with
      | ok a =>
          refine (logic json path payload s₀).bind (hop _ fun _ h => h) fun r => ?_
          exact (logic json path payload s₀).done fun _ _ h => h
      | error err => exact (logic json path payload s₀).done fun _ _ h => h

theorem persist_holds (hpath : path ≠ path.withExtension "tmp") (hvalid : payload.Valid)
    (hlt : ∀ current, s₀.latest = some current → current.number < payload.number) :
    (logic json path payload s₀).Holds (Untouched path s₀) (persist json path payload).run
      (OrUntouched path s₀ (Renamed json path payload s₀)) := by
  have hparent : (logic json path payload s₀).Holds (Untouched path s₀) (createParent path).run
      fun _ => Untouched path s₀ := by
    unfold createParent
    cases path.parent with
    | none => exact (logic json path payload s₀).done fun _ _ h => h
    | some parent => exact disk_quiet fun _ h => h
  refine (logic json path payload s₀).bindExcept hparent (fun _ => ?_) fun _ _ _ h => h
  refine (logic json path payload s₀).bindPure (fun text htext => ?_) fun _ _ _ h => h
  refine (logic json path payload s₀).bindExcept (writeFile_holds hpath ⟨htext, hvalid, hlt⟩)
    (fun _ => ?_) fun _ _ _ h => h
  exact (logic json path payload s₀).lift syncParent_holds fun _ _ h => h

theorem replace_holds (hpath : path ≠ path.withExtension "tmp") (hvalid : payload.Valid)
    (hlt : ∀ current, s₀.latest = some current → current.number < payload.number) :
    (logic json path payload s₀).Holds (Untouched path s₀) (replace json path payload).run
      (OrUntouched path s₀ (Committed json path payload s₀)) := by
  refine (logic json path payload s₀).bindExcept (persist_holds hpath hvalid hlt) (fun _ => ?_)
    fun _ _ _ h => h
  refine (logic json path payload s₀).lift (R := fun _ s => s.latest = some payload ∧
    Renamed json path payload s₀ s) ?_ fun _ _ h => ⟨hvalid, .inr h⟩
  refine crashLogic_call fun s x r s' hi hs hp => ?_
  cases hp
  exact ⟨hi, rfl, hs⟩

theorem parsed_holds {α β : Type} {A : LocalState → Prop} {r : Except TypeError α}
    {f : α → Attempt β} {Q : Except StoreError β → LocalState → Prop}
    (hf : ∀ a, r = .ok a → (logic json path payload s₀).Holds A (f a).run Q)
    (he : ∀ e s, A s → Q (.error e) s) :
    (logic json path payload s₀).Holds A (parsed r >>= f).run Q := by
  refine (logic json path payload s₀).bindPure (fun a ha => hf a ?_) fun e s _ h => he e s h
  cases r with
  | ok b =>
      cases ha
      rfl
  | error e => cases ha

theorem commit_holds (hpath : path ≠ path.withExtension "tmp") :
    (logic json path payload s₀).Holds (Untouched path s₀) (commit json path payload).run
      (OrUntouched path s₀ (Committed json path payload s₀)) := by
  refine parsed_holds (fun newNumber hnumber => ?_) fun _ _ h => h
  refine parsed_holds (fun hash hhash => ?_) fun _ _ h => h
  have hnew := PayloadEnvelope.number_eq hnumber
  have hvalid : payload.Valid := PayloadEnvelope.valid_iff.mpr ⟨hash, by rw [hnew, hnumber], hhash⟩
  have hread : (logic json path payload s₀).Holds (Untouched path s₀) (op .latest)
      fun latest s => s₀.latest = latest ∧ Untouched path s₀ s := by
    refine crashLogic_call fun s x r s' hi hs hp => ?_
    cases hp
    exact ⟨hi, hs.1.symm, hs⟩
  refine (logic json path payload s₀).bindLift hread fun latest => crashLogic_fact fun hlatest => ?_
  cases latest with
  | none =>
      refine replace_holds hpath hvalid fun current hcurrent => ?_
      rw [hlatest] at hcurrent
      cases hcurrent
  | some current =>
      refine parsed_holds (fun currentNumber hold => ?_) fun _ _ h => h
      have hcurrent := PayloadEnvelope.number_eq hold
      split
      · next hle =>
          refine (logic json path payload s₀).done fun s _ hs => ⟨hvalid, .inl ?_⟩
          refine ⟨hs, current, hlatest, ?_⟩
          rw [hnew, hcurrent]
          exact hle
      · next hle =>
          refine replace_holds hpath hvalid fun other hother => ?_
          rw [hlatest] at hother
          cases hother
          rw [hnew, hcurrent]
          exact Nat.lt_of_not_le hle

theorem commitUnsafePayload_holds (hpath : path ≠ path.withExtension "tmp") :
    (logic json path payload s₀).Holds (Untouched path s₀)
      (LocalConsensus.commitUnsafePayload json path payload)
      (OrUntouched path s₀ (Committed json path payload s₀)) := by
  have hread : (logic json path payload s₀).Holds (Untouched path s₀) (op .leader)
      fun _ => Untouched path s₀ := by
    refine crashLogic_call fun s x r s' hi hs hp => ?_
    cases hp
    exact ⟨hi, hs⟩
  refine (logic json path payload s₀).bind hread fun leader => ?_
  cases leader with
  | false => exact (logic json path payload s₀).done fun _ _ h => h
  | true =>
      refine (logic json path payload s₀).bind (commit_holds hpath) fun r => ?_
      refine (logic json path payload s₀).done fun s _ h => ?_
      cases r <;> exact h

variable (json) in
/-- What the file at the path holds for a latest payload. -/
def Stored : Option PayloadEnvelope → Option String → Prop
  | none, file => file = none
  | some payload, file => payload.Valid ∧ ∃ text, encode json payload = .ok text ∧ file = some text

theorem decode_of_encode (hjson : json.Faithful) (hvalid : payload.Valid) {text : String}
    (htext : encode json payload = .ok text) {persisted : PersistedPayload}
    (h : json.parse text >>= PersistedPayload.serde.decode = .ok persisted) :
    persisted = ⟨1, payload⟩ := by
  obtain ⟨v, hencode, hdecode⟩ := encode_of_valid json hvalid
  rw [htext] at hencode
  cases hencode
  obtain ⟨w, hparse, hread⟩ := bind_eq_ok.mp h
  rw [hjson v w hparse, hdecode] at hread
  cases hread
  rfl

/-- A store opens with the payload that its file holds. -/
theorem Stored.open (hjson : json.Faithful) {latest latest' : Option PayloadEnvelope}
    {s s' : LocalState} (h : Stored json latest (s.files path))
    (hrun : Runs LocalState.perform (openStore json path) s (.ok latest') s') :
    latest' = latest ∧ s' = s := by
  obtain ⟨r, s₁, hread, hrest⟩ := hrun.of_bind
  obtain ⟨x, hp⟩ := hread.of_call
  simp only [LocalState.perform, Option.map_eq_some_iff] at hp
  obtain ⟨r', hr, hpair⟩ := hp
  cases hpair
  cases latest with
  | none =>
      rw [LocalState.readFile, show s.files path = none from h] at hr
      cases hr
      cases hrest
      exact ⟨rfl, rfl⟩
  | some payload =>
      obtain ⟨hvalid, text, htext, hfile⟩ := h
      rw [LocalState.readFile, hfile] at hr
      cases hx : x.error with
      | none =>
          rw [hx] at hr
          cases hr
          dsimp only at hrest
          split at hrest
          · next persisted hparse =>
              cases hrest
              rw [decode_of_encode hjson hvalid htext hparse]
              exact ⟨rfl, rfl⟩
          · cases hrest
      | some err =>
          rw [hx] at hr
          dsimp only at hr
          split at hr
          · cases hr
          · next hkind =>
              cases hr
              dsimp only at hrest
              rw [if_neg hkind] at hrest
              cases hrest

/-- The latest payload is a valid one, and none of the others is higher. -/
def Covers (latest : Option PayloadEnvelope) (acked : List PayloadEnvelope) : Prop :=
  ∀ p ∈ acked, p.Valid ∧ ∃ q, latest = some q ∧ p.number ≤ q.number

theorem Covers.raise {latest : Option PayloadEnvelope} {acked : List PayloadEnvelope}
    (h : Covers latest acked) (hlt : ∀ q, latest = some q → q.number < payload.number) :
    Covers (some payload) acked := by
  intro p hp
  obtain ⟨hvalid, q, hq, hle⟩ := h p hp
  exact ⟨hvalid, payload, rfl, hle.trans (hlt q hq).le⟩

theorem Covers.cons {latest : Option PayloadEnvelope} {acked : List PayloadEnvelope}
    (h : Covers latest acked) (hvalid : payload.Valid)
    (hle : ∃ q, latest = some q ∧ payload.number ≤ q.number) :
    Covers latest (payload :: acked) := by
  intro p hp
  rcases List.mem_cons.mp hp with rfl | hp
  · exact ⟨hvalid, hle⟩
  · exact h p hp

variable (json path) in
/-- Between commits. -/
structure Kept (s : LocalState) (acked : List PayloadEnvelope) : Prop where
  stored : Stored json s.latest (s.files path)
  covers : Covers s.latest acked

theorem Kept.same {s t : LocalState} {acked : List PayloadEnvelope} (h : Kept json path s acked)
    (hsame : Untouched path s t) : Kept json path t acked := by
  obtain ⟨hlatest, hfile⟩ := hsame
  refine ⟨?_, ?_⟩
  · rw [hlatest, hfile]
    exact h.stored
  · rw [hlatest]
    exact h.covers

theorem Renamed.stored {s : LocalState} (h : Renamed json path payload s₀ s) :
    Stored json (some payload) (s.files path) := by
  obtain ⟨text, ⟨htext, hvalid, -⟩, hfile⟩ := h
  exact ⟨hvalid, text, htext, hfile⟩

theorem Renamed.lt {s : LocalState} (h : Renamed json path payload s₀ s) :
    ∀ current, s₀.latest = some current → current.number < payload.number := by
  obtain ⟨text, ⟨-, -, hlt⟩, -⟩ := h
  exact hlt

section
variable (hpath : path ≠ path.withExtension "tmp") {s t : LocalState}
  {acked : List PayloadEnvelope}
include hpath

/-- Wherever a commit is cut, the file holds a payload that covers the others. -/
theorem Kept.cut (h : Kept json path s acked)
    (hcut : Cut LocalState.perform (LocalConsensus.commitUnsafePayload json path payload) s t) :
    ∃ latest, Stored json latest (t.files path) ∧ Covers latest acked := by
  have hold := (commitUnsafePayload_holds hpath s (.inl rfl) ⟨rfl, rfl⟩).1 t hcut
  rcases hold with hfile | hrenamed
  · refine ⟨s.latest, ?_, h.covers⟩
    rw [hfile]
    exact h.stored
  · exact ⟨some payload, hrenamed.stored, h.covers.raise hrenamed.lt⟩

theorem Kept.commit (h : Kept json path s acked)
    (hrun : Runs LocalState.perform (LocalConsensus.commitUnsafePayload json path payload) s
      (.ok ()) t) : Kept json path t (payload :: acked) := by
  have hdone := (commitUnsafePayload_holds hpath s (.inl rfl) ⟨rfl, rfl⟩).2 _ t hrun
  obtain ⟨hvalid, ⟨hsame, current, hcurrent, hle⟩ | ⟨hlatest, hrenamed⟩⟩ := hdone
  · have hkept := h.same hsame
    exact ⟨hkept.stored, hkept.covers.cons hvalid ⟨current, hsame.1.trans hcurrent, hle⟩⟩
  · refine ⟨?_, ?_⟩
    · rw [hlatest]
      exact hrenamed.stored
    · rw [hlatest]
      exact (h.covers.raise hrenamed.lt).cons hvalid ⟨payload, rfl, le_refl _⟩

theorem untouched_of_error {err : ConsensusError}
    (hrun : Runs LocalState.perform (LocalConsensus.commitUnsafePayload json path payload) s
      (.error err) t) : Untouched path s t :=
  (commitUnsafePayload_holds hpath s (.inl rfl) ⟨rfl, rfl⟩).2 _ t hrun

theorem History.kept (hjson : json.Faithful) (h : History json path s acked) :
    Kept json path s acked := by
  induction h with
  | empty => exact ⟨rfl, fun p hp => by cases hp⟩
  | lead leader _ ih => exact ⟨ih.stored, ih.covers⟩
  | commit payload _ hrun ih => exact ih.commit hpath hrun
  | fail payload err _ hrun ih => exact ih.same (untouched_of_error hpath hrun)
  | crash payload _ hcut hfile hopen ih =>
      obtain ⟨latest, hstored, hcovers⟩ := ih.cut hpath hcut
      rw [← hfile] at hstored
      obtain ⟨rfl, rfl⟩ := hstored.open hjson hopen
      exact ⟨hstored, hcovers⟩

end

end FilePayloadStore

namespace FilePayloadStore

theorem runs_of_smooth {α : Type} {t : Task LocalOps α} {s s' : LocalState} {a : α}
    (h : execute LocalState.performSmooth () t s = some (a, s')) :
    Runs LocalState.perform t s a s' := by
  have hrun := runs_of_execute_eq h
  clear h
  induction hrun with
  | done a s => exact .done a s
  | perform x hp _ ih => exact .perform (.smooth String) hp ih

/-- `set_len` fails on the file that `create` has just emptied. -/
theorem runs_persist_error (json : JsonText) (path : Path) {payload : PayloadEnvelope}
    (hvalid : payload.Valid) (err : IoError) (s : LocalState) :
    Runs LocalState.perform (persist json path payload).run s (.error (.io err.message))
      (s.put (path.withExtension "tmp") (some "")) := by
  obtain ⟨v, htext, -⟩ := encode_of_valid json hvalid
  refine .bindExcept (runs_of_smooth (execute_createParent path s)) ?_
  refine .bindExcept (runs_of_smooth (execute_check htext s)) ?_
  refine .stop ?_
  refine .bindExcept (runs_of_smooth (execute_disk _ rfl)) ?_
  refine .stop ?_
  refine .perform ⟨some err, some ""⟩ rfl ?_
  rw [LocalState.put_put]
  exact .done _ _

theorem runs_commit_error (json : JsonText) (path : Path) {payload current : PayloadEnvelope}
    (hvalid : payload.Valid) (err : IoError) (s : LocalState) (hleader : s.leader = true)
    (hcurrent : s.latest = some current) (hold : current.Valid)
    (hlt : current.number < payload.number) :
    Runs LocalState.perform (LocalConsensus.commitUnsafePayload json path payload) s
      (.error (.store (.io err.message))) (s.put (path.withExtension "tmp") (some "")) := by
  obtain ⟨hash, hnumber, hhash⟩ := PayloadEnvelope.valid_iff.mp hvalid
  obtain ⟨-, hbefore, -⟩ := PayloadEnvelope.valid_iff.mp hold
  have hread : execute LocalState.performSmooth () (op .latest) s = some (some current, s) := by
    rw [← hcurrent]
    rfl
  have hcommit : Runs LocalState.perform (commit json path payload).run s
      (.error (.io err.message)) (s.put (path.withExtension "tmp") (some "")) := by
    refine .bindExcept (runs_of_smooth (execute_parsed hnumber s)) ?_
    refine .bindExcept (runs_of_smooth (execute_parsed hhash s)) ?_
    refine .bindExcept (runs_of_smooth (execute_lift hread)) ?_
    refine .bindExcept (runs_of_smooth (execute_parsed hbefore s)) ?_
    rw [if_neg (Nat.not_le.mpr hlt)]
    exact .stop (runs_persist_error json path hvalid err s)
  refine .perform (.smooth String) rfl ?_
  rw [hleader]
  exact hcommit.bind (.done _ _)

theorem history_first (json : JsonText) (path : Path) {payload : PayloadEnvelope}
    (hvalid : payload.Valid) :
    ∃ s v, History json path s [payload] ∧ s.leader = true ∧ s.latest = some payload ∧
      s.files path = some (json.print v) := by
  obtain ⟨v, htext, -⟩ := encode_of_valid json hvalid
  have hcommit := execute_commit_of_lt json path hvalid .empty validLatest_none
    (fun current hcurrent => by cases hcurrent)
  have hrun := LocalConsensus.execute_leader json path payload .empty rfl
  rw [hcommit, execute_replace json path htext] at hrun
  exact ⟨_, v, .commit payload .empty (runs_of_smooth hrun), rfl, rfl,
    LocalState.put_files_self _ _ _⟩

/-- The commits of the payloads of a log have one outcome, and it is that of the log
on a raft node. -/
theorem commits_of_log (json : JsonText) (path : Path) {T : TypeConfig}
    (entries : List (Entry T)) : ∃ results s,
      (∀ r t, RunsEach LocalState.performSmooth (LocalConsensus.commitUnsafePayload json path)
        (entries.filterMap Entry.payload?) .empty r t ↔ r = results ∧ t = s) ∧
      List.Forall₂ (fun payload r => r.isOk ↔ payload.Valid)
        (entries.filterMap Entry.payload?) results ∧
      s.latest = ((UnsafeHeadStateMachine.default T).applyAll entries).latestUnsafePayload ∧
      FirstMax PayloadEnvelope.number
        ((entries.filterMap Entry.payload?).filter fun payload => payload.Valid) s.latest := by
  obtain ⟨results, s, hrun, hoks, hlatest⟩ := LocalConsensus.execute_each json path
    (entries.filterMap Entry.payload?) .empty rfl validLatest_none
  refine ⟨results, s, fun r t => ?_, hoks, ?_, ?_⟩
  · rw [← runs_each_iff, runs_iff_execute (), hrun]
    simp [eq_comm]
  · rw [hlatest]
    exact (UnsafeHeadStateMachine.applyAll_register (.default T) validLatest_none entries).symm
  · rw [hlatest]
    exact foldl_register_firstMax _

/-- The temporary file of a `.tmp` path is the file of the store, so a commit that
fails after `create` has erased it. -/
theorem tmp_path_erased (json : JsonText) (path : Path) (hpath : path.extension = some "tmp")
    {first second : PayloadEnvelope} (hfirst : first.Valid) (hsecond : second.Valid)
    (hlt : first.number < second.number) :
    ∃ s t err v, History json path s [first] ∧
      Runs LocalState.perform (LocalConsensus.commitUnsafePayload json path second) s
        (.error err) t ∧
      s.files path = some (json.print v) ∧ t.files path = some "" := by
  obtain ⟨s, v, hhistory, hleader, hlatest, hfile⟩ := history_first json path hfirst
  have hrun := runs_commit_error json path hsecond ⟨.other, "disk full"⟩ s hleader hlatest hfirst
    hlt
  rw [Path.withExtension_eq hpath] at hrun
  exact ⟨s, _, _, v, hhistory, hrun, hfile, LocalState.put_files_self _ _ _⟩

end FilePayloadStore

open FilePayloadStore in
/-- A file store and a raft node hold the same payload after the same commits, in
any log that carries them: the first of the highest valid ones. Both reject what
does not parse. Unless the file is its own temporary file, a failed commit leaves
the latest payload and the file as they were, and a store that is opened again is
never behind a commit that returned. At every `.tmp` path a commit can fail with
the file of the one before it erased. -/
theorem unsafe_head_register (json : JsonText) (hjson : json.Faithful) (path : Path) :
    (∀ (T : TypeConfig) (entries : List (Entry T)), ∃ results s,
      (∀ r t, RunsEach LocalState.performSmooth (LocalConsensus.commitUnsafePayload json path)
        (entries.filterMap Entry.payload?) .empty r t ↔ r = results ∧ t = s) ∧
      List.Forall₂ (fun payload r => r.isOk ↔ payload.Valid)
        (entries.filterMap Entry.payload?) results ∧
      s.latest = ((UnsafeHeadStateMachine.default T).applyAll entries).latestUnsafePayload ∧
      FirstMax PayloadEnvelope.number
        ((entries.filterMap Entry.payload?).filter fun payload => payload.Valid) s.latest) ∧
    (∀ (T : TypeConfig) (sm : UnsafeHeadStateMachine T) (entry : Entry T)
        (payload : PayloadEnvelope), entry.payload? = some payload →
      ((sm.applyEntry entry).1.isOk ↔ payload.Valid) ∧
      (RaftConsensus.Accepts payload ↔ payload.Valid)) ∧
    (path.extension ≠ some "tmp" → ∀ s payload err t,
      Runs LocalState.perform (LocalConsensus.commitUnsafePayload json path payload) s
        (.error err) t →
      t.latest = s.latest ∧ t.files path = s.files path) ∧
    (path.extension ≠ some "tmp" → ∀ s acked, History json path s acked →
      ∀ payload t u v latest,
      Cut LocalState.perform (LocalConsensus.commitUnsafePayload json path payload) s t →
      u.files path = t.files path →
      Runs LocalState.perform (openStore json path) u (.ok latest) v →
      ∀ p ∈ acked, ∃ q m n, latest = some q ∧ p.blockNumber = .ok m ∧ q.blockNumber = .ok n ∧
        m ≤ n) ∧
    (path.extension = some "tmp" → ∀ first second : PayloadEnvelope, first.Valid → second.Valid →
      first.number < second.number → ∃ s t err v, History json path s [first] ∧
        Runs LocalState.perform (LocalConsensus.commitUnsafePayload json path second) s
          (.error err) t ∧
        s.files path = some (json.print v) ∧ t.files path = some "") := by
  refine ⟨fun T entries => commits_of_log json path entries,
    fun T sm entry payload hpayload => ?_, fun hpath s payload err t hrun => ?_,
    fun hpath s acked hhistory payload t u v latest hcut hfile hopen p hp => ?_,
    fun hpath first second => tmp_path_erased json path hpath⟩
  · exact ⟨(sm.applyEntry_isOk entry).trans (Entry.valid_iff hpayload),
      RaftConsensus.accepts_iff_valid payload⟩
  · exact untouched_of_error (Path.ne_withExtension hpath) hrun
  · have hne := Path.ne_withExtension hpath
    obtain ⟨latest', hstored, hcovers⟩ := (hhistory.kept hne hjson).cut hne hcut
    rw [← hfile] at hstored
    obtain ⟨rfl, rfl⟩ := hstored.open hjson hopen
    obtain ⟨hvalid, q, rfl, hle⟩ := hcovers p hp
    obtain ⟨-, hm, -⟩ := PayloadEnvelope.valid_iff.mp hvalid
    obtain ⟨-, hn, -⟩ := PayloadEnvelope.valid_iff.mp hstored.1
    exact ⟨q, p.number, q.number, rfl, hm, hn, hle⟩

def storedBlock (number : Nat) : PayloadEnvelope := .ofBlock ⟨.zero, number⟩

def unsafeJson : Path := ⟨some "data", "unsafe", some "json"⟩

def unsafeTmp : Path := ⟨some "data", "unsafe", some "tmp"⟩

/-- One commit, and a crash during any other; at a `.tmp` path, one commit and a
second that fails. -/
theorem unsafe_head_register_of_block :
    (∃ s, FilePayloadStore.History .compact unsafeJson s [storedBlock 7] ∧
      ∀ payload t u v latest,
        Cut LocalState.perform (LocalConsensus.commitUnsafePayload .compact unsafeJson payload)
          s t →
        u.files unsafeJson = t.files unsafeJson →
        Runs LocalState.perform (FilePayloadStore.openStore .compact unsafeJson) u (.ok latest) v →
        ∀ p ∈ [storedBlock 7], ∃ q m n, latest = some q ∧ p.blockNumber = .ok m ∧
          q.blockNumber = .ok n ∧ m ≤ n) ∧
    ∃ s t err v, FilePayloadStore.History .compact unsafeTmp s [storedBlock 7] ∧
      Runs LocalState.perform
        (LocalConsensus.commitUnsafePayload .compact unsafeTmp (storedBlock 8)) s (.error err) t ∧
      s.files unsafeTmp = some (JsonText.compact.print v) ∧ t.files unsafeTmp = some "" := by
  have hvalid : (storedBlock 7).Valid := ⟨by decide +kernel, by decide +kernel⟩
  have hnext : (storedBlock 8).Valid := ⟨by decide +kernel, by decide +kernel⟩
  obtain ⟨s, v, hhistory, -⟩ := FilePayloadStore.history_first .compact unsafeJson hvalid
  have hregister := unsafe_head_register .compact JsonText.compact_lawful.faithful
  exact ⟨⟨s, hhistory, (hregister unsafeJson).2.2.2.1 (by decide) s [storedBlock 7] hhistory⟩,
    (hregister unsafeTmp).2.2.2.2 rfl _ _ hvalid hnext (by decide +kernel)⟩

/-- A second commit fails, and the block of the first is no longer in the file. -/
theorem failed_commit_empties_file :
    ∃ s t err, FilePayloadStore.History .compact unsafeTmp s [storedBlock 1] ∧
      Runs LocalState.perform
        (LocalConsensus.commitUnsafePayload .compact unsafeTmp (storedBlock 2)) s (.error err) t ∧
      s.files unsafeTmp ≠ some "" ∧ t.files unsafeTmp = some "" := by
  have hfirst : (storedBlock 1).Valid := ⟨by decide +kernel, by decide +kernel⟩
  have hsecond : (storedBlock 2).Valid := ⟨by decide +kernel, by decide +kernel⟩
  obtain ⟨s, t, err, v, hhistory, hrun, hfile, herased⟩ :=
    FilePayloadStore.tmp_path_erased .compact unsafeTmp rfl hfirst hsecond (by decide +kernel)
  refine ⟨s, t, err, hhistory, hrun, ?_, herased⟩
  rw [hfile]
  intro hempty
  obtain ⟨c, cs, htext, -⟩ := render_head v
  have hnil : v.render.toList = [] := congrArg String.toList (Option.some.inj hempty)
  cases htext.symm.trans hnil

end ConductorRs
