import ConductorRs.Metatheory.ReplicaSteps

/-!
Replicas of one committed log agree.

A call that succeeds moves its node to a longer prefix or leaves it where it is,
and a restart does not move it back. The state machine of every node is the one
of its prefix, whichever way it got there.
-/
namespace ConductorRs.Replica
open Concurrency MemoryRaftStore Collections

section
variable {T : TypeConfig} {Bytes : Type} {log : CommittedLog T} {codec : Codec T Bytes}
variable {path : StorePath} {k : Nat}

/-- After a call that began with prefix `k`. -/
def Outcome (log : CommittedLog T) (codec : Codec T Bytes) (k : Nat) :
    StoreOut T Bytes → StoreState T Bytes Unit → Prop
  | .ok snapshot, s => (∃ k', k ≤ k' ∧ Settled log codec k' s) ∧
      ∀ snapshot', snapshot = some snapshot' → Sourced log codec snapshot'
  | .error _, _ => True

theorem noSnapshot_holds {k' : Nat} (hle : k ≤ k')
    {t : Task (StoreOps T Bytes) (Except IoError Unit)} {A : StoreState T Bytes Unit → Prop}
    (h : (logic log codec k).Holds A t
      (Persisted (Free log codec k') (Settled log codec k'))) :
    (logic log codec k).Holds A (noSnapshot t) (Outcome log codec k) := by
  refine (logic log codec k).bind h fun r => (logic log codec k).done fun s _ hs => ?_
  cases r with
  | ok u => exact ⟨⟨k', hle, hs⟩, fun _ h => by cases h⟩
  | error err => trivial

theorem write_persist {o : StoreOp T Bytes} {field : StoreField} (ho : o.target = some field)
    (hsm : field ≠ .sm) (hsnapshot : field ≠ .currentSnapshot) :
    (logic log codec k).Holds (Free log codec k)
      ((op o).bind fun _ => persistToDisk codec (some path))
      (Persisted (Free log codec k) (Settled log codec k)) :=
  (logic log codec k).bind (write_other (Nat.le_refl k) ho hsm hsnapshot) fun _ =>
    persistToDisk_holds path (Nat.le_refl k)

theorem append_holds (entries : List (Entry T)) :
    (logic log codec k).Holds (Free log codec k) (append codec (some path) entries)
      (Persisted (Free log codec k) (Settled log codec k)) := by
  refine append_persisted (write_other (Nat.le_refl _) rfl (by decide) (by decide))
    (persistToDisk_holds path (Nat.le_refl k)) (crashLogic_skip fun s x r s' hp => ?_)
    fun err => crashLogic_skip fun s x r s' hp => ?_
  · cases hp
    rfl
  · cases hp
    rfl

/-- However the stream ends, the memory has moved along the log. -/
theorem apply_holds
    (items : List (Except IoError (Entry T × Option UnsafeHeadStateMachine.Responder)))
    (hnext : UnsafeHeadStateMachine.streamEntries items <+: log.entries.drop k) :
    (logic log codec k).Holds (Free log codec k) (noSnapshot (apply codec (some path) items))
      (Outcome log codec k) := by
  obtain ⟨entries, hpre, hstate⟩ := (log.state k).applyStream_state items
  have happlied : (log.state k).applyAll entries = log.state (k + entries.length) :=
    log.state_apply (hpre.trans hnext)
  have hlength := (hpre.trans hnext).length_le
  rw [List.length_drop] at hlength
  have hadvance : (logic log codec k).Holds (Free log codec k) (op (.applySm items))
      fun _ => Free log codec (k + entries.length) := by
    refine move_holds (Nat.le_add_right _ _) fun s x r s' hs hp => ?_
    cases hp
    refine ⟨rfl, rfl, ?_, ?_, ?_⟩
    · have := hs.1.bound
      omega
    · rw [StoreState.set_same, hs.1.sm, hstate, happlied]
    · rw [StoreState.set_of_ne _ _ (by decide)]
      exact hs.1.snapshot
  refine noSnapshot_holds (Nat.le_add_right k entries.length) ?_
  refine apply_persisted hadvance (persistToDisk_holds path (Nat.le_add_right _ _))
    fun responder response => crashLogic_skip fun s x r s' hp => ?_
  cases hp
  rfl

theorem buildSnapshot_holds :
    (logic log codec k).Holds (Free log codec k) (body codec (some path) .buildSnapshot)
      (Outcome log codec k) := by
  have hread : (logic log codec k).Holds (Free log codec k) (op (.read .sm)) fun sm s =>
      (sm = log.state k ∧ k ≤ log.entries.length) ∧ Free log codec k s :=
    (logic log codec k).post (read_holds .sm) fun sm s h =>
      ⟨⟨h.2.trans h.1.1.sm, h.1.1.bound⟩, h.1⟩
  have hbuild : (logic log codec k).Holds (Free log codec k) (buildSnapshot codec (some path))
      fun r => Outcome log codec k (r.map some) := by
    refine (logic log codec k).bind hread fun sm => crashLogic_fact ?_
    rintro ⟨rfl, hbound⟩
    refine (logic log codec k).bind (write_other (Nat.le_refl _) rfl (by decide)
      (by decide)) fun idx => ?_
    have hsourced : Sourced log codec
        ⟨⟨(log.state k).lastAppliedLog, (log.state k).lastMembership,
          snapshotId (log.state k).lastAppliedLog idx⟩, codec.sm (log.state k)⟩ :=
      ⟨k, hbound, rfl, rfl⟩
    refine (logic log codec k).bind (write_snapshot (Nat.le_refl k) hsourced) fun _ => ?_
    refine (logic log codec k).bind (persistToDisk_holds path (Nat.le_refl k)) fun r => ?_
    cases r with
    | error err => exact (logic log codec k).done fun _ _ _ => trivial
    | ok u =>
        refine (logic log codec k).done fun s _ h => ⟨⟨k, Nat.le_refl k, h⟩, ?_⟩
        intro snapshot hsnapshot
        cases hsnapshot
        exact hsourced
  refine (logic log codec k).bind hbuild fun r => ?_
  exact (logic log codec k).done fun _ _ h => h

theorem installSnapshot_holds (hc : codec.Lawful) (snapshotMeta : SnapshotMeta T) (data : Bytes)
    (hsourced : Sourced log codec ⟨snapshotMeta, data⟩)
    (hnewer : k ≤ LogId.nextIndex T snapshotMeta.lastLogId) :
    (logic log codec k).Holds (Free log codec k)
      (noSnapshot (installSnapshot codec (some path) snapshotMeta data))
      (Outcome log codec k) := by
  obtain ⟨j, hj, hdata, hlast⟩ := hsourced
  have hle : k ≤ j := by
    rwa [show snapshotMeta.lastLogId = (log.state j).lastAppliedLog from hlast,
      log.state_nextIndex hj] at hnewer
  have hdecode : codec.decodeSm data = .ok (log.state j) := by
    rw [show data = codec.sm (log.state j) from hdata]
    exact hc.sm _
  have hreplace : (logic log codec k).Holds (Free log codec k) (op (.write .sm (log.state j)))
      fun _ => Free log codec j := by
    refine move_holds hle fun s x r s' hs hp => ?_
    cases hp
    refine ⟨rfl, rfl, hj, s.set_same _ _, ?_⟩
    rw [StoreState.set_of_ne _ _ (by decide)]
    exact hs.1.snapshot
  refine noSnapshot_holds hle ?_
  simp only [installSnapshot, hdecode]
  refine (logic log codec k).bind hreplace fun _ => ?_
  refine (logic log codec k).bind (write_snapshot hle ⟨j, hj, hdata, hlast⟩) fun _ => ?_
  exact persistToDisk_holds path hle

variable {Node : Type}

/-- Node `n` is settled at prefix `k n`, and every snapshot on its way is sourced. -/
structure At (log : CommittedLog T) (codec : Codec T Bytes) (k : Node → Nat)
    (c : Cluster T Bytes Node) : Prop where
  node : ∀ n, Settled log codec (k n) (c.nodes n)
  built : ∀ snapshot ∈ c.built, Sourced log codec snapshot

theorem At.sm {k : Node → Nat} {c : Cluster T Bytes Node} (h : At log codec k c) (n : Node) :
    c.sm n = log.state (k n) := (h.node n).1.1.sm

theorem At.nextIndex {k : Node → Nat} {c : Cluster T Bytes Node} (h : At log codec k c)
    (n : Node) : LogId.nextIndex T (c.sm n).lastAppliedLog = k n := by
  rw [h.sm n, log.state_nextIndex (h.node n).1.1.bound]

theorem body_holds (hc : codec.Lawful) {k : Node → Nat} {c : Cluster T Bytes Node}
    (h : At log codec k c) (n : Node) (call : StoreCall T Bytes) (hrule : c.Rules log n call) :
    (logic log codec (k n)).Holds (Free log codec (k n)) (body codec (some path) call)
      (Outcome log codec (k n)) := by
  cases call with
  | saveVote vote =>
      exact noSnapshot_holds (Nat.le_refl _) (write_persist rfl (by decide) (by decide))
  | saveCommitted committed =>
      exact noSnapshot_holds (Nat.le_refl _) (write_persist rfl (by decide) (by decide))
  | append entries => exact noSnapshot_holds (Nat.le_refl _) (append_holds entries)
  | truncateAfter lastLogId =>
      exact noSnapshot_holds (Nat.le_refl _) (write_persist rfl (by decide) (by decide))
  | purge logId =>
      refine noSnapshot_holds (Nat.le_refl _) ?_
      exact (logic log codec (k n)).bind (write_other (Nat.le_refl _) rfl (by decide)
        (by decide)) fun _ => write_persist rfl (by decide) (by decide)
  | buildSnapshot => exact buildSnapshot_holds
  | apply items =>
      refine apply_holds items ?_
      rw [← h.nextIndex n]
      exact hrule
  | installSnapshot snapshotMeta data =>
      refine installSnapshot_holds hc snapshotMeta data (h.built _ hrule.1) ?_
      rw [← h.nextIndex n]
      exact hrule.2

variable [DecidableEq Node]

theorem At.setNode {k : Node → Nat} {c : Cluster T Bytes Node} (h : At log codec k c) {n : Node}
    {j : Nat} {s : StoreState T Bytes Unit} (hs : Settled log codec j s) :
    At log codec (Function.update k n j) (c.setNode n s) := by
  refine ⟨fun m => ?_, h.built⟩
  by_cases hm : m = n
  · subst hm
    simpa [Cluster.setNode] using hs
  · simpa [Cluster.setNode, hm] using h.node m

theorem le_update {k : Node → Nat} {n : Node} {j : Nat} (h : k n ≤ j) (m : Node) :
    k m ≤ Function.update k n j m := by
  by_cases hm : m = n
  · subst hm
    simpa using h
  · simp [hm]

theorem At.step (hc : codec.Lawful) {k : Node → Nat} {c c' : Cluster T Bytes Node}
    (h : At log codec k c) (hs : Cluster.Step log codec path c c') :
    ∃ k', (∀ n, k n ≤ k' n) ∧ At log codec k' c' := by
  have hbegin : ∀ n, Recoverable log codec (k n) (c.nodes n) := fun n =>
    ⟨⟨k n, Nat.le_refl _, (h.node n).1.1⟩,
      k n, Nat.le_refl _, (h.node n).1.1.bound, (h.node n).2⟩
  cases hs with
  | finish n call out s hrule hrun =>
      obtain ⟨⟨j, hle, hsettled⟩, hout⟩ :=
        (body_holds hc h n call hrule (c.nodes n) (hbegin n) (h.node n).1).2 _ _ hrun
      refine ⟨_, le_update hle, (h.setNode hsettled).node, fun snapshot hmem => ?_⟩
      rcases List.mem_append.mp hmem with hnew | hold
      · cases call with
        | buildSnapshot =>
            cases out with
            | none => cases hnew
            | some built =>
                rw [List.mem_singleton.mp hnew]
                exact hout built rfl
        | _ => cases hnew
      · exact h.built snapshot hold
  | restart n call s image hrule hcut hload =>
      obtain ⟨j, hle, hbound, image', hencoded, hat⟩ :=
        (body_holds hc h n call hrule (c.nodes n) (hbegin n) (h.node n).1).1 _ hcut |>.file
      rw [hencoded, load_store hc, Except.ok.injEq] at hload
      subst hload
      refine ⟨_, le_update hle, h.setNode ⟨⟨⟨hbound, hat.sm, hat.snapshot⟩, rfl⟩, ?_⟩⟩
      exact ⟨image', rfl, hat⟩

theorem At.steps (hc : codec.Lawful) {k : Node → Nat} {c c' : Cluster T Bytes Node}
    (h : At log codec k c) (hs : Cluster.Steps log codec path c c') :
    ∃ k', (∀ n, k n ≤ k' n) ∧ At log codec k' c' := by
  induction hs with
  | refl => exact ⟨k, fun _ => Nat.le_refl _, h⟩
  | tail _ hstep ih =>
      obtain ⟨k', hle, hat⟩ := ih
      obtain ⟨k'', hle', hat'⟩ := hat.step hc hstep
      exact ⟨k'', fun n => (hle n).trans (hle' n), hat'⟩

omit [DecidableEq Node] in
theorem At.visits (hc : codec.Lawful) {k : Node → Nat} {c : Cluster T Bytes Node}
    (h : At log codec k c) {n : Node} {s : StoreState T Bytes Unit}
    (hv : c.Visits log codec path n s) :
    ∃ j, k n ≤ j ∧ j ≤ log.entries.length ∧ s.fields .sm = log.state j := by
  obtain ⟨call, hrule, hcut⟩ := hv
  have hbegin : Recoverable log codec (k n) (c.nodes n) :=
    ⟨⟨k n, Nat.le_refl _, (h.node n).1.1⟩,
      k n, Nat.le_refl _, (h.node n).1.1.bound, (h.node n).2⟩
  obtain ⟨j, hle, hat⟩ :=
    ((body_holds hc h n call hrule (c.nodes n) hbegin (h.node n).1).1 s hcut).memory
  exact ⟨j, hle, hat.bound, hat.sm⟩

omit [DecidableEq Node] in
theorem fresh_at (log : CommittedLog T) (codec : Codec T Bytes) :
    At log codec (fun _ => 0) (Cluster.fresh codec : Cluster T Bytes Node) := by
  have hstate : (UnsafeHeadStateMachine.default T) = log.state 0 := by
    simp [CommittedLog.state, UnsafeHeadStateMachine.applyAll]
  refine ⟨fun n => ⟨⟨⟨Nat.zero_le _, hstate, fun _ h => by cases h⟩, rfl⟩, ?_⟩,
    fun _ h => by cases h⟩
  exact ⟨.default T Bytes, rfl, hstate, fun _ h => by cases h⟩

/-- At any moment of any two runs, two nodes with the same last applied log id
have the same state machine; its latest payload is the first of the highest ones
applied; and a node never falls back behind a payload it had between two calls. -/
theorem replicas_agree (log : CommittedLog T) (codec : Codec T Bytes) (hc : codec.Lawful)
    (path : StorePath) (c d e : Cluster T Bytes Node)
    (hr : Cluster.Steps log codec path (Cluster.fresh codec) c)
    (hd : Cluster.Steps log codec path (Cluster.fresh codec) d)
    (he : Cluster.Steps log codec path c e) :
    (∀ m n s t, c.Visits log codec path m s → d.Visits log codec path n t →
      (s.fields .sm).lastAppliedLog = (t.fields .sm).lastAppliedLog →
      s.fields .sm = t.fields .sm) ∧
    (∀ n s, c.Visits log codec path n s →
      FirstMax PayloadEnvelope.number
        (log.payloads (LogId.nextIndex T (s.fields .sm).lastAppliedLog))
        (s.fields .sm).latestUnsafePayload) ∧
    (∀ n s payload, e.Visits log codec path n s →
      (c.sm n).latestUnsafePayload = some payload →
      ∃ payload', (s.fields .sm).latestUnsafePayload = some payload' ∧
        payload.number ≤ payload'.number) := by
  obtain ⟨k, -, hk⟩ := (fresh_at log codec).steps hc hr
  obtain ⟨kd, -, hkd⟩ := (fresh_at log codec).steps hc hd
  obtain ⟨ke, hle, hke⟩ := hk.steps hc he
  refine ⟨?_, ?_, ?_⟩
  · intro m n s t hs ht hsame
    obtain ⟨i, -, hi, hsm⟩ := hk.visits hc hs
    obtain ⟨j, -, hj, hsm'⟩ := hkd.visits hc ht
    rw [hsm, hsm'] at hsame ⊢
    have hindex := congrArg (LogId.nextIndex T) hsame
    rw [log.state_nextIndex hi, log.state_nextIndex hj] at hindex
    rw [hindex]
  · intro n s hs
    obtain ⟨i, -, hi, hsm⟩ := hk.visits hc hs
    rw [hsm, log.state_nextIndex hi]
    exact log.state_latest i
  · intro n s payload hs hpayload
    obtain ⟨j, hkj, hj, hsm⟩ := hke.visits hc hs
    have hbefore := log.state_latest (k n)
    have hafter := log.state_latest j
    rw [← hk.sm n, hpayload] at hbefore
    rw [← hsm] at hafter
    exact hbefore.mono hafter (log.payloads_subset ((hle n).trans hkj))

end

section
def committed (number : Nat) (index : Nat) : Entry .single :=
  ⟨⟨(), index⟩, .normal (.commitUnsafePayload (.ofBlock ⟨Hash.zero, number⟩))⟩

theorem committed_valid (index : Nat) {number : Nat}
    (h : (PayloadEnvelope.ofBlock ⟨Hash.zero, number⟩).Valid) :
    (committed number index).Valid := by
  intro payload hpayload
  cases hpayload
  exact h

/-- A higher payload after a lower one. -/
def twoPayloads : CommittedLog .single where
  entries := [committed 1 0, committed 2 1]
  indexed k entry h := by
    match k with
    | 0 | 1 =>
        cases h
        rfl
    | k + 2 => simp at h
  valid entry h := by
    simp only [List.mem_cons, List.not_mem_nil, or_false] at h
    rcases h with rfl | rfl
    · exact committed_valid 0 ⟨by decide +kernel, by decide +kernel⟩
    · exact committed_valid 1 ⟨by decide +kernel, by decide +kernel⟩

abbrev Pair := Cluster .single (Document .single) Bool

def started : Pair := .fresh (Codec.document .single)

abbrev Reached : Pair → Pair → Prop :=
  Cluster.Steps twoPayloads (Codec.document .single) ⟨false⟩

def nextOf (s : StoreState .single (Document .single) Unit) : Nat :=
  LogId.nextIndex .single (s.fields .sm).lastAppliedLog

def batch (entries : List (Entry .single)) : StoreCall .single (Document .single) :=
  .apply (entries.map fun entry => .ok (entry, none))

/-- A batch that nothing interrupts. -/
def applied (entries : List (Entry .single)) (s : StoreState .single (Document .single) Unit) :
    Option (StoreOut .single (Document .single) × StoreState .single (Document .single) Unit) :=
  execute Cluster.perform (.smooth _)
    (body (Codec.document .single) (some ⟨false⟩) (batch entries)) s

def succeeded (p : StoreOut .single (Document .single) ×
    StoreState .single (Document .single) Unit) (n : Nat) : Bool :=
  p.1.toOption.isSome && decide (nextOf p.2 = n)

theorem reached_of_applied (entries : List (Entry .single)) {c : Pair} {n : Bool}
    {p : StoreState .single (Document .single) Unit → Bool} (k : Nat)
    (hnext : entries <+: twoPayloads.entries.drop (nextOf (c.nodes n)))
    (h : (applied entries (c.nodes n)).any (fun q => succeeded q k && p q.2) = true) :
    ∃ c', Reached c c' ∧ nextOf (c'.nodes n) = k ∧ p (c'.nodes n) = true := by
  obtain ⟨out, s, hrun, hgood⟩ := runs_of_execute h
  simp only [succeeded, Bool.and_eq_true, decide_eq_true_eq] at hgood
  obtain ⟨⟨hok, hk⟩, hp⟩ := hgood
  have hrule : c.Rules twoPayloads n (batch entries) := by
    have hentries : UnsafeHeadStateMachine.streamEntries
        (entries.map fun entry => (.ok (entry, none) :
          Except IoError (Entry .single × Option UnsafeHeadStateMachine.Responder))) =
        entries := by
      simp [UnsafeHeadStateMachine.streamEntries, List.filterMap_map, Except.toOption]
    change UnsafeHeadStateMachine.streamEntries _ <+: _
    rw [hentries]
    exact hnext
  cases out with
  | error err => cases hok
  | ok out =>
      refine ⟨_, .single (.finish n (batch entries) out s hrule hrun), ?_, ?_⟩
      · simpa [Cluster.setNode] using hk
      · simpa [Cluster.setNode] using hp

theorem logId_of_nextIndex {logId : Option (LogId .single)} {n : Nat}
    (h : LogId.nextIndex .single logId = n + 1) : logId = some ⟨(), n⟩ := by
  cases logId with
  | none => cases h
  | some logId =>
      obtain ⟨⟨⟩, index⟩ := logId
      simp only [LogId.nextIndex, Nat.add_right_cancel_iff] at h
      rw [h]

/-- One node applies both entries in one batch, the other in two. -/
theorem batches_agree :
    ∃ c d, Reached started c ∧ Reached started d ∧ nextOf (c.nodes true) = 2 ∧
      c.sm true = d.sm false := by
  obtain ⟨c, hc, hnext, -⟩ := reached_of_applied [committed 1 0, committed 2 1]
    (c := started) (n := true) (p := fun _ => true) 2 (List.prefix_refl _) (by decide +kernel)
  obtain ⟨d₁, hd₁, hnext₁, hrest⟩ := reached_of_applied [committed 1 0] (c := started)
    (n := false) (p := fun s => (applied [committed 2 1] s).any fun q => succeeded q 2 && true) 1
    ⟨[committed 2 1], rfl⟩ (by decide +kernel)
  obtain ⟨d, hd, hnext', -⟩ := reached_of_applied [committed 2 1] (c := d₁) (n := false)
    (p := fun _ => true) 2 (by rw [hnext₁]; exact List.prefix_refl _) hrest
  have hsame := (replicas_agree twoPayloads _ (Codec.document_lawful .single) ⟨false⟩ c d c hc
    (hd₁.trans hd) .refl).1 true false _ _ ⟨.buildSnapshot, trivial, .here _ _⟩
    ⟨.buildSnapshot, trivial, .here _ _⟩
  refine ⟨c, d, hc, hd₁.trans hd, hnext, hsame ?_⟩
  rw [logId_of_nextIndex hnext, logId_of_nextIndex hnext']

end
end ConductorRs.Replica
