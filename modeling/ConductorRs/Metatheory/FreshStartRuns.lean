import ConductorRs.Metatheory.FreshStart

/-!
No start from an overtaken reading: the programs and their runs.

The last section gives a run in which leadership is lost between the two reads of
the leader flag: the second read skips linearizability, another node acknowledges
a higher payload, and the start is sent for the lower one.
-/
namespace ConductorRs.Conductor.FreshStart
open Concurrency RaftConsensus

section
variable {T : TypeConfig} {Tid : Type} [DecidableEq Tid] {cfg : ConductorConfig} {i : Tid}

abbrev logic (T : TypeConfig) (cfg : ConductorConfig) (i : Tid) : Logic Stack (Sys T Tid) :=
  (machine T Tid cfg).logic Policy.any outline i

abbrev reads (T : TypeConfig) (cfg : ConductorConfig) (i : Tid) : Logic ReadOps (Sys T Tid) :=
  (logic T cfg i).via fun r => Task.call (E := Stack) (.inr r)

abbrev upper (T : TypeConfig) (cfg : ConductorConfig) (i : Tid) : Logic Shared (Sys T Tid) :=
  (logic T cfg i).via throughRaft

/-- The conductor's own operations only touch its memory. -/
theorem own_frame {s s' : Sys T Tid} {x : Choice} {o : Op} {r : o.Reply}
    (h : s.own i x o = some (r, s')) : ∃ m, s' = { s with mem := m } := by
  unfold Sys.own at h
  split at h
  · cases h
    exact ⟨s.mem, rfl⟩
  · split at h
    · cases h
      exact ⟨s.mem, rfl⟩
    · obtain ⟨⟨r', m⟩, _, hr⟩ := Option.map_eq_some_iff.mp h
      cases hr
      exact ⟨m, rfl⟩

theorem own_holds {A : Sys T Tid → Prop} (hA : outline.Stable i A)
    (hmem : ∀ s m, A s → A { s with mem := m }) {o : Op}
    (hread : o ≠ .consensus .latestUnsafePayload)
    (hcheck : ∀ s, A s → outline.check i s (.inl o)) :
    (upper T cfg i).Holds A (op o) fun _ => A := by
  refine (logic T cfg i).via_call ?_
  have hcall : throughRaft o = Task.call (E := Stack) (.inl o) := by
    cases o with
    | consensus o =>
        cases o with
        | latestUnsafePayload => exact absurd rfl hread
        | _ => rfl
    | _ => rfl
  rw [hcall]
  refine Machine.Triple.call hA fun s hi ha => ⟨hcheck s ha, fun x r s' hp _ => ?_⟩
  obtain ⟨m, rfl⟩ := own_frame hp
  exact ⟨⟨⟨hi.committed, hi.undisturbed⟩, fun j _ => coherent.refl j s⟩, hmem s m ha⟩

theorem read_holds {A : Sys T Tid → Prop} (hA : outline.Stable i A) {o : ReadOp}
    {Q : o.Reply → Sys T Tid → Prop}
    (h : ∀ s x r s', Inv s → A s → s.read i x o = some (r, s') →
      Inv s' ∧ (∀ j, j ≠ i → outline.rely j s s') ∧ Q r s') :
    (reads T cfg i).Holds A (RaftConsensus.read o) Q := by
  refine (logic T cfg i).via_call (Machine.Triple.call hA fun s hi ha => ⟨trivial, ?_⟩)
  intro x r s' hp _
  obtain ⟨hi', hrely, hq⟩ := h s x r s' hi ha hp
  exact ⟨⟨hi', hrely⟩, hq⟩

/-- Nothing is owed to a read that finds the flag down. -/
theorem leader_holds :
    (reads T cfg i).Holds (fun _ => True) (RaftConsensus.read .leader)
      fun leader s => leader = false → Granted i s := by
  refine read_holds (true_stable i) ?_
  intro s x r s' hi _ hp
  cases hp
  refine ⟨⟨hi.committed, fun j n hj hn => ?_⟩, fun j hj => ?_, fun hdown hc => ?_⟩
  · by_cases hji : j = i
    · simp [hji] at hn
    · exact hi.undisturbed j n (by simpa [hji] using hj) (by simpa [hji] using hn)
  · simp [outline, hj]
  · simp [hdown] at hc

/-- The read asks, and everything acknowledged so far is committed. -/
theorem requestLinearizable_holds :
    (reads T cfg i).Holds (fun _ => True) (RaftConsensus.read .requestLinearizable)
      fun _ _ => True := by
  refine read_holds (true_stable i) ?_
  intro s x r s' hi _ hp
  cases hp
  refine ⟨⟨hi.committed, fun j n hj hn => ?_⟩, fun j hj => ?_, trivial⟩
  · by_cases hji : j = i
    · simp only [hji, Function.update_self, Option.some.injEq] at hn
      exact List.Subset.trans hi.committed (s.log.payloads_subset (hn ▸ Nat.le_max_left _ _))
    · simp only [Function.update_of_ne hji] at hn
      exact hi.undisturbed j n hj hn
  · simp [outline, hj]

theorem awaitLinearizable_holds :
    (reads T cfg i).Holds (fun _ => True) (RaftConsensus.read .awaitLinearizable)
      fun r s => ∀ u, r = .ok u → Granted i s := by
  refine read_holds (true_stable i) ?_
  intro s x r s' hi _ hp
  have hsame : s' = s ∧ ∀ u, r = .ok u → ∃ n, s.asked i = some n ∧ n ≤ s.applied := by
    simp only [Sys.read] at hp
    split at hp
    · cases hp
      exact ⟨rfl, fun u hu => by cases hu⟩
    · split at hp
      · next h =>
          cases hp
          simp only [Bool.and_eq_true, Option.any_eq_true, decide_eq_true_eq] at h
          exact ⟨rfl, fun _ _ => h.2⟩
      · cases hp
  obtain ⟨rfl, hasked⟩ := hsame
  exact ⟨hi, fun j _ => coherent.refl j s', fun u hu _ => hasked u hu⟩

theorem confirmLeadership_holds (leader : Bool) :
    (reads T cfg i).Holds (fun s => leader = false → Granted i s) (confirmLeadership leader)
      fun r s => ∀ u, r = .ok u → Granted i s := by
  cases leader with
  | false => exact (reads T cfg i).done fun s _ h _ _ => h rfl
  | true =>
      refine (reads T cfg i).pre (fun _ _ => trivial) ?_
      refine (reads T cfg i).bind requestLinearizable_holds fun _ => ?_
      refine (reads T cfg i).bind awaitLinearizable_holds fun r => ?_
      cases r with
      | ok u => exact (reads T cfg i).done fun s _ h _ _ => h u rfl
      | error err => exact (reads T cfg i).done fun s _ _ u hu => by cases hu

/-- The state machine holds the highest of the payloads it has applied. -/
theorem latestPayload_holds :
    (reads T cfg i).Holds (Granted i) (RaftConsensus.read .latestPayload)
      fun r s => ∀ payload, r = some payload → Started i payload s := by
  refine read_holds (granted_stable i) ?_
  intro s x r s' hi hgranted hp
  cases hp
  refine ⟨⟨hi.committed, hi.undisturbed⟩, fun j hj => ?_, fun payload hpayload => ?_⟩
  · simp [outline, hj]
  · have hlatest := s.log.state_latest s.applied
    rw [hpayload] at hlatest
    refine ⟨_, Function.update_self .., hpayload, s.log.valid_of_mem_payloads hlatest.mem, ?_⟩
    intro hc q hq
    obtain ⟨n, hasked, hle⟩ := hgranted hc
    have hmem := hi.undisturbed i n hc hasked hq
    rw [Nat.max_eq_right hle] at hmem
    exact hlatest.le hmem

/-- The result of `latest_unsafe_payload`. -/
theorem latestUnsafePayload_holds :
    (reads T cfg i).Holds (fun _ => True) latestUnsafePayload
      (AfterRead (fun _ => True) (Started i)) := by
  refine (reads T cfg i).bindLift leader_holds fun leader => ?_
  refine (reads T cfg i).bindExcept (confirmLeadership_holds leader) (fun u => ?_)
    fun _ _ _ _ => trivial
  refine (reads T cfg i).pre (fun s h => h u rfl) ?_
  refine (reads T cfg i).lift latestPayload_holds fun r s h => ?_
  cases r with
  | none => trivial
  | some payload => exact h payload rfl

theorem startControl :
    StartControl (upper T cfg i) (fun _ => True) (Started i) where
  plain o ho := by
    refine own_holds (true_stable i) (fun _ _ _ => trivial) ?_ ?_
    · rintro rfl
      cases ho
    · intro s _
      cases o with
      | sequencer o =>
          cases o with
          | startSequencer hash => cases ho
          | _ => trivial
      | _ => trivial
  read := (logic T cfg i).via_call latestUnsafePayload_holds
  prepare payload o ho := by
    refine own_holds (started_stable i payload) (fun _ _ h => h) ?_ ?_
    · rintro rfl
      cases ho
    · intro s _
      cases o with
      | sequencer o =>
          cases o with
          | startSequencer hash => cases ho
          | _ => trivial
      | _ => trivial
  send payload hash := by
    refine (upper T cfg i).post (own_holds (started_stable i payload) (fun _ _ h => h) ?_ ?_)
      fun _ _ _ => trivial
    · intro h
      cases h
    · intro s h
      exact ⟨payload, h⟩
  drop _ _ _ := trivial

theorem verified (T : TypeConfig) (Tid : Type) [DecidableEq Tid] (cfg : ConductorConfig) :
    (machine T Tid cfg).Verified Policy.any outline := by
  refine Machine.verified_of_triples coherent (fun _ _ _ _ => rfl) ?_
    (fun _ _ call _ => startControl.body_holds call) fun s e s' hi he _ => env_keeps hi he
  intro s i call s' hi _ he _
  cases he
  refine ⟨⟨⟨hi.committed, hi.undisturbed⟩, fun j hj => ?_⟩, trivial⟩
  simp [outline, hj]

/-- Control begins: what has been acknowledged is committed, and no read is under
way. -/
def Initial (s : Sys T Tid) : Prop :=
  s.acked ⊆ s.log.payloads s.log.entries.length ∧ ∀ i, s.undisturbed i = false

/-- A start command follows a reading of a payload. When the node led as
`latest_unsafe_payload` read its leader flag and no other node acknowledged a commit
between that and the reading, the payload's number is at least that of every payload
acknowledged anywhere before. -/
theorem start_reads_acknowledged (cfg : ConductorConfig) (s : Sys T Tid) (hs : Initial s)
    (c : Config Tid Stack (Sys T Tid) Call Outcome)
    (hr : (machine T Tid cfg).Reaches Policy.any (Config.quiet s) c) (i : Tid) (hash : Hash)
    (hstart : c.pending i = some (.inl (.sequencer (.startSequencer hash)))) :
    ∃ reading payload number, c.state.reading i = some reading ∧
      reading.payload = some payload ∧ payload.blockNumber = .ok number ∧
      (reading.undisturbed = true →
        ∀ q ∈ reading.acked, ∀ n, q.blockNumber = .ok n → n ≤ number) := by
  have hinv : Inv s := ⟨hs.1, fun i _ hc => by rw [hs.2 i] at hc; cases hc⟩
  have hconf := (verified T Tid cfg).reaches
    (Machine.conforms_quiet s hinv fun _ => trivial) hr
  obtain ⟨payload, reading, hreading, hpayload, hvalid, hfresh⟩ := hconf.check coherent hstart
  obtain ⟨_, hn, _⟩ := PayloadEnvelope.valid_iff.mp hvalid
  refine ⟨reading, payload, payload.number, hreading, hpayload, hn, fun hc q hq n hqn => ?_⟩
  rw [← PayloadEnvelope.number_eq hqn]
  exact hfresh hc q hq

end
section
def block (number : Nat) : PayloadEnvelope := .ofBlock ⟨Hash.zero, number⟩

/-- Block 1 is committed and applied on the leader. -/
def settled : Sys .single Unit where
  mem := .new .default true
  log := CommittedLog.empty.push () (.normal (.commitUnsafePayload (block 1))) (by decide +kernel)
  applied := 1
  leading := true
  asked _ := none
  acked := []
  undisturbed _ := false
  reading _ := none

/-- The node is on block 1. -/
def onBlock : Choice where
  oracle
    | .sequencer .latestUnsafeBlock => .ok ⟨Hash.zero, 1⟩
    | o => Oracle.refuse o
  linearizable := .ok ()

abbrev Trace := Event Unit Call Choice (Env .single)

abbrev Running := Config Unit Stack (Sys .single Unit) Call Outcome

/-- Block 1 is acknowledged, and an action finds an idle node that leads. -/
def decided : List Trace :=
  [.env (.acknowledge true 0), .call () .action] ++ List.replicate 7 (.step () onBlock)

/-- A start is pending after a reading of block 1, with block `newest` the last one
acknowledged. -/
def startsOnFirst (newest : Nat) (undisturbed : Bool) (c : Running) : Bool :=
  match c.pending (), c.state.reading () with
  | some (.inl (.sequencer (.startSequencer _))), some ⟨some payload, q :: _, cov⟩ =>
      payload.blockNumber.toOption == some 1 && q.blockNumber.toOption == some newest &&
        cov == undisturbed
  | _, _ => false

private theorem blockNumber_of_toOption {payload : PayloadEnvelope} {number : Nat}
    (h : payload.blockNumber.toOption = some number) : payload.blockNumber = .ok number := by
  cases hn : payload.blockNumber with
  | error err => simp [hn, Except.toOption] at h
  | ok m => simpa [hn, Except.toOption] using h

theorem of_startsOnFirst {newest : Nat} {undisturbed : Bool} {c : Running}
    (h : startsOnFirst newest undisturbed c = true) :
    ∃ hash reading payload q,
      c.pending () = some (.inl (.sequencer (.startSequencer hash))) ∧
      c.state.reading () = some reading ∧ reading.payload = some payload ∧
      payload.blockNumber = .ok 1 ∧ q ∈ reading.acked ∧ q.blockNumber = .ok newest ∧
      reading.undisturbed = undisturbed := by
  unfold startsOnFirst at h
  split at h
  · next hash payload q rest cov hpending hreading =>
      simp only [Bool.and_eq_true, beq_iff_eq] at h
      exact ⟨hash, _, payload, q, hpending, hreading, rfl, blockNumber_of_toOption h.1.1,
        List.mem_cons_self .., blockNumber_of_toOption h.1.2, h.2⟩
  · cases h

/-- The node leads throughout, and the start is for the acknowledged block. -/
theorem start_reads_block :
    ∃ c hash, (machine .single Unit .default).Reaches Policy.any (Config.quiet settled) c ∧
      c.pending () = some (.inl (.sequencer (.startSequencer hash))) ∧
      ∃ reading payload number, c.state.reading () = some reading ∧
        reading.undisturbed = true ∧ reading.payload = some payload ∧
        payload.blockNumber = .ok number ∧
        ∀ q ∈ reading.acked, ∀ n, q.blockNumber = .ok n → n ≤ number := by
  have hrun : ∃ c, (machine .single Unit .default).Reaches Policy.any (Config.quiet settled) c ∧
      startsOnFirst 1 true c = true :=
    Machine.reaches_of_permitted (decided ++ List.replicate 5 (.step () onBlock))
      (by decide +kernel)
  obtain ⟨c, hr, hc⟩ := hrun
  obtain ⟨hash, reading, _, _, hstart, hreading, _, _, _, _, hundisturbed⟩ := of_startsOnFirst hc
  obtain ⟨reading', payload, number, hreading', hpayload, hnumber, hle⟩ :=
    start_reads_acknowledged .default settled ⟨List.nil_subset _, fun _ => rfl⟩ c hr () hash hstart
  obtain rfl : reading' = reading := Option.some.inj (hreading'.symm.trans hreading)
  exact ⟨c, hash, hr, hstart, reading', payload, number, hreading, hundisturbed, hpayload, hnumber,
    hle hundisturbed⟩

/-- The action has seen the leader flag when leadership is lost; the new leader
commits and acknowledges block 2 before the flag is read again. -/
def overtaken : List Trace :=
  decided ++
  [.env (.lead false), .env (.commit () (.normal (.commitUnsafePayload (block 2)))),
    .env (.acknowledge false 1)] ++
  List.replicate 3 (.step () onBlock)

theorem stale_start :
    ∃ c hash reading payload q,
      (machine .single Unit .default).Reaches Policy.any (Config.quiet settled) c ∧
      c.pending () = some (.inl (.sequencer (.startSequencer hash))) ∧
      c.state.reading () = some reading ∧ reading.payload = some payload ∧
      payload.blockNumber = .ok 1 ∧ q ∈ reading.acked ∧ q.blockNumber = .ok 2 := by
  have hrun : ∃ c, (machine .single Unit .default).Reaches Policy.any (Config.quiet settled) c ∧
      startsOnFirst 2 false c = true :=
    Machine.reaches_of_permitted overtaken (by decide +kernel)
  obtain ⟨c, hr, hc⟩ := hrun
  obtain ⟨hash, reading, payload, q, hstart, hreading, hpayload, hone, hq, htwo, _⟩ :=
    of_startsOnFirst hc
  exact ⟨c, hash, reading, payload, q, hr, hstart, hreading, hpayload, hone, hq, htwo⟩

end
end ConductorRs.Conductor.FreshStart
