import ConductorRs.Concurrency.Sequential
import ConductorRs.Core.ConductorMemory

/-!
How often a partially healthy rollup boost is tolerated.

A time falls into the bucket of its interval. While the times do not decrease,
the counter of the current bucket is the number of checks in it, up to the limit;
the buckets thrown away when there are too many are never asked for again.
-/
namespace ConductorRs.Conductor
open Concurrency Collections

/-- The memory alone answers a task that does not leave the process. -/
def performMemory (m : Memory Unit) (o : Shared.Op) (_ : Unit) :
    Option (Shared.Reply o × Memory Unit) :=
  m.perform () o

/-- One check after the other, at the given times. -/
def runChecks (cfg : ConductorConfig) (times : List Nat) (m : Memory Unit) :
    Option (List Bool × Memory Unit) :=
  execute performMemory () (Task.each (tolerateRollupBoostPartialHealth cfg) times) m

def sameBucket (interval now time : Nat) : Bool :=
  decide (TimeBoundedCounter.bucket time interval = TimeBoundedCounter.bucket now interval)

def toleratePartial (tolerance : RollupBoostPartialHealthTolerance) (now : Nat)
    (counter : TimeBoundedCounter) : Bool × TimeBoundedCounter :=
  if tolerance.limit ≤ counter.currentValue now tolerance.interval then (false, counter)
  else (true, (counter.increment now tolerance.interval).2)

section
variable {cfg : ConductorConfig} {tolerance : RollupBoostPartialHealthTolerance}

theorem check_eq (hcfg : cfg.rollupBoostPartialHealthTolerance = some tolerance)
    (hlimit : 0 < tolerance.limit) (hinterval : 0 < tolerance.interval) (now : Nat)
    (m : Memory Unit) :
    execute performMemory () (tolerateRollupBoostPartialHealth cfg now) m =
      some ((toleratePartial tolerance now m.counter).1,
        { m with counter := (toleratePartial tolerance now m.counter).2 }) := by
  have hguard : ¬ (tolerance.limit = 0 ∨ tolerance.interval = 0) := by omega
  simp only [tolerateRollupBoostPartialHealth, hcfg, if_neg hguard, toleratePartial]
  simp only [op, Task.call, execute, performMemory, Memory.perform]
  split <;> rfl

theorem increment_bounded (counter : TimeBoundedCounter) (now interval : Nat) :
    (counter.increment now interval).2.buckets.entries.length ≤ 1000 := by
  simp only [TimeBoundedCounter.increment]
  split
  · exact Nat.le_of_ble_eq_true rfl
  · next hsmall => exact Nat.le_of_not_lt hsmall

theorem toleratePartial_bounded (now : Nat) {counter : TimeBoundedCounter}
    (h : counter.buckets.entries.length ≤ 1000) :
    (toleratePartial tolerance now counter).2.buckets.entries.length ≤ 1000 := by
  simp only [toleratePartial]
  split
  · exact h
  · exact increment_bounded counter now tolerance.interval

/-- From now on the counter knows how many of the earlier checks fell into the
bucket that is asked for. -/
def Counts (tolerance : RollupBoostPartialHealthTolerance) (earlier : List Nat)
    (counter : TimeBoundedCounter) : Prop :=
  ∀ now, (∀ time ∈ earlier, time ≤ now) →
    counter.currentValue now tolerance.interval =
      min tolerance.limit (earlier.countP (sameBucket tolerance.interval now))

theorem increment_same (counter : TimeBoundedCounter) {now later interval : Nat}
    (h : TimeBoundedCounter.bucket later interval = TimeBoundedCounter.bucket now interval) :
    (counter.increment now interval).2.currentValue later interval =
      counter.currentValue now interval + 1 := by
  simp only [TimeBoundedCounter.increment]
  split <;> simp [TimeBoundedCounter.currentValue, BTreeMap.get?_insert, h]

/-- Another bucket keeps its value or is thrown away. -/
theorem increment_other (counter : TimeBoundedCounter) {now later interval : Nat}
    (h : TimeBoundedCounter.bucket later interval ≠ TimeBoundedCounter.bucket now interval) :
    (counter.increment now interval).2.currentValue later interval =
        counter.currentValue later interval ∨
      (counter.increment now interval).2.currentValue later interval = 0 := by
  simp only [TimeBoundedCounter.increment]
  split
  · right
    simp [TimeBoundedCounter.currentValue, BTreeMap.get?_insert, h]
  · left
    simp [TimeBoundedCounter.currentValue, BTreeMap.get?_insert, h]

theorem countP_later {earlier : List Nat} {now later interval : Nat}
    (hearlier : ∀ time ∈ earlier, time ≤ now) (hlater : now ≤ later)
    (h : TimeBoundedCounter.bucket later interval ≠ TimeBoundedCounter.bucket now interval) :
    earlier.countP (sameBucket interval later) = 0 := by
  rw [List.countP_eq_zero]
  intro time htime hsame
  have hbefore := Nat.div_le_div_right (c := interval) (hearlier time htime)
  have hafter := Nat.div_le_div_right (c := interval) hlater
  have heq := of_decide_eq_true hsame
  simp only [TimeBoundedCounter.bucket] at h heq
  omega

/-- A check tolerates as long as the bucket has room, and the counter goes on
counting. -/
theorem Counts.check {earlier : List Nat} {counter : TimeBoundedCounter} {now : Nat}
    (h : Counts tolerance earlier counter) (hearlier : ∀ time ∈ earlier, time ≤ now) :
    (toleratePartial tolerance now counter).1 =
        decide (earlier.countP (sameBucket tolerance.interval now) < tolerance.limit) ∧
      Counts tolerance (earlier ++ [now]) (toleratePartial tolerance now counter).2 := by
  have hvalue := h now hearlier
  generalize hcount : earlier.countP (sameBucket tolerance.interval now) = count at hvalue ⊢
  have hnew : ∀ later, (∀ time ∈ earlier ++ [now], time ≤ later) →
      (∀ time ∈ earlier, time ≤ later) ∧ now ≤ later := by
    intro later hlater
    exact ⟨fun time ht => hlater time (List.mem_append_left [now] ht), hlater now (by simp)⟩
  by_cases hfull : tolerance.limit ≤ counter.currentValue now tolerance.interval
  · rw [toleratePartial, if_pos hfull]
    refine ⟨(decide_eq_false (by omega)).symm, fun later hlater => ?_⟩
    obtain ⟨hall, _⟩ := hnew later hlater
    rw [h later hall, List.countP_append]
    by_cases hsame : sameBucket tolerance.interval later now = true
    · -- a full bucket stays full
      have hbucket := of_decide_eq_true hsame
      have hpred : sameBucket tolerance.interval later = sameBucket tolerance.interval now := by
        funext time
        simp only [sameBucket, hbucket]
      rw [hpred, hcount]
      omega
    · rw [List.countP_singleton, if_neg hsame, Nat.add_zero]
  · rw [toleratePartial, if_neg hfull]
    refine ⟨(decide_eq_true (by omega)).symm, fun later hlater => ?_⟩
    obtain ⟨hall, hle⟩ := hnew later hlater
    rw [List.countP_append, List.countP_singleton]
    by_cases hsame : sameBucket tolerance.interval later now = true
    · have hbucket := of_decide_eq_true hsame
      have hpred : sameBucket tolerance.interval later = sameBucket tolerance.interval now := by
        funext time
        simp only [sameBucket, hbucket]
      rw [if_pos hsame, increment_same counter hbucket.symm, hpred, hcount]
      omega
    · have hother : TimeBoundedCounter.bucket later tolerance.interval ≠
          TimeBoundedCounter.bucket now tolerance.interval :=
        fun heq => hsame (decide_eq_true heq.symm)
      rw [if_neg hsame, countP_later hearlier hle hother]
      cases increment_other counter hother with
      | inl hkept => rw [hkept, h later hall, countP_later hearlier hle hother]
      | inr hgone =>
          rw [hgone]
          omega

/-- The outcome of every check, from the times of the checks before it. -/
def toleratedChecks (tolerance : RollupBoostPartialHealthTolerance) :
    List Nat → List Nat → List Bool
  | _, [] => []
  | earlier, now :: rest =>
      decide (earlier.countP (sameBucket tolerance.interval now) < tolerance.limit) ::
        toleratedChecks tolerance (earlier ++ [now]) rest

theorem toleratedChecks_length (earlier times : List Nat) :
    (toleratedChecks tolerance earlier times).length = times.length := by
  induction times generalizing earlier with
  | nil => rfl
  | cons now rest ih => exact congrArg (· + 1) (ih (earlier ++ [now]))

theorem toleratedChecks_get (earlier times : List Nat) (k : Nat) :
    (toleratedChecks tolerance earlier times)[k]? = (times[k]?).map fun now =>
      decide ((earlier ++ times.take k).countP (sameBucket tolerance.interval now) <
        tolerance.limit) := by
  induction times generalizing earlier k with
  | nil => rfl
  | cons now rest ih =>
      cases k with
      | zero => simp [toleratedChecks]
      | succ k => simp [toleratedChecks, ih]

theorem runChecks_cons (hcfg : cfg.rollupBoostPartialHealthTolerance = some tolerance)
    (hlimit : 0 < tolerance.limit) (hinterval : 0 < tolerance.interval) (now : Nat)
    (times : List Nat) (m : Memory Unit) :
    runChecks cfg (now :: times) m =
      (runChecks cfg times { m with counter := (toleratePartial tolerance now m.counter).2 }).map
        fun p => ((toleratePartial tolerance now m.counter).1 :: p.1, p.2) := by
  simp only [runChecks, Task.each, execute_bind, check_eq hcfg hlimit hinterval, execute]
  exact (Option.map_eq_bind ..).symm

theorem runChecks_exact (hcfg : cfg.rollupBoostPartialHealthTolerance = some tolerance)
    (hlimit : 0 < tolerance.limit) (hinterval : 0 < tolerance.interval)
    (earlier times : List Nat) (m : Memory Unit) (hcounts : Counts tolerance earlier m.counter)
    (hearlier : ∀ time ∈ earlier, ∀ now ∈ times, time ≤ now)
    (htimes : times.Pairwise (· ≤ ·)) :
    ∃ m', runChecks cfg times m = some (toleratedChecks tolerance earlier times, m') := by
  induction times generalizing earlier m with
  | nil => exact ⟨m, rfl⟩
  | cons now rest ih =>
      obtain ⟨hnow, hrest⟩ := List.pairwise_cons.mp htimes
      obtain ⟨hresult, hcounts'⟩ := hcounts.check fun time ht =>
        hearlier time ht now List.mem_cons_self
      have hlater : ∀ time ∈ earlier ++ [now], ∀ later ∈ rest, time ≤ later := by
        intro time ht later hlater
        rcases List.mem_append.mp ht with ht | ht
        · exact hearlier time ht later (List.mem_cons_of_mem now hlater)
        · rw [List.mem_singleton.mp ht]
          exact hnow later hlater
      obtain ⟨m', hm'⟩ := ih (earlier ++ [now])
        { m with counter := (toleratePartial tolerance now m.counter).2 } hcounts' hlater hrest
      refine ⟨m', ?_⟩
      rw [runChecks_cons hcfg hlimit hinterval, hm', Option.map_some, hresult]
      rfl

theorem runChecks_bounded (hcfg : cfg.rollupBoostPartialHealthTolerance = some tolerance)
    (hlimit : 0 < tolerance.limit) (hinterval : 0 < tolerance.interval) (times : List Nat)
    (m : Memory Unit) (h : m.counter.buckets.entries.length ≤ 1000) :
    ∃ results m', runChecks cfg times m = some (results, m') ∧
      m'.counter.buckets.entries.length ≤ 1000 := by
  induction times generalizing m with
  | nil => exact ⟨[], m, rfl, h⟩
  | cons now rest ih =>
      obtain ⟨results, m', hrun, hbound⟩ := ih
        { m with counter := (toleratePartial tolerance now m.counter).2 }
        (toleratePartial_bounded now h)
      refine ⟨(toleratePartial tolerance now m.counter).1 :: results, m', ?_, hbound⟩
      rw [runChecks_cons hcfg hlimit hinterval, hrun]
      rfl

end

/-- The operation that computes a bucket is given a divisor that is not zero. -/
def DividesSafely : Op → Prop
  | .tolerate _ tolerance => tolerance.interval ≠ 0
  | _ => True

theorem tolerate_dividesSafely (cfg : ConductorConfig) (now : Nat) :
    (tolerateRollupBoostPartialHealth cfg now).All (E := Shared) DividesSafely := by
  simp only [tolerateRollupBoostPartialHealth]
  split
  · trivial
  · split
    · trivial
    · next hguard => exact ⟨fun hzero => hguard (.inr hzero), fun _ => trivial⟩

theorem partial_health_tolerance (cfg : ConductorConfig)
    (tolerance : RollupBoostPartialHealthTolerance) (leader : Bool)
    (hcfg : cfg.rollupBoostPartialHealthTolerance = some tolerance)
    (hlimit : 0 < tolerance.limit) (hinterval : 1 ≤ tolerance.interval) :
    (∀ times : List Nat, times.Pairwise (· ≤ ·) →
      ∃ results m, runChecks cfg times (.new cfg leader) = some (results, m) ∧
        results.length = times.length ∧ ∀ k, results[k]? = (times[k]?).map fun now =>
          decide ((times.take k).countP (sameBucket tolerance.interval now) <
            tolerance.limit)) ∧
    (∀ times : List Nat, ∃ results m, runChecks cfg times (.new cfg leader) = some (results, m) ∧
      m.counter.buckets.entries.length ≤ 1000) ∧
    ∀ now, (tolerateRollupBoostPartialHealth cfg now).All (E := Shared) DividesSafely := by
  refine ⟨fun times htimes => ?_, fun times => ?_, tolerate_dividesSafely cfg⟩
  · have hempty : Counts tolerance [] (Memory.new cfg leader : Memory Unit).counter :=
      fun now _ => (Nat.min_zero tolerance.limit).symm
    obtain ⟨m, hrun⟩ := runChecks_exact hcfg hlimit hinterval [] times (.new cfg leader) hempty
      (fun time ht => absurd ht List.not_mem_nil) htimes
    exact ⟨_, m, hrun, toleratedChecks_length [] times, toleratedChecks_get [] times⟩
  · exact runChecks_bounded hcfg hlimit hinterval times _ (Nat.zero_le _)

def twiceAMinute : ConductorConfig :=
  { ConductorConfig.default with rollupBoostPartialHealthTolerance := some ⟨2, 60⟩ }

theorem tolerated_twice_a_minute :
    ∃ results m, runChecks twiceAMinute [0, 10, 59, 60, 61, 62] (.new twiceAMinute true) =
      some (results, m) ∧ results.length = 6 ∧ results[2]? = some false ∧
        results[3]? = some true := by
  obtain ⟨results, m, hrun, hlength, hresults⟩ := (partial_health_tolerance twiceAMinute ⟨2, 60⟩
    true rfl (by decide) (by decide)).1 [0, 10, 59, 60, 61, 62] (by decide)
  exact ⟨results, m, hrun, hlength, hresults 2, hresults 3⟩

end ConductorRs.Conductor
