import ConductorRs.Concurrency.Answers
import ConductorRs.Concurrency.Transcript
import ConductorRs.Metatheory.StartupChecks

/-!
The process from its start to its end.

Nothing but the rollup config is touched before the arguments have been validated.
The services run only on a node that has said that conductor mode is on, or that
does not know the question, and with a configuration that validation vouches for;
and whatever ends them, the conductor is stopped once before the process exits.
-/
namespace ConductorRs.Startup
open Concurrency Collections

section
variable {Url Addr : Type}

def early : StartOp Url Addr → Bool
  | .select _ | .stop | .finishProfiler => false
  | _ => true

def isAsk : StartOp Url Addr → Bool
  | .conductorEnabled => true
  | _ => false

def asks (told : Transcript (Env Url Addr)) : Nat := told.countP fun e => isAsk e.op

/-- Only the rollup config has been read. -/
def Reading (told : Transcript (Env Url Addr)) : Prop :=
  ∀ e ∈ told, ∃ path, e.op = .readToString path

/-- The services have not been started, the node has been asked so many times at
most, and some exchanges are known to have taken place. -/
structure Stage (k : Nat) (facts told : Transcript (Env Url Addr)) : Prop where
  early : ∀ e ∈ told, early e.op = true
  asks : asks told ≤ k
  facts : ∀ e ∈ facts, e ∈ told

/-- The services have not been started. -/
def Before (args : Args Url) (told : Transcript (Env Url Addr)) : Prop :=
  Reading told ∨ (Valid args ∧ Stage 60 [] told)

/-- The services can be started. -/
structure Prepared (args : Args Url) (services : Services Url Addr) (profiling : Bool)
    (told : Transcript (Env Url Addr)) : Prop where
  valid : Valid args
  sane : Sane services
  stage : Stage 60 [] told
  opened : ∃ config bootstrapped, ⟨.newHttp config, .ok bootstrapped⟩ ∈ told ∧
    services.settings.startPaused = (args.paused || bootstrapped)
  enabled : ∃ answer, ⟨.conductorEnabled, answer⟩ ∈ told ∧ settles answer = .ok (.ok ())
  initialized : ⟨.initializeStartupState services.settings, .ok ()⟩ ∈ told
  profiling : profiling = true → ⟨.startCpuFileProfiler args.pprofPath, .ok ()⟩ ∈ told

/-- The services have been started once, and this followed. -/
def Started (args : Args Url) (services : Services Url Addr) (profiling : Bool)
    (ended : Except Failure Unit) (rest told : Transcript (Env Url Addr)) : Prop :=
  ∃ before, told = before ++ ⟨.select services, ended⟩ :: rest ∧
    Prepared args services profiling before

/-- What may follow the services, at any moment. -/
inductive Leaving : Transcript (Env Url Addr) → Prop where
  | running : Leaving []
  | stopped (r : Except ConductorError Unit) : Leaving [⟨.stop, r⟩]
  | finished (r : Except ConductorError Unit) (f : Except String Unit) :
      Leaving [⟨.stop, r⟩, ⟨.finishProfiler, f⟩]

/-- Every moment of a run. -/
def Proper (args : Args Url) (told : Transcript (Env Url Addr)) : Prop :=
  Before args told ∨ ∃ services profiling ended rest,
    Started args services profiling ended rest told ∧ Leaving rest

/-- The end of the profile, if one is being written. -/
inductive Finish : Bool → Transcript (Env Url Addr) → Except Failure Unit → Prop where
  | idle : Finish false [] (.ok ())
  | written (f : Except String Unit) :
      Finish true [⟨.finishProfiler, f⟩] (f.mapError fun err => [err])

/-- What the end of the services and of the conductor make of the run. The profile
is lost when the conductor does not stop after services that ended well. -/
inductive Closing (profiling : Bool) : Except Failure Unit → Except ConductorError Unit →
    Transcript (Env Url Addr) → Except Failure Unit → Prop where
  | failed (err : Failure) (stopped : Except ConductorError Unit)
      {rest : Transcript (Env Url Addr)} {finished : Except Failure Unit} :
      Finish profiling rest finished → Closing profiling (.error err) stopped rest (.error err)
  | notStopped (err : ConductorError) :
      Closing profiling (.ok ()) (.error err) [] (.error ["stopping conductor", err.display])
  | stopped {rest : Transcript (Env Url Addr)} {finished : Except Failure Unit} :
      Finish profiling rest finished → Closing profiling (.ok ()) (.ok ()) rest finished

/-- A run that is over. -/
def Over (args : Args Url) (result : Except Failure Unit) (told : Transcript (Env Url Addr)) :
    Prop :=
  (∃ err, result = .error err) ∧ Before args told ∨
    ∃ services profiling ended stopped rest,
      Started args services profiling ended (⟨.stop, stopped⟩ :: rest) told ∧
      Closing profiling ended stopped rest result

theorem Reading.snoc {told : Transcript (Env Url Addr)} (h : Reading told) (path : String)
    (r : Except String String) : Reading (told ++ [⟨.readToString path, r⟩]) := by
  intro e he
  rcases List.mem_append.mp he with he | he
  · exact h e he
  · obtain rfl := List.mem_singleton.mp he
    exact ⟨path, rfl⟩

theorem Reading.stage {told : Transcript (Env Url Addr)} (h : Reading told) : Stage 0 [] told where
  early e he := by
    obtain ⟨path, hop⟩ := h e he
    rw [hop]
    rfl
  asks := by
    refine Nat.le_of_eq (List.countP_eq_zero.mpr fun e he => ?_)
    obtain ⟨path, hop⟩ := h e he
    rw [hop]
    exact Bool.false_ne_true
  facts _ he := absurd he List.not_mem_nil

namespace Stage

variable {k n : Nat} {facts told : Transcript (Env Url Addr)}

theorem weaken (h : Stage k facts told) (hk : k ≤ n) : Stage n [] told :=
  ⟨h.early, h.asks.trans hk, fun _ he => absurd he List.not_mem_nil⟩

theorem forget {e : Exchange (Env Url Addr)} (h : Stage k (e :: facts) told) :
    Stage k facts told :=
  ⟨h.early, h.asks, fun f hf => h.facts f (List.mem_cons_of_mem e hf)⟩

theorem snoc (h : Stage k facts told) {o : StartOp Url Addr} (ho : Startup.early o = true)
    (r : o.Reply) (hk : (k + if isAsk o then 1 else 0) ≤ n) :
    Stage n (⟨o, r⟩ :: facts) (told ++ [⟨o, r⟩]) where
  early e he := by
    rcases List.mem_append.mp he with he | he
    · exact h.early e he
    · obtain rfl := List.mem_singleton.mp he
      exact ho
  asks := by
    have hcount : Startup.asks (told ++ [⟨o, r⟩]) =
        Startup.asks told + if isAsk o then 1 else 0 := by
      simp only [Startup.asks, List.countP_append, List.countP_singleton]
    rw [hcount]
    exact (Nat.add_le_add_right h.asks _).trans hk
  facts e he := by
    rcases List.mem_cons.mp he with rfl | he
    · exact List.mem_append_right _ (List.mem_singleton.mpr rfl)
    · exact List.mem_append_left _ (h.facts e he)

end Stage

/-- The services may also be started after one more early operation. -/
theorem Prepared.snoc {args : Args Url} {services : Services Url Addr} {profiling : Bool}
    {told : Transcript (Env Url Addr)} (h : Prepared args services profiling told)
    {o : StartOp Url Addr} (ho : early o = true) (hask : isAsk o = false) (r : o.Reply) :
    Prepared args services profiling (told ++ [⟨o, r⟩]) where
  valid := h.valid
  sane := h.sane
  stage := (h.stage.snoc ho r (by rw [hask]; exact Nat.le_refl _)).forget
  opened := by
    obtain ⟨config, bootstrapped, hmem, heq⟩ := h.opened
    exact ⟨config, bootstrapped, List.mem_append_left _ hmem, heq⟩
  enabled := by
    obtain ⟨answer, hmem, hs⟩ := h.enabled
    exact ⟨answer, List.mem_append_left _ hmem, hs⟩
  initialized := List.mem_append_left _ h.initialized
  profiling hp := List.mem_append_left _ (h.profiling hp)

theorem Started.snoc {args : Args Url} {services : Services Url Addr} {profiling : Bool}
    {ended : Except Failure Unit} {rest told : Transcript (Env Url Addr)}
    (h : Started args services profiling ended rest told) (e : Exchange (Env Url Addr)) :
    Started args services profiling ended (rest ++ [e]) (told ++ [e]) := by
  obtain ⟨before, rfl, hp⟩ := h
  exact ⟨before, by simp, hp⟩

abbrev startLogic (args : Args Url) : Logic (Env Url Addr) (Transcript (Env Url Addr)) :=
  crashLogic record (Proper args)

theorem readToString_holds {args : Args Url} (path : String) :
    (startLogic args).Holds Reading (op (.readToString path : StartOp Url Addr))
      fun _ => Reading :=
  record_keep (fun _ _ h => .inl (.inl h)) fun _ r h => h.snoc path r

theorem attempt_holds {args : Args Url} {α ε : Type} {A : Transcript (Env Url Addr) → Prop}
    {t : Task (Env Url Addr) (Except ε α)} {R : Except ε α → Transcript (Env Url Addr) → Prop}
    {Q : Except Failure α → Transcript (Env Url Addr) → Prop} {text : String}
    {display : ε → String} (h : (startLogic args).Holds A t R)
    (hok : ∀ a told, R (.ok a) told → Q (.ok a) told)
    (herr : ∀ err told, R (.error err) told → Q (.error [text, display err]) told) :
    (startLogic args).Holds A (attempt text display t).run Q := by
  refine (startLogic args).bind h fun r => (startLogic args).done fun told _ hr => ?_
  cases r with
  | ok a => exact hok a told hr
  | error err => exact herr err told hr

variable {p : Platform Url Addr} {args : Args Url}

theorem validateRollupConfigSource_holds :
    (startLogic args).Holds Reading (validateRollupConfigSource p args).run fun _ => Reading := by
  unfold validateRollupConfigSource
  split
  · exact (startLogic args).done fun _ _ h => h
  · split
    · refine (startLogic args).bindExcept (R := fun _ => Reading)
        (attempt_holds (readToString_holds _) (fun _ _ h => h) fun _ _ h => h) (fun raw => ?_)
        fun _ _ _ h => h
      refine (startLogic args).bindPure (fun config _ => ?_) fun _ _ _ h => h
      exact (startLogic args).done fun _ _ h => h
    · exact (startLogic args).done fun _ _ h => h

theorem validateArgs_holds :
    (startLogic args).Holds Reading (validateArgs p args).run fun r told =>
      Reading told ∧ (r = .ok () → Valid args) := by
  refine (startLogic args).bindPure (fun _ hmodes => ?_) fun e told _ h => ⟨h, nofun⟩
  refine (startLogic args).bindExcept validateRollupConfigSource_holds (fun _ => ?_)
    fun e told _ h => ⟨h, nofun⟩
  exact (startLogic args).done fun told _ h => ⟨h, fun hvalues => valid_of_checks hmodes hvalues⟩

/-- A step of the preparation may fail, and the services have not been started then. -/
def Then {α : Type} (G : α → Transcript (Env Url Addr) → Prop) :
    Except Failure α → Transcript (Env Url Addr) → Prop
  | .ok a, told => G a told
  | .error _, told => Stage 60 [] told

section
variable {α β ε : Type} {A : Transcript (Env Url Addr) → Prop}
  {G : α → Transcript (Env Url Addr) → Prop} {H : β → Transcript (Env Url Addr) → Prop}
  {k : Nat} {facts : Transcript (Env Url Addr)}

/-- The answer that ended the questions is known. -/
def Enabled (facts told : Transcript (Env Url Addr)) : Prop :=
  ∃ answer, settles answer = .ok (.ok ()) ∧ Stage 60 (⟨.conductorEnabled, answer⟩ :: facts) told

theorem then_bind {t : Attempt Url Addr α} {f : α → Attempt Url Addr β}
    (ht : (startLogic args).Holds A t.run (Then G))
    (hf : ∀ a, (startLogic args).Holds (G a) (f a).run (Then H)) :
    (startLogic args).Holds A (t >>= f).run (Then H) :=
  (startLogic args).bindExcept ht hf fun _ _ _ h => h

theorem then_check {r : Except Failure α} {f : α → Attempt Url Addr β} (hk : k ≤ 60)
    (hf : ∀ a, r = .ok a → (startLogic args).Holds (Stage k facts) (f a).run (Then H)) :
    (startLogic args).Holds (Stage k facts) (check r >>= f).run (Then H) :=
  (startLogic args).bindPure hf fun _ _ _ h => h.weaken hk

/-- A reply that is an error ends the preparation. -/
theorem then_attempt {t : Task (Env Url Addr) (Except ε α)} {text : String}
    {display : ε → String}
    (h : (startLogic args).Holds A t fun r told =>
      Stage 60 [] told ∧ ∀ a, r = .ok a → G a told) :
    (startLogic args).Holds A (attempt text display t).run (Then G) :=
  attempt_holds h (fun a _ hr => hr.2 a rfl) fun _ _ hr => hr.1

variable (hv : Valid args)
include hv

theorem stage_op {n : Nat} (o : StartOp Url Addr) (ho : early o = true)
    (hn : (k + if isAsk o then 1 else 0) ≤ n) (hk : n ≤ 60) :
    (startLogic args).Holds (Stage k facts) (op o) fun r => Stage n (⟨o, r⟩ :: facts) :=
  record_keep (fun _ _ h => .inl (.inr ⟨hv, h.weaken hk⟩)) fun _ r h => h.snoc ho r hn

/-- An operation of which nothing is remembered. -/
theorem stage_pass (hk : k ≤ 60) {o : StartOp Url Addr} (ho : early o = true)
    (hask : isAsk o = false) :
    (startLogic args).Holds (Stage k facts) (op o) fun _ => Stage k facts :=
  (startLogic args).post (stage_op hv o ho (by rw [hask]; exact Nat.le_refl k) hk)
    fun _ _ h => h.forget

theorem listenAddr_holds (hk : k ≤ 60) (text host : String) (port : Nat) :
    (startLogic args).Holds (Stage k facts) (listenAddr p text host port).run
      (Then fun _ => Stage k facts) := by
  unfold listenAddr
  split
  · exact (startLogic args).done fun _ _ h => h
  · refine then_bind (G := fun _ => Stage k facts) ?_ fun addrs => ?_
    · refine (startLogic args).bind (stage_pass hv hk rfl rfl) fun r => ?_
      refine (startLogic args).done fun told _ h => ?_
      cases r with
      | ok addrs => exact h
      | error err => exact h.weaken hk
    · split
      · exact (startLogic args).done fun _ _ h => h
      · exact (startLogic args).done fun _ _ h => h.weaken hk

theorem serverAddr_holds (hk : k ≤ 60) (enabled : Bool) (name host : String) (port : Int) :
    (startLogic args).Holds (Stage k facts) (serverAddr p enabled name host port).run
      (Then fun _ => Stage k facts) := by
  unfold serverAddr
  cases enabled with
  | false => exact (startLogic args).done fun _ _ h => h
  | true =>
      refine then_check hk fun n _ => ?_
      refine then_bind (listenAddr_holds hv hk _ host n) fun addr => ?_
      exact (startLogic args).done fun _ _ h => h

omit hv in
/-- An answer that settles the question ends the questions. -/
theorem settled_holds {answer : Except SequencerError Bool} {result : Except Failure Unit}
    (hs : settles answer = .ok result) (hk : k ≤ 60) :
    (startLogic args).Holds (Stage k (⟨.conductorEnabled, answer⟩ :: facts))
      (check result : Attempt Url Addr Unit).run (Then fun _ => Enabled facts) := by
  refine (startLogic args).done fun told _ h => ?_
  cases result with
  | ok u => exact ⟨answer, hs, h.early, h.asks.trans hk, h.facts⟩
  | error err => exact h.weaken hk

theorem askConductorEnabled_holds (later : Nat) (hk : k + later + 1 ≤ 60) :
    (startLogic args).Holds (Stage k facts) (askConductorEnabled later).run
      (Then fun _ => Enabled facts) := by
  have hk' : k + 1 ≤ 60 := by omega
  induction later generalizing k with
  | zero =>
      refine (startLogic args).bindLift
        (stage_op hv .conductorEnabled rfl (Nat.le_refl _) hk') fun answer => ?_
      cases hs : settles answer with
      | ok result => exact settled_holds hs hk'
      | error err => exact (startLogic args).done fun _ _ h => h.weaken hk'
  | succ later ih =>
      refine (startLogic args).bindLift
        (stage_op hv .conductorEnabled rfl (Nat.le_refl _) hk') fun answer => ?_
      cases hs : settles answer with
      | ok result => exact settled_holds hs hk'
      | error err =>
          refine (startLogic args).bindLift (stage_pass hv hk' rfl rfl) fun _ => ?_
          have hlater : k + 1 + later + 1 ≤ 60 := by omega
          exact (startLogic args).pre (fun _ h => h.forget) (ih hlater (by omega))

theorem startPprofFileProfiler_holds :
    (startLogic args).Holds (Stage 60 facts) (startPprofFileProfiler args).run
      (Then fun profiling told => ∃ rest, Stage 60 (rest ++ facts) told ∧
        (profiling = true → ⟨.startCpuFileProfiler args.pprofPath, .ok ()⟩ ∈ rest)) := by
  unfold startPprofFileProfiler
  split
  · refine then_bind (G := fun _ => Stage 60
      (⟨.startCpuFileProfiler args.pprofPath, .ok ()⟩ :: facts)) ?_ fun _ => ?_
    · refine (startLogic args).bind
        (stage_op hv (.startCpuFileProfiler args.pprofPath) rfl (Nat.le_refl _) (Nat.le_refl _))
        fun r => (startLogic args).done fun told _ h => ?_
      cases r with
      | ok u => exact h
      | error err => exact h.weaken (Nat.le_refl _)
    · exact (startLogic args).done fun told _ h => ⟨[_], h, fun _ => List.mem_singleton.mpr rfl⟩
  · exact (startLogic args).done fun told _ h => ⟨[], h, nofun⟩

theorem newHttp_holds (hk : k ≤ 60) (text : String) (display : ConsensusError → String)
    (config : RaftConsensusConfig) :
    (startLogic args).Holds (Stage k facts)
      (attempt text display (op (.newHttp config : StartOp Url Addr))).run
      (Then fun bootstrapped => Stage k (⟨.newHttp config, .ok bootstrapped⟩ :: facts)) := by
  refine then_attempt ((startLogic args).post
    (stage_op hv (.newHttp config) rfl (Nat.le_refl _) hk) fun r told h => ?_)
  refine ⟨h.weaken hk, fun bootstrapped hr => ?_⟩
  cases hr
  exact h

theorem initializeStartupState_holds (hk : k ≤ 60) (text : String)
    (display : ConductorError → String) (settings : ConductorSettings Url) :
    (startLogic args).Holds (Stage k facts)
      (attempt text display (op (.initializeStartupState settings : StartOp Url Addr))).run
      (Then fun _ => Stage k (⟨.initializeStartupState settings, .ok ()⟩ :: facts)) := by
  refine then_attempt ((startLogic args).post
    (stage_op hv (.initializeStartupState settings) rfl (Nat.le_refl _) hk) fun r told h => ?_)
  refine ⟨h.weaken hk, fun _ hr => ?_⟩
  cases hr
  exact h

/-- What is known once the services can be started. -/
abbrev known (config : RaftConsensusConfig) (bootstrapped : Bool)
    (answer : Except SequencerError Bool) (settings : ConductorSettings Url) :
    Transcript (Env Url Addr) :=
  [⟨.initializeStartupState settings, .ok ()⟩, ⟨.conductorEnabled, answer⟩,
    ⟨.newHttp config, .ok bootstrapped⟩]

theorem prepared_of_stage {config : RaftConsensusConfig} {bootstrapped : Bool}
    {answer : Except SequencerError Bool} {services : Services Url Addr} {profiling : Bool}
    {rest told : Transcript (Env Url Addr)} (hs : settles answer = .ok (.ok ()))
    (hsane : Sane services)
    (hpaused : services.settings.startPaused = (args.paused || bootstrapped))
    (hprofile : profiling = true → ⟨.startCpuFileProfiler args.pprofPath, .ok ()⟩ ∈ rest)
    (h : Stage 60 (rest ++ known config bootstrapped answer services.settings) told) :
    Prepared args services profiling told where
  valid := hv
  sane := hsane
  stage := h.weaken (Nat.le_refl _)
  opened := ⟨config, bootstrapped, h.facts _ (by simp), hpaused⟩
  enabled := ⟨answer, h.facts _ (by simp), hs⟩
  initialized := h.facts _ (by simp)
  profiling hp := h.facts _ (List.mem_append_left _ (hprofile hp))

end

/-- Before the services run, nothing has been done but to read the rollup config, or
the arguments are valid. -/
def Ready (args : Args Url) :
    Except Failure (Services Url Addr × Bool) → Transcript (Env Url Addr) → Prop
  | .ok r, told => Prepared args r.1 r.2 told
  | .error _, told => Before args told

theorem prepare_holds : (startLogic args).Holds Reading (prepare p args).run (Ready args) := by
  refine (startLogic args).bindExcept validateArgs_holds (fun _ => ?_) fun e told _ h => .inl h.1
  refine (startLogic args).pre (B := fun told => Valid args ∧ Stage 0 [] told)
    (fun told h => ⟨h.2 rfl, h.1.stage⟩) (crashLogic_fact fun hv => ?_)
  refine (startLogic args).post (Q := Then fun r => Prepared args r.1 r.2) ?_ fun r told h => ?_
  · have hk : 0 ≤ 60 := by decide
    refine then_check hk fun interval hinterval => ?_
    refine then_check hk fun unsafeInterval hunsafeInterval => ?_
    refine then_check hk fun peers hpeers => ?_
    refine then_check hk fun tolerance htolerance => ?_
    refine then_check hk fun p2p hp2p => ?_
    refine then_check hk fun supervisor _ => ?_
    refine then_check hk fun ws hws => ?_
    refine then_check hk fun boost _ => ?_
    refine then_check hk fun consensusPort _ => ?_
    refine then_bind (listenAddr_holds hv hk _ _ _) fun consensusAddr => ?_
    refine then_bind (then_attempt ((startLogic args).post (stage_pass hv hk rfl rfl)
      fun _ _ h => ⟨h.weaken hk, fun _ _ => h⟩)) fun _ => ?_
    refine then_bind (then_attempt ((startLogic args).post (stage_pass hv hk rfl rfl)
      fun _ _ h => ⟨h.weaken hk, fun _ _ => h⟩)) fun bound => ?_
    refine then_check hk fun rpcPort _ => ?_
    refine then_bind (listenAddr_holds hv hk _ _ _) fun rpcAddr => ?_
    refine then_bind (newHttp_holds hv hk _ _ _) fun bootstrapped => ?_
    refine then_bind (askConductorEnabled_holds hv 59 (by decide)) fun _ => ?_
    refine record_exists fun answer => crashLogic_fact fun hanswer => ?_
    have hlast : 60 ≤ 60 := Nat.le_refl _
    refine then_bind (initializeStartupState_holds hv hlast _ _ _) fun _ => ?_
    refine then_bind (serverAddr_holds hv hlast _ _ _ _) fun metricsAddr => ?_
    refine then_bind (serverAddr_holds hv hlast _ _ _ _) fun pprofAddr => ?_
    refine then_bind (startPprofFileProfiler_holds hv) fun profiling => ?_
    refine (startLogic args).done fun told _ h => ?_
    obtain ⟨rest, hstage, hprofile⟩ := h
    obtain ⟨_, hd, hne⟩ := hv.interval
    obtain ⟨_, hn, hpos⟩ := hv.minPeerCount
    obtain rfl := Option.some.inj (hd.symm.trans (required_ok.mp hinterval))
    obtain rfl := Option.some.inj (hn.symm.trans (required_ok.mp hpeers))
    refine prepared_of_stage hv hanswer ?_ rfl hprofile hstage
    exact {
      interval := hne
      safeInterval := hv.safeInterval
      minPeerCount := hpos
      p2p := fun n hn => by
        obtain ⟨c, hc, rfl⟩ := Option.map_eq_some_iff.mp hn
        exact p2p_ne_zero hv (hp2p.trans (congrArg Except.ok hc))
      tolerance := fun t ht => tolerance_ne_zero (htolerance.trans (congrArg Except.ok ht))
      websocket := fun hurl => hv.websocketPort (parseOptionalUrl_isSome hws hurl) }
  · cases r with
    | ok r => exact h
    | error err => exact .inr ⟨hv, h⟩

section
variable {services : Services Url Addr} {profiling : Bool} {ended : Except Failure Unit}

theorem stop_holds :
    (startLogic args).Holds (Started args services profiling ended []) (op .stop) fun r =>
      Started args services profiling ended [⟨.stop, r⟩] :=
  record_keep (fun r _ h => .inr ⟨_, _, _, _, h, .stopped r⟩) fun _ r h => h.snoc ⟨.stop, r⟩

theorem finishPprofFileProfile_holds {stopped : Except ConductorError Unit} :
    (startLogic args).Holds (Started args services profiling ended [⟨.stop, stopped⟩])
      (finishPprofFileProfile profiling).run fun r told =>
        ∃ rest, Started args services profiling ended (⟨.stop, stopped⟩ :: rest) told ∧
          Finish profiling rest r := by
  unfold finishPprofFileProfile
  cases profiling with
  | false => exact (startLogic args).done fun _ _ h => ⟨[], h, .idle⟩
  | true =>
      have hcall : (startLogic args).Holds (Started args services true ended [⟨.stop, stopped⟩])
          (op .finishProfiler) fun f =>
            Started args services true ended [⟨.stop, stopped⟩, ⟨.finishProfiler, f⟩] :=
        record_keep (fun f _ h => .inr ⟨_, _, _, _, h, .finished stopped f⟩)
          fun _ f h => h.snoc ⟨.finishProfiler, f⟩
      exact (startLogic args).bind hcall fun f => (startLogic args).done fun _ _ h =>
        ⟨[⟨.finishProfiler, f⟩], h, .written f⟩

theorem finalizeRuntimeExit_holds :
    (startLogic args).Holds (Started args services profiling ended [])
      (finalizeRuntimeExit ended profiling).run (Over args) := by
  cases ended with
  | error err =>
      refine (startLogic args).bindLift stop_holds fun stopped => ?_
      refine (startLogic args).bindLift finishPprofFileProfile_holds fun finished => ?_
      refine (startLogic args).done fun told _ h => ?_
      obtain ⟨rest, hstarted, hfinish⟩ := h
      exact .inr ⟨_, _, _, _, _, hstarted, .failed err stopped hfinish⟩
  | ok u =>
      refine (startLogic args).bindExcept (R := fun r told => ∃ stopped,
        Started args services profiling (.ok u) [⟨.stop, stopped⟩] told ∧
          r = context "stopping conductor" (fun err => [ConductorError.display err]) stopped)
        ?_ (fun _ => ?_) fun e told _ h => ?_
      · exact (startLogic args).bind stop_holds fun stopped =>
          (startLogic args).done fun _ _ h => ⟨stopped, h, rfl⟩
      · refine record_exists fun stopped => ?_
        intro told hi h
        obtain ⟨h, hr⟩ := h
        cases stopped with
        | error err => cases hr
        | ok v =>
            refine (startLogic args).post finishPprofFileProfile_holds (fun r told h => ?_)
              told hi h
            obtain ⟨rest, hstarted, hfinish⟩ := h
            exact .inr ⟨_, _, _, _, _, hstarted, .stopped hfinish⟩
      · obtain ⟨stopped, hstarted, hr⟩ := h
        cases stopped with
        | ok v => cases hr
        | error err =>
            cases hr
            exact .inr ⟨_, _, _, _, [], hstarted, .notStopped err⟩

end

theorem main_holds : (startLogic args).Holds Reading (main p args).run (Over args) := by
  refine (startLogic args).bindExcept prepare_holds (fun r => ?_)
    fun e told _ h => .inl ⟨⟨e, rfl⟩, h⟩
  obtain ⟨services, profiling⟩ := r
  refine (startLogic args).bindLift (R := fun _ => Prepared args services profiling) ?_ fun _ => ?_
  · exact record_keep (fun _ _ h => .inl (.inr ⟨h.valid, h.stage⟩)) fun _ r h =>
      h.snoc (o := .recordUp) rfl rfl r
  · refine (startLogic args).bindLift
      (R := fun ended => Started args services profiling ended []) ?_ fun ended =>
        finalizeRuntimeExit_holds
    exact record_keep (fun _ _ h => .inr ⟨_, _, _, _, h, .running⟩)
      fun told r h => ⟨told, rfl, h⟩

theorem reading_nil : Reading ([] : Transcript (Env Url Addr)) :=
  fun _ he => absurd he List.not_mem_nil

theorem main_proper (p : Platform Url Addr) (args : Args Url) (told : Transcript (Env Url Addr))
    (h : Cut record (main p args).run [] told) : Proper args told :=
  (main_holds [] (.inl (.inl reading_nil)) reading_nil).1 told h

/-- An environment that answers an operation always in the same way. -/
abbrev Answers (Url Addr : Type) := (o : (Env Url Addr).Op) → (Env Url Addr).Reply o

/-- The rollup config is accepted, the addresses resolve and the optional URLs parse,
and no operation before the services fails. -/
structure Willing (p : Platform Url Addr) (args : Args Url)
    (answer : Answers Url Addr) : Prop where
  source : (validateRollupConfigSource p args).run.result answer = .ok ()
  p2pUrl : ∃ url, parseOptionalUrl p args.healthcheckExecutionP2pRpcUrl
    "healthcheck.execution-p2p-rpc-url" = .ok url
  supervisorUrl : ∃ url, parseOptionalUrl p args.supervisorRpc "supervisor.rpc" = .ok url
  websocketUrl : ∃ url, parseOptionalUrl p args.rollupboostWsUrl "rollupboost.ws-url" = .ok url
  resolve : ∀ host port, ∃ addr addrs, answer (.toSocketAddrs host port) = .ok (addr :: addrs)
  bind : ∀ addr, answer (.bind addr) = .ok ()
  localAddr : ∃ addr, answer .localAddr = .ok addr
  newHttp : ∀ config, ∃ bootstrapped, answer (.newHttp config) = .ok bootstrapped
  enabled : settles (answer .conductorEnabled) = .ok (.ok ())
  initialized : ∀ settings, answer (.initializeStartupState settings) = .ok ()
  profiler : ∀ path, answer (.startCpuFileProfiler path) = .ok ()

section
variable {answer : Answers Url Addr}

theorem succeeds_check {α : Type} {r : Except Failure α} (h : ∃ a, r = .ok a) :
    Task.Succeeds answer (check r : Attempt Url Addr α) := h

theorem succeeds_attempt {α ε : Type} {t : Task (Env Url Addr) (Except ε α)} {text : String}
    {display : ε → String} (h : ∃ a, t.result answer = .ok a) :
    Task.Succeeds answer (attempt text display t) := by
  obtain ⟨a, ha⟩ := h
  refine ⟨a, (Task.result_bind answer t _).trans ?_⟩
  rw [ha]
  rfl

namespace Willing

theorem validateArgs (h : Willing p args answer) (hv : Valid args) :
    Task.Succeeds answer (validateArgs p args) :=
  .bind (succeeds_check ⟨(), hv.modes⟩) fun _ =>
    .bind ⟨(), h.source⟩ fun _ => succeeds_check ⟨(), hv.values⟩

theorem listenAddr (h : Willing p args answer) (text host : String) (port : Nat) :
    Task.Succeeds answer (listenAddr p text host port) := by
  unfold Startup.listenAddr
  split
  · exact ⟨_, rfl⟩
  · obtain ⟨addr, addrs, hr⟩ := h.resolve host port
    refine ⟨addr, (Task.result_bindExcept answer (a := addr :: addrs) _ ?_).trans rfl⟩
    refine (Task.result_bind answer (op (.toSocketAddrs host port)) _).trans ?_
    change context text _ (answer (.toSocketAddrs host port)) = _
    rw [hr]
    rfl

theorem serverAddr (h : Willing p args answer) {enabled : Bool} {port : Int}
    (hport : enabled = true → IsPort port) (name host : String) :
    Task.Succeeds answer (serverAddr p enabled name host port) := by
  unfold Startup.serverAddr
  cases enabled with
  | false => exact ⟨none, rfl⟩
  | true =>
      exact .bind (succeeds_check ⟨_, port_of_isPort _ (hport rfl)⟩) fun n =>
        .bind (h.listenAddr _ host n) fun addr => ⟨some addr, rfl⟩

/-- The first answer of the node is good enough. -/
theorem askConductorEnabled (h : Willing p args answer) (later : Nat) :
    Task.Succeeds answer (askConductorEnabled later : Attempt Url Addr Unit) := by
  have henabled : settles (Task.result answer (op .conductorEnabled)) = .ok (.ok ()) := h.enabled
  refine ⟨(), ?_⟩
  cases later with
  | zero =>
      refine (Task.result_bindLift answer (op .conductorEnabled) _).trans ?_
      rw [henabled]
      rfl
  | succ later =>
      refine (Task.result_bindLift answer (op .conductorEnabled) _).trans ?_
      rw [henabled]
      rfl

theorem startPprofFileProfiler (h : Willing p args answer) :
    Task.Succeeds answer (startPprofFileProfiler args : Attempt Url Addr Bool) := by
  unfold Startup.startPprofFileProfiler
  split
  · refine ⟨true, (Task.result_bindExcept answer (a := ()) _ ?_).trans rfl⟩
    refine (Task.result_bind answer (op (.startCpuFileProfiler args.pprofPath)) _).trans ?_
    change Except.mapError _ (answer (.startCpuFileProfiler args.pprofPath)) = _
    rw [h.profiler]
    rfl
  · exact ⟨false, rfl⟩

theorem prepare (h : Willing p args answer) (hv : Valid args) :
    Task.Succeeds answer (prepare p args) := by
  obtain ⟨interval, hinterval, -⟩ := hv.interval
  obtain ⟨unsafeInterval, hunsafeInterval⟩ := hv.unsafeInterval
  obtain ⟨peers, hpeers, -⟩ := hv.minPeerCount
  obtain ⟨url, hurl⟩ := h.p2pUrl
  refine .bind (h.validateArgs hv) fun _ => ?_
  refine .bind (succeeds_check ⟨interval, required_ok.mpr hinterval⟩) fun _ => ?_
  refine .bind (succeeds_check ⟨unsafeInterval, required_ok.mpr hunsafeInterval⟩) fun _ => ?_
  refine .bind (succeeds_check ⟨peers, required_ok.mpr hpeers⟩) fun _ => ?_
  refine .bind (succeeds_check hv.partialHealthTolerance) fun _ => ?_
  refine .bind (succeeds_check (hv.executionP2pHealthConfig hurl)) fun _ => ?_
  refine .bind (succeeds_check h.supervisorUrl) fun _ => ?_
  refine .bind (succeeds_check h.websocketUrl) fun _ => ?_
  refine .bind (succeeds_check hv.rollupBoostHealthConfig) fun _ => ?_
  refine .bind (succeeds_check ⟨_, port_of_isPort _ hv.consensusPort⟩) fun _ => ?_
  refine .bind (h.listenAddr _ _ _) fun addr => ?_
  refine .bind (succeeds_attempt ⟨(), h.bind addr⟩) fun _ => ?_
  refine .bind (succeeds_attempt h.localAddr) fun _ => ?_
  refine .bind (succeeds_check ⟨_, port_of_isPort _ hv.rpcPort⟩) fun _ => ?_
  refine .bind (h.listenAddr _ _ _) fun _ => ?_
  refine .bind (succeeds_attempt (h.newHttp _)) fun _ => ?_
  refine .bind (h.askConductorEnabled 59) fun _ => ?_
  refine .bind (succeeds_attempt ⟨(), h.initialized _⟩) fun _ => ?_
  refine .bind (h.serverAddr hv.metricsPort _ _) fun _ => ?_
  refine .bind (h.serverAddr hv.pprofPort _ _) fun _ => ?_
  exact .bind h.startPprofFileProfiler fun _ => ⟨_, rfl⟩

end Willing
end

end

def plainPlatform : Platform String String where
  parseUrl := .ok
  parseSocketAddr _ := none
  display addr := addr
  debug text := text
  json := ⟨fun _ => "", fun _ => .error "no document"⟩

def plainArgs : Args String where
  nodeRpc := "http://node"
  executionRpc := "http://execution"
  network := some "op-mainnet"
  serverId := "a"
  storageDir := "raft"
  healthcheckInterval := some (Duration.fromSecs 1)
  healthcheckUnsafeInterval := some (Duration.fromSecs 3)
  healthcheckMinPeerCount := some 1

/-- Everything works, and the services end with a signal. -/
def calm : Answers String String
  | .readToString _ => .error "no such file"
  | .toSocketAddrs host _ => .ok [host]
  | .bind _ | .startCpuFileProfiler _ | .finishProfiler => .ok ()
  | .localAddr => .ok "127.0.0.1:50050"
  | .newHttp _ => .ok true
  | .conductorEnabled => .ok true
  | .sleep | .recordUp => ()
  | .initializeStartupState _ | .stop => .ok ()
  | .select _ => .ok ()

end ConductorRs.Startup
