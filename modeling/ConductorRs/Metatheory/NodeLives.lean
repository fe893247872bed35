import Mathlib.Algebra.Ring.Nat
import ConductorRs.Core.NodeStart
import ConductorRs.Metatheory.StartupProtocol

/-!
The lives of a process on one disk.

A process is started again and again with the same storage, each life ends with its
program or at any earlier point, and the arguments may differ from life to life. The
cluster is bootstrapped in one of these lives at most. A life starts its services
paused against its arguments only if it is that life; so the pause is gone if that
life did not get as far as its services.
-/
namespace ConductorRs.Startup
open Concurrency RaftConsensus

section
variable {g₀ : Ground} {α : Type}

/-- A storage that was initialized at first still is. -/
def Kept (g₀ g : Ground) : Prop := g₀.initialized = true → g.initialized = true

theorem perform_kept {g g' : Ground} {o : BootOp} {x : Whim} {r : o.Reply}
    (h : g.perform o x = some (r, g')) : Kept g g' := by
  intro hg
  cases o with
  | openStore dir id | validate config =>
      cases h
      exact hg
  | raftInitialize members =>
      rw [Ground.perform, if_pos hg] at h
      cases h
      exact hg
  | isInitialized | raftNew id config | spawnSnapshotLoop interval threshold =>
      cases h
      change (g.initialized || _) = true
      rw [hg]
      rfl

abbrev bootLogic : Logic Boot Ground := crashLogic Ground.perform fun _ => True

/-- No task takes back an initialization. -/
theorem boot_steady {A : Ground → Prop} (hA : ∀ g g', Kept g g' → A g → A g') (t : Task Boot α) :
    bootLogic.Holds A t fun _ => A :=
  bootLogic.all (p := fun _ => True)
    (fun _ _ => crashLogic_call fun g _ _ g' _ hg hp => ⟨trivial, hA g g' (perform_kept hp) hg⟩)
    (Task.all_of_forall (fun _ => trivial) t)

theorem boot_kept (t : Task Boot α) : bootLogic.Holds (Kept g₀) t fun _ => Kept g₀ :=
  boot_steady (fun _ _ hkept hg h₀ => hkept (hg h₀)) t

theorem raftResult_holds {A : Ground → Prop} {t : Task Boot (Except String α)}
    {R : Except String α → Ground → Prop} (ht : bootLogic.Holds A t R)
    {Q : Except ConsensusError α → Ground → Prop}
    (hok : ∀ a g, R (.ok a) g → Q (.ok a) g) (herr : ∀ e g, Q (.error e) g) :
    bootLogic.Holds A (raftResult t).run Q := by
  refine bootLogic.bind ht fun r => bootLogic.done fun g _ hr => ?_
  cases r with
  | ok a => exact hok a g hr
  | error e => exact herr _ g

/-- The reply tells an initialized storage from a new one. -/
theorem isInitialized_holds :
    bootLogic.Holds (Kept g₀) (bootOp .isInitialized) fun r _ =>
      ∀ b, r = .ok b → g₀.initialized = true → b = true := by
  refine crashLogic_call fun g x r g' _ hg hp => ⟨trivial, fun b hb h₀ => ?_⟩
  cases hp
  cases hx : x.answer .isInitialized with
  | error e =>
      rw [hx] at hb
      cases hb
  | ok b' =>
      rw [hx] at hb
      cases hb
      exact hg h₀

theorem raftInitialize_holds (members : List (String × String)) :
    bootLogic.Holds (fun _ => True) (bootOp (.raftInitialize members)) fun r g =>
      r = .ok () → g.initialized = true := by
  refine crashLogic_call fun g x r g' _ _ hp => ⟨trivial, fun hr => ?_⟩
  subst hr
  by_cases hg : g.initialized = true
  · exact perform_kept hp hg
  · rw [Ground.perform, if_neg hg] at hp
    cases hx : x.answer (.raftInitialize members) with
    | error e =>
        rw [hx] at hp
        cases hp
    | ok u =>
        rw [hx] at hp
        cases hp
        rfl

/-- Only a new storage is bootstrapped, and it is not new after that. -/
def Bootstraps (g₀ : Ground) (r : Except ConsensusError Bool) (g : Ground) : Prop :=
  r = .ok true → g₀.initialized = false ∧ g.initialized = true

theorem bootstrapNode_holds (config : RaftConsensusConfig) :
    bootLogic.Holds (Kept g₀) (bootstrapNode config).run (Bootstraps g₀) := by
  have herror : ∀ e g, Bootstraps g₀ (.error e) g := fun e g h => by cases h
  have hfalse : ∀ g, Bootstraps g₀ (.ok false) g := fun g h => by cases h
  unfold bootstrapNode
  split
  · refine bootLogic.bindExcept
      (R := fun r _ => ∀ b, r = .ok b → g₀.initialized = true → b = true)
      (raftResult_holds isInitialized_holds (fun b g h b' hb => h b' ?_) ?_) (fun b => ?_)
      fun e g _ _ => herror e g
    · cases hb
      rfl
    · intro e g b hb
      cases hb
    · cases b with
      | true => exact bootLogic.done fun g _ _ => hfalse g
      | false =>
          refine bootLogic.pre (B := fun _ => g₀.initialized = false ∧ True)
            (fun g h => ⟨Bool.eq_false_iff.mpr fun h₀ => Bool.noConfusion (h false rfl h₀),
              trivial⟩) (crashLogic_fact fun hnew => ?_)
          refine bootLogic.bindExcept (R := fun r g => r = .ok () → g.initialized = true)
            (raftResult_holds (raftInitialize_holds _) (fun _ g h _ => h rfl) ?_) (fun _ => ?_)
            fun e g _ _ => herror e g
          · intro e g h
            cases h
          · exact bootLogic.done fun g _ h _ => ⟨hnew, h rfl⟩
  · exact bootLogic.done fun g _ _ => hfalse g

theorem newHttp_bootstraps (config : RaftConsensusConfig) :
    bootLogic.Holds (Kept g₀) (newHttp config).run (Bootstraps g₀) := by
  have herror : ∀ e g, Bootstraps g₀ (.error e) g := fun e g h => by cases h
  refine bootLogic.bindPure (fun _ _ => ?_) fun e g _ _ => herror e g
  refine bootLogic.bindExcept (boot_kept _) (fun _ => ?_) fun e g _ _ => herror e g
  refine bootLogic.bindExcept (boot_kept _) (fun _ => ?_) fun e g _ _ => herror e g
  refine bootLogic.bindExcept (boot_kept _) (fun _ => ?_) fun e g _ _ => herror e g
  refine bootLogic.bindExcept (bootstrapNode_holds config) (fun b => ?_) fun e g _ _ => herror e g
  refine bootLogic.bindLift (R := fun _ => Bootstraps g₀ (.ok b)) (boot_steady ?_ _) fun _ =>
    bootLogic.done fun g _ h => h
  intro g g' hkept h hb
  exact ⟨(h hb).1, hkept (h hb).2⟩

end

section
variable {Url Addr : Type}

/-- A life so far, and the disk. -/
structure Scene (Url Addr : Type) where
  told : Transcript (Env Url Addr)
  ground : Ground

/-- What one operation of a life meets. -/
structure Fate (Url Addr : Type) where
  answer : Answers Url Addr
  whim : Whim
  joined : Bool

/-- The node is opened as its program says. Whatever else the process does, a leader
may initialize the node meanwhile. -/
def Scene.perform (s : Scene Url Addr) :
    (o : StartOp Url Addr) → Fate Url Addr → Option (o.Reply × Scene Url Addr)
  | .newHttp config, x =>
      (execute Ground.perform x.whim (newHttp config).run s.ground).map fun q =>
        (q.1, ⟨s.told ++ [⟨.newHttp config, q.1⟩], q.2⟩)
  | o, x =>
      some (x.answer o, ⟨s.told ++ [⟨o, x.answer o⟩], ⟨s.ground.initialized || x.joined⟩⟩)

/-- One life after another. A life ends between two operations, or while the node is
being opened. -/
inductive Lives (p : Platform Url Addr) :
    List (Args Url × Transcript (Env Url Addr)) → Ground → Prop where
  | fresh : Lives p [] ⟨false⟩
  | life {lives : List (Args Url × Transcript (Env Url Addr))} {g : Ground} (args : Args Url)
      {s : Scene Url Addr} : Lives p lives g →
      Cut Scene.perform (main p args).run ⟨[], g⟩ s → Lives p (lives ++ [(args, s.told)]) s.ground
  | opening {lives : List (Args Url × Transcript (Env Url Addr))} {g g' : Ground}
      (args : Args Url) (config : RaftConsensusConfig) {s : Scene Url Addr} : Lives p lives g →
      Cut Scene.perform (main p args).run ⟨[], g⟩ s →
      Cut Ground.perform (newHttp config).run s.ground g' →
      Lives p (lives ++ [(args, s.told)]) g'

def isBootstrap : (o : StartOp Url Addr) → o.Reply → Bool
  | .newHttp _, .ok bootstrapped => bootstrapped
  | _, _ => false

/-- How often the node has been bootstrapped in a life. -/
def bootstraps (told : Transcript (Env Url Addr)) : Nat :=
  told.countP fun e => isBootstrap e.op e.reply

theorem bootstraps_snoc (told : Transcript (Env Url Addr)) (e : Exchange (Env Url Addr)) :
    bootstraps (told ++ [e]) = bootstraps told + if isBootstrap e.op e.reply then 1 else 0 := by
  rw [bootstraps, List.countP_append, List.countP_singleton]
  rfl

/-- With those of the lives before, the storage accounts for the bootstraps. -/
def Accounted (n : Nat) (s : Scene Url Addr) : Prop :=
  n + bootstraps s.told ≤ s.ground.initialized.toNat

theorem kept_toNat {g g' : Ground} (h : Kept g g') : g.initialized.toNat ≤ g'.initialized.toNat :=
  Bool.toNat_le_toNat fun hg => h hg

/-- An exchange that is no bootstrap. -/
theorem Accounted.other {n : Nat} {s : Scene Url Addr} (h : Accounted n s)
    {e : Exchange (Env Url Addr)} (he : isBootstrap e.op e.reply = false) {g : Ground}
    (hg : Kept s.ground g) : Accounted n ⟨s.told ++ [e], g⟩ := by
  unfold Accounted at h ⊢
  rw [bootstraps_snoc, he]
  exact h.trans (kept_toNat hg)

theorem accounted_step {n : Nat} (s : Scene Url Addr) (o : StartOp Url Addr) (x : Fate Url Addr)
    (r : o.Reply) (s' : Scene Url Addr) (h : Accounted n s) (hp : s.perform o x = some (r, s')) :
    Accounted n s' := by
  cases o with
  | newHttp config =>
      obtain ⟨⟨r', g'⟩, hexec, heq⟩ := Option.map_eq_some_iff.mp hp
      cases heq
      have hrun := runs_of_execute_eq hexec
      have hkept : Kept s.ground g' :=
        (boot_kept (newHttp config).run s.ground trivial id).2 r' g' hrun
      by_cases hb : isBootstrap (.newHttp config : StartOp Url Addr) r' = true
      · have hok : r' = .ok true := by
          cases r' with
          | error e => cases hb
          | ok b => exact congrArg Except.ok hb
        obtain ⟨hnew, hdone⟩ := (newHttp_bootstraps config s.ground trivial id).2 r' g' hrun hok
        unfold Accounted at h ⊢
        rw [bootstraps_snoc, if_pos hb, hdone]
        rw [hnew] at h
        exact Nat.add_le_add_right h 1
      · exact h.other (Bool.eq_false_iff.mpr hb) hkept
  | _ =>
      cases hp
      exact h.other rfl fun hg => by
        change (s.ground.initialized || _) = true
        rw [hg]
        rfl

theorem lives_accounted {p : Platform Url Addr}
    {lives : List (Args Url × Transcript (Env Url Addr))} {g : Ground} (h : Lives p lives g) :
    (lives.map fun life => bootstraps life.2).sum ≤ g.initialized.toNat := by
  induction h with
  | fresh => exact Nat.le_refl 0
  | life args _ hcut ih =>
      rw [List.map_append, List.sum_append]
      exact hcut.keeps (I := Accounted _) ih accounted_step
  | opening args config _ hcut hopen ih =>
      rw [List.map_append, List.sum_append]
      have hs := hcut.keeps (I := Accounted _) ih accounted_step
      refine le_trans hs (kept_toNat ?_)
      exact hopen.keeps (I := Kept _) id fun g _ _ _ g' hg hp h₀ => perform_kept hp (hg h₀)

theorem perform_told (s : Scene Url Addr) (o : StartOp Url Addr) (x : Fate Url Addr)
    (r : o.Reply) (s' : Scene Url Addr) (hp : s.perform o x = some (r, s')) :
    s'.told = s.told ++ [⟨o, r⟩] := by
  cases o with
  | newHttp config =>
      obtain ⟨q, -, heq⟩ := Option.map_eq_some_iff.mp hp
      cases heq
      rfl
  | _ =>
      cases hp
      rfl

theorem cut_proper {p : Platform Url Addr} {args : Args Url} {g : Ground} {s : Scene Url Addr}
    (h : Cut Scene.perform (main p args).run ⟨[], g⟩ s) : Proper args s.told := by
  have hcut := record_of_cut Scene.told perform_told Fate.answer h
  exact main_proper p args s.told hcut

/-- Every life follows the protocol of the process. -/
theorem lives_proper {p : Platform Url Addr}
    {lives : List (Args Url × Transcript (Env Url Addr))} {g : Ground} (h : Lives p lives g) :
    ∀ life ∈ lives, Proper life.1 life.2 := by
  induction h with
  | fresh => exact fun _ hlife => absurd hlife List.not_mem_nil
  | life args _ hcut ih | opening args config _ hcut _ ih =>
      intro life hlife
      rcases List.mem_append.mp hlife with hlife | hlife
      · exact ih life hlife
      · rw [List.mem_singleton.mp hlife]
        exact cut_proper hcut

/-- What the services are started with is what the preparation vouches for. -/
theorem Proper.prepared {args : Args Url} {told : Transcript (Env Url Addr)} (h : Proper args told)
    {services : Services Url Addr} {ended : Except Failure Unit}
    (hmem : ⟨.select services, ended⟩ ∈ told) :
    ∃ profiling before rest, told = before ++ rest ∧
      Prepared args services profiling before := by
  rcases h with (hreading | ⟨-, hstage⟩) | ⟨services', profiling, ended', rest, hstarted, hleaving⟩
  · obtain ⟨path, hop⟩ := hreading _ hmem
    cases hop
  · exact absurd (hstage.early _ hmem) Bool.false_ne_true
  · obtain ⟨before, rfl, hprepared⟩ := hstarted
    rcases List.mem_append.mp hmem with hmem | hmem
    · exact absurd (hprepared.stage.early _ hmem) Bool.false_ne_true
    · rcases List.mem_cons.mp hmem with heq | hmem
      · cases heq
        exact ⟨profiling, before, _, rfl, hprepared⟩
      · cases hleaving <;> simp at hmem

/-- The node is bootstrapped in one life at most, and a life that starts its services
paused against its arguments is that life. -/
theorem bootstrap_pauses_once {p : Platform Url Addr}
    {lives : List (Args Url × Transcript (Env Url Addr))} {g : Ground} (h : Lives p lives g) :
    (lives.map fun life => bootstraps life.2).sum ≤ 1 ∧
    ∀ life ∈ lives, ∀ services ended, ⟨.select services, ended⟩ ∈ life.2 →
      services.settings.startPaused ≠ life.1.paused → bootstraps life.2 = 1 := by
  have hsum : (lives.map fun life => bootstraps life.2).sum ≤ 1 :=
    (lives_accounted h).trans (Bool.toNat_le _)
  refine ⟨hsum, fun life hlife services ended hmem hpaused => ?_⟩
  obtain ⟨profiling, before, rest, htold, hprepared⟩ := (lives_proper h life hlife).prepared hmem
  obtain ⟨config, bootstrapped, hopened, heq⟩ := hprepared.opened
  have hb : bootstrapped = true := by
    cases bootstrapped with
    | true => rfl
    | false => exact absurd (heq.trans (Bool.or_false _)) hpaused
  have hpos : 0 < bootstraps life.2 := by
    refine List.countP_pos_iff.mpr ⟨⟨.newHttp config, .ok bootstrapped⟩, ?_, hb⟩
    rw [htold]
    exact List.mem_append_left _ hopened
  obtain ⟨earlier, later, rfl⟩ := List.append_of_mem hlife
  rw [List.map_append, List.map_cons, List.sum_append, List.sum_cons] at hsum
  omega

end

def bootArgs : Args String := { plainArgs with raftBootstrap := true }

def willingCore : Whim where
  answer
    | .openStore _ _ | .validate _ | .raftNew _ _ | .raftInitialize _ => .ok ()
    | .isInitialized => .ok true
    | .spawnSnapshotLoop _ _ => ()
  joined _ := false
  refusal := "not allowed to initialize"

/-- The node is not up yet. -/
def impatient : Answers String String
  | .conductorEnabled => .error (.rpc (.http "connection refused"))
  | o => calm o

def isSelect : StartOp String String → Bool
  | .select _ => true
  | _ => false

/-- The services are started, and not paused. -/
def isUnpaused : StartOp String String → Bool
  | .select services => !services.settings.startPaused
  | _ => false

/-- The node is bootstrapped, and the services are not started. -/
def gaveUp (s : Scene String String) : Bool :=
  bootstraps s.told == 1 && !(s.told.any fun e => isSelect e.op) && s.ground.initialized

/-- The first life bootstraps the cluster and gives up on the node; the second finds
the node up and runs its services, not paused. -/
theorem bootstrap_pause_lost :
    ∃ first second g, Lives plainPlatform [(bootArgs, first), (bootArgs, second)] g ∧
      bootstraps first = 1 ∧ (first.any fun e => isSelect e.op) = false ∧
      bootstraps second = 0 ∧ (second.any fun e => isUnpaused e.op) = true := by
  have hfirst : (execute Scene.perform ⟨impatient, willingCore, false⟩
      (main plainPlatform bootArgs).run ⟨[], ⟨false⟩⟩).any (fun q => gaveUp q.2) = true := by
    decide +kernel
  obtain ⟨_, s, hrun, hs⟩ := runs_of_execute hfirst
  rw [gaveUp, Bool.and_eq_true, Bool.and_eq_true, beq_iff_eq, Bool.not_eq_true'] at hs
  have hsecond : (execute Scene.perform ⟨calm, willingCore, false⟩
      (main plainPlatform bootArgs).run ⟨[], ⟨true⟩⟩).any
        (fun q => q.2.told.any fun e => isUnpaused e.op) = true := by
    decide +kernel
  obtain ⟨_, s', hrun', hs'⟩ := runs_of_execute hsecond
  have hground : s.ground = ⟨true⟩ := congrArg Ground.mk hs.2
  rw [← hground] at hrun'
  have hlives : Lives plainPlatform [(bootArgs, s.told), (bootArgs, s'.told)] s'.ground :=
    .life bootArgs (.life bootArgs .fresh hrun.cut) hrun'.cut
  have hsum := (bootstrap_pauses_once hlives).1
  simp only [List.map_cons, List.map_nil, List.sum_cons, List.sum_nil, hs.1.1] at hsum
  exact ⟨s.told, s'.told, s'.ground, hlives, hs.1.1, hs.1.2, by omega, hs'⟩

end ConductorRs.Startup
