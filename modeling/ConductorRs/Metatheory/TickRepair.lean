import ConductorRs.Concurrency.Total
import ConductorRs.Core.ConductorSite
import ConductorRs.Metatheory.Control

/-!
One undisturbed tick repairs a site.

Whatever the memory of the conductor says about its sequencer, a tick that is told
whether the sequencer is active and that ends well leaves a sequencer running only
at a leader, and at a healthy leader it leaves one running. No tick, however it
ends, starts a sequencer at a follower. Every tick comes to its end.
-/
namespace ConductorRs.Conductor
open Concurrency

namespace Site

/-- A point inside a tick. What the conductor believes about its sequencer and
whether it runs are apart. -/
structure At (held : Bool) (health : Health) (previous : State) (leads believes runs : Bool)
    (s : Site) : Prop where
  enabled : ∀ flag, flag ≠ .seqActive → s.mem.flags flag = false
  lock : s.mem.owner .action = if held then some () else none
  healthy : s.mem.healthy = health
  previous : s.mem.previous = previous
  leader : s.leader = leads
  active : s.mem.flags .seqActive = believes
  running : s.running = runs

/-- Operations that leave the site as it is, but for the count of tolerated checks. -/
def quiet : Op → Bool
  | .load _ | .cloneHealthy | .copyPrevious | .tolerate _ _ | .metric _ | .probe _ => true
  | .consensus .serverId | .consensus .leader | .consensus .membership => true
  | .consensus .latestUnsafePayload | .sequencer .sequencerActive => true
  | .sequencer .latestUnsafeBlock | .sequencer (.blockByNumber _) => true
  | .sequencer (.postUnsafePayload _) | .sequencer .syncStatus | .sequencer .peerStats => true
  | _ => false

section
variable {manners : Manners} {held : Bool} {health : Health} {previous : State}
variable {leads believes runs : Bool}

abbrev logic (manners : Manners) : Logic Shared Site := totalLogic (Site.perform manners)

/-- An answer that the state decides. -/
theorem look_holds {A : Site → Prop} {o : Op} {v : o.Reply}
    (h : ∀ s x, A s → Site.perform manners s o x = some (v, s)) :
    (logic manners).Holds A (op o) fun r s => r = v ∧ A s := by
  refine totalLogic_call (fun s hA => ?_) fun s x r s' hA hp => ?_
  · exact ⟨⟨.refuse, none, true⟩, v, s, h s _ hA⟩
  · rw [h s x hA] at hp
    cases hp
    exact ⟨rfl, hA⟩

theorem memory_holds {A : Site → Prop} {o : Op} {Q : o.Reply → Site → Prop}
    (he : o.external = false) (hready : ∀ s, A s → ∃ p, s.mem.perform () o = some p)
    (h : ∀ s r m, A s → s.mem.perform () o = some (r, m) → Q r { s with mem := m }) :
    (logic manners).Holds A (op o) Q := by
  have hperform : ∀ (s : Site) (x : SiteChoice), Site.perform manners s o x =
      (s.mem.perform () o).map fun p => (p.1, { s with mem := p.2 }) := by
    intro s x
    rw [Site.perform, if_neg (by simp [he])]
  refine totalLogic_call (fun s hA => ?_) fun s x r s' hA hp => ?_
  · obtain ⟨⟨r, m⟩, hm⟩ := hready s hA
    exact ⟨⟨.refuse, none, true⟩, r, { s with mem := m }, by rw [hperform, hm]; rfl⟩
  · rw [hperform, Option.map_eq_some_iff] at hp
    obtain ⟨⟨r', m⟩, hm, heq⟩ := hp
    cases heq
    exact h s _ m hA hm

def recount (s : Site) (counter : TimeBoundedCounter) : Site :=
  { s with mem := { s.mem with counter } }

theorem At.recount {s : Site} (h : At held health previous leads believes runs s)
    (counter : TimeBoundedCounter) :
    At held health previous leads believes runs (s.recount counter) :=
  ⟨h.enabled, h.lock, h.healthy, h.previous, h.leader, h.active, h.running⟩

theorem quiet_step (manners : Manners) {o : Op} (hq : quiet o = true) (s : Site) (x : SiteChoice) :
    ∃ r counter, Site.perform manners s o x = some (r, s.recount counter) := by
  cases o with
  | load flag => exact ⟨s.mem.flags flag, s.mem.counter, rfl⟩
  | cloneHealthy => exact ⟨s.mem.healthy, s.mem.counter, rfl⟩
  | copyPrevious => exact ⟨s.mem.previous, s.mem.counter, rfl⟩
  | metric m => exact ⟨(), s.mem.counter, rfl⟩
  | tolerate now tolerance =>
      by_cases hlimit : tolerance.limit ≤ s.mem.counter.currentValue now tolerance.interval
      · refine ⟨false, s.mem.counter, ?_⟩
        simp only [Site.perform, Op.external, Memory.perform, if_pos hlimit]
        rfl
      · refine ⟨true, (s.mem.counter.increment now tolerance.interval).2, ?_⟩
        simp only [Site.perform, Op.external, Memory.perform, if_neg hlimit]
        rfl
  | probe o => exact ⟨x.oracle (.probe o), s.mem.counter, rfl⟩
  | consensus o =>
      cases o with
      | leader => exact ⟨s.leader, s.mem.counter, rfl⟩
      | serverId | membership | latestUnsafePayload => exact ⟨x.oracle _, s.mem.counter, rfl⟩
      | _ => cases hq
  | sequencer o =>
      cases o with
      | sequencerActive =>
          refine ⟨(s.tell manners x).1, s.mem.counter, ?_⟩
          change some (s.tell manners x) = some ((s.tell manners x).1, s)
          unfold Site.tell
          split <;> rfl
      | latestUnsafeBlock | blockByNumber _ | postUnsafePayload _ | syncStatus | peerStats =>
          exact ⟨x.oracle _, s.mem.counter, rfl⟩
      | _ => cases hq
  | _ => cases hq

theorem quiet_holds {o : Op} (hq : quiet o = true) :
    (logic manners).Holds (At held health previous leads believes runs) (op o)
      fun _ => At held health previous leads believes runs := by
  refine totalLogic_call (fun s _ => ?_) fun s x r s' hA hp => ?_
  · obtain ⟨r, counter, hp⟩ := quiet_step manners hq s ⟨.refuse, none, true⟩
    exact ⟨_, r, _, hp⟩
  · obtain ⟨r', counter, hp'⟩ := quiet_step manners hq s x
    rw [hp'] at hp
    cases hp
    exact hA.recount counter

theorem store_holds (value : Bool) :
    (logic manners).Holds (At held health previous leads believes runs)
      (op (.store .seqActive value)) fun _ => At held health previous leads value runs := by
  refine memory_holds rfl (fun s _ => ⟨_, rfl⟩) fun s r m hA hp => ?_
  cases hp
  have hself : Function.update s.mem.flags .seqActive value .seqActive = value :=
    Function.update_self ..
  refine ⟨fun flag hflag => ?_, hA.lock, hA.healthy, hA.previous, hA.leader, hself, hA.running⟩
  exact (Function.update_of_ne hflag ..).trans (hA.enabled flag hflag)

/-- A control call that ends well leaves the sequencer and the flag as it wants
them; otherwise both are as they were. -/
def Turned (φ : Prop) (held : Bool) (health : Health) (previous : State)
    (leads believes runs target : Bool) {α : Type} : Except ConductorError α → Site → Prop
  | .ok _, s => At held health previous leads target target s
  | .error _, s => φ ∧ At held health previous leads believes runs s

/-- What a control call has done by its reply. -/
def Replied (φ : Prop) (held : Bool) (health : Health) (previous : State)
    (leads believes runs target : Bool) (already : SequencerError → Bool) {α : Type} :
    Except SequencerError α → Site → Prop
  | .ok _, s => At held health previous leads believes target s
  | .error err, s => At held health previous leads believes runs s ∧
      (already err = true → runs = target) ∧ (already err = false → φ)

theorem Replied.imp {φ ψ : Prop} {target : Bool} {already : SequencerError → Bool} {α : Type}
    {r : Except SequencerError α} {s : Site}
    (h : Replied φ held health previous leads believes runs target already r s) (hφ : φ → ψ) :
    Replied ψ held health previous leads believes runs target already r s := by
  cases r with
  | ok a => exact h
  | error err => exact ⟨h.1, h.2.1, fun herr => hφ (h.2.2 herr)⟩

/-- A start or a stop, by the turn it makes of the sequencer. -/
theorem control_holds {o : SequencerOp} {target : Bool} {already : SequencerError → Bool}
    (turn : Site → SequencerControl.Reply o × Site)
    (hanswer : ∀ (s : Site) x, Site.perform manners s (.sequencer o) x =
      s.control manners x (turn s))
    (hturn : ∀ s, At held health previous leads believes runs s →
      Replied False held health previous leads believes runs target already (turn s).1 (turn s).2)
    (hplain : ∀ err : SequencerError, err.isSequencerAlreadyStarted = false →
      err.isSequencerAlreadyStopped = false → already err = false) :
    (logic manners).Holds (At held health previous leads believes runs) (op (.sequencer o))
      (Replied (manners.obeys = false) held health previous leads believes runs target
        already) := by
  refine totalLogic_call (fun s _ => ⟨⟨.refuse, none, true⟩, (turn s).1, (turn s).2, ?_⟩)
    fun s x r s' hA hp => ?_
  · rw [hanswer]
    rfl
  · rw [hanswer, Site.control] at hp
    cases hrefused : x.refused with
    | none =>
        rw [hrefused] at hp
        have hreply := hturn s hA
        rw [Option.some.inj hp] at hreply
        exact hreply.imp False.elim
    | some err =>
        rw [hrefused] at hp
        dsimp only at hp
        split at hp
        · cases hp
        · next hrefuse =>
            cases hp
            simp only [Bool.or_eq_true, not_or, Bool.not_eq_true] at hrefuse
            obtain ⟨⟨hobeys, hstarted⟩, hstopped⟩ := hrefuse
            refine ⟨hA, fun halready => ?_, fun _ => hobeys⟩
            rw [hplain err hstarted hstopped] at halready
            cases halready

theorem stop_replied {s : Site} (hA : At held health previous leads believes runs s) :
    Replied False held health previous leads believes runs false
      SequencerError.isSequencerAlreadyStopped s.stop.1 s.stop.2 := by
  have hnot : notRunning.isSequencerAlreadyStopped = true := by decide
  unfold Site.stop
  cases hrunning : s.running with
  | true => exact ⟨hA.enabled, hA.lock, hA.healthy, hA.previous, hA.leader, hA.active, rfl⟩
  | false =>
      refine ⟨hA, fun _ => hA.running.symm.trans hrunning, fun herr => ?_⟩
      rw [hnot] at herr
      cases herr

theorem start_replied {s : Site} (hA : At held health previous leads believes runs s) :
    Replied False held health previous leads believes runs true
      SequencerError.isSequencerAlreadyStarted s.start.1 s.start.2 := by
  have hnot : alreadyRunning.isSequencerAlreadyStarted = true := by decide
  unfold Site.start
  cases hrunning : s.running with
  | false => exact ⟨hA.enabled, hA.lock, hA.healthy, hA.previous, hA.leader, hA.active, rfl⟩
  | true =>
      refine ⟨hA, fun _ => hA.running.symm.trans hrunning, fun herr => ?_⟩
      rw [hnot] at herr
      cases herr

theorem metric_holds {A : Site → Prop} (m : Metric) :
    (logic manners).Holds A (op (.metric m)) fun _ => A :=
  (logic manners).post (look_holds (v := ()) fun _ _ _ => rfl) fun _ _ h => h.2

theorem stopSequencer_holds :
    (logic manners).Holds (At held health previous leads believes runs) stopSequencer
      (Turned (manners.obeys = false) held health previous leads believes runs false) := by
  refine (logic manners).bind (control_holds Site.stop (fun _ _ => rfl)
    (fun _ => stop_replied) fun _ _ h => h) fun r => ?_
  cases r with
  | ok hash =>
      refine (logic manners).bind (store_holds false) fun _ => ?_
      exact (logic manners).bind (metric_holds _) fun _ => (logic manners).done fun _ _ h => h
  | error err =>
      dsimp only
      split
      · next halready =>
          refine (logic manners).pre (B := fun s => runs = false ∧
            At held health previous leads believes runs s)
            (fun s h => ⟨h.2.1 halready, h.1⟩) (totalLogic_fact fun hruns => ?_)
          subst hruns
          refine (logic manners).bind (store_holds false) fun _ => ?_
          exact (logic manners).bind (metric_holds _) fun _ => (logic manners).done fun _ _ h => h
      · next halready =>
          refine (logic manners).bind (metric_holds _) fun _ => (logic manners).done ?_
          exact fun s _ h => ⟨h.2.2 (Bool.eq_false_of_not_eq_true halready), h.1⟩

theorem sendStart_holds (hash : Hash) :
    (logic manners).Holds (At held health previous leads believes runs) (sendStart hash)
      (Turned True held health previous leads believes runs true) := by
  refine (logic manners).bind (control_holds Site.start (fun _ _ => rfl)
    (fun _ => start_replied) fun _ h _ => h) fun r => ?_
  cases r with
  | ok u =>
      exact (logic manners).bind (store_holds true) fun _ => (logic manners).done fun _ _ h => h
  | error err =>
      dsimp only
      split
      · next halready =>
          refine (logic manners).pre (B := fun s => runs = true ∧
            At held health previous leads believes runs s)
            (fun s h => ⟨h.2.1 halready, h.1⟩) (totalLogic_fact fun hruns => ?_)
          subst hruns
          exact (logic manners).bind (store_holds true) fun _ =>
            (logic manners).done fun _ _ h => h
      · exact (logic manners).done fun s _ h => ⟨trivial, h.1⟩

theorem preparing_quiet {o : Op} (h : Preparing o) : quiet o = true := by
  cases o with
  | sequencer o => cases o <;> first | rfl | cases h
  | _ => cases h

theorem startBody_holds (cfg : ConductorConfig) :
    (logic manners).Holds (At held health previous leads believes runs) (startBody cfg).run
      (Turned True held health previous leads believes runs true) := by
  have hfail : ∀ (err : ConductorError) (s : Site), True →
      At held health previous leads believes runs s →
      True ∧ At held health previous leads believes runs s := fun _ _ _ h => ⟨trivial, h⟩
  refine (logic manners).bindExcept (R := fun _ => At held health previous leads believes runs)
    ?_ (fun latest => ?_) hfail
  · exact (logic manners).bind (quiet_holds rfl) fun _ => (logic manners).done fun _ _ h => h
  · cases latest with
    | none => exact (logic manners).done fun _ _ h => ⟨trivial, h⟩
    | some payload =>
        refine (logic manners).bindPure (fun hash _ => ?_) hfail
        refine (logic manners).bindPure (fun number _ => ?_) hfail
        refine (logic manners).bindExcept
          (R := fun _ => At held health previous leads believes runs)
          ((logic manners).all (p := fun o => quiet o = true) (fun _ => quiet_holds)
            (all_sequencer rfl)) (fun head => ?_) hfail
        refine (logic manners).bindExcept
          (R := fun _ => At held health previous leads believes runs)
          ((logic manners).all (fun _ ho => quiet_holds (preparing_quiet ho))
            (startHash_preparing _ _ _ _)) (fun start => ?_) hfail
        exact sendStart_holds start

theorem startSequencer_holds (cfg : ConductorConfig) :
    (logic manners).Holds (At held health previous leads believes runs) (startSequencer cfg)
      (Turned True held health previous leads believes runs true) := by
  refine (logic manners).bind (startBody_holds cfg) fun r => ?_
  cases r with
  | ok already =>
      exact (logic manners).bind (metric_holds _) fun _ => (logic manners).done fun _ _ h => h
  | error err =>
      exact (logic manners).bind (metric_holds _) fun _ => (logic manners).done fun _ _ h => h

/-- Leadership is one of those that may be. -/
def Led (may : Bool → Prop) (held : Bool) (health : Health) (previous : State)
    (believes runs : Bool) (s : Site) : Prop :=
  ∃ still, may still ∧ At held health previous still believes runs s

/-- A leader may still lead or not, a follower does not. -/
def Lost (leads still : Bool) : Prop := still = true → leads = true

theorem transfer_step (manners : Manners) {o : Op} (ho : Transferring o) (s : Site)
    (x : SiteChoice) : ∃ r s', Site.perform manners s o x = some (r, s') ∧
      (s' = s ∨ s' = s.handOver x) := by
  cases o with
  | metric m => exact ⟨(), s, rfl, .inl rfl⟩
  | consensus o =>
      cases o with
      | leader => exact ⟨s.leader, s, rfl, .inl rfl⟩
      | serverId | membership => exact ⟨x.oracle _, s, rfl, .inl rfl⟩
      | setLeaderForTests leader => exact ⟨(), s.handOver x, rfl, .inr rfl⟩
      | transferLeader | transferLeaderTo id addr =>
          exact ⟨x.oracle _, s.handOver x, rfl, .inr rfl⟩
      | _ => cases ho
  | _ => cases ho

theorem transfer_holds {o : Op} (ho : Transferring o) :
    (logic manners).Holds (Led (Lost leads) held health previous believes runs) (op o)
      fun _ => Led (Lost leads) held health previous believes runs := by
  refine totalLogic_call (fun s _ => ?_) fun s x r s' hA hp => ?_
  · obtain ⟨r, s', hp, -⟩ := transfer_step manners ho s ⟨.refuse, none, true⟩
    exact ⟨_, r, s', hp⟩
  · obtain ⟨r', s₁, hp', hs₁⟩ := transfer_step manners ho s x
    rw [hp'] at hp
    cases hp
    obtain ⟨still, hstill, hat⟩ := hA
    rcases hs₁ with rfl | rfl
    · exact ⟨still, hstill, hat⟩
    · refine ⟨still && x.leading, fun h => hstill (Bool.and_eq_true_iff.mp h).1, ?_⟩
      exact ⟨hat.enabled, hat.lock, hat.healthy, hat.previous,
        congrArg (· && x.leading) hat.leader, hat.active, hat.running⟩

theorem At.led {s : Site} {may : Bool → Prop} (h : At held health previous leads believes runs s)
    (hmay : may leads) : Led may held health previous believes runs s :=
  ⟨leads, hmay, h⟩

theorem transferLeaderInternal_holds (cfg : ConductorConfig) :
    (logic manners).Holds (Led (Lost leads) held health previous believes runs)
      (transferLeaderInternal cfg) fun _ => Led (Lost leads) held health previous believes runs :=
  (logic manners).all (fun _ => transfer_holds) transferLeaderInternal_transferring

/-- What a reaction to an observed state has made of the site. -/
structure Reacted (manners : Manners) (held : Bool) (health : Health) (previous : State)
    (leads believes runs : Bool) (out : Outcome) (s : Site) : Prop where
  enabled : ∀ flag, flag ≠ .seqActive → s.mem.flags flag = false
  lock : s.mem.owner .action = if held then some () else none
  led : s.leader = true → leads = true
  stays : leads = false → s.running = true → runs = true
  known : believes = runs → s.Known
  settled : out.isOk = true → believes = runs → s.Settled
  healthy : s.mem.healthy = health
  fresh : out.isOk = true → believes = runs → s.leader = true → s.running = true →
    health.isHealthy = false → previous.leader = false ∧ runs = false
  obeyed : manners.obeys = true → leads = false → out.isOk = true

theorem Reacted.of_led {s : Site} {out : Outcome} {may : Bool → Prop} {previous' : State}
    {active running : Bool} (h : Led may true health previous' active running s)
    (hled : ∀ still, may still → Lost leads still)
    (hstays : leads = false → running = true → runs = true)
    (hknown : believes = runs → active = running)
    (hsettled : out.isOk = true → believes = runs → ∀ still, may still →
      (still = false → running = false) ∧
      (still = true → health.isHealthy = true → running = true) ∧
      (still = true → running = true → health.isHealthy = false →
        previous.leader = false ∧ runs = false))
    (hobeyed : manners.obeys = true → leads = false → out.isOk = true) :
    Reacted manners true health previous leads believes runs out s := by
  obtain ⟨still, hstill, hat⟩ := h
  refine ⟨hat.enabled, hat.lock, fun hl => hled still hstill (hat.leader.symm.trans hl),
    fun hl hr => hstays hl (hat.running.symm.trans hr), fun hb => ?_,
    fun ho hb => ⟨fun hl => ?_, fun hl hh => ?_⟩, hat.healthy, fun ho hb hl hr hh => ?_, hobeyed⟩
  · exact hat.active.trans ((hknown hb).trans hat.running.symm)
  · exact hat.running.trans ((hsettled ho hb still hstill).1 (hat.leader.symm.trans hl))
  · rw [hat.healthy] at hh
    exact hat.running.trans ((hsettled ho hb still hstill).2.1 (hat.leader.symm.trans hl) hh)
  · exact (hsettled ho hb still hstill).2.2 (hat.leader.symm.trans hl)
      (hat.running.symm.trans hr) hh

theorem settle_holds {Q : Outcome → Site → Prop} (status : State) (result : Outcome)
    {may : Bool → Prop}
    (h : ∀ previous' s, Led may held health previous' believes runs s → Q result s) :
    (logic manners).Holds (Led may held health previous believes runs)
      (settle status result) Q := by
  cases result with
  | error err => exact (logic manners).done fun s _ hs => h previous s hs
  | ok u =>
      have hupdate : (logic manners).Holds (Led may held health previous believes runs)
          (op (.updatePrevious status)) fun _ => Led may held health status believes runs := by
        refine memory_holds rfl (fun s _ => ⟨_, rfl⟩) fun s r m hA hp => ?_
        cases hp
        obtain ⟨still, hstill, hat⟩ := hA
        exact ⟨still, hstill, hat.enabled, hat.lock, hat.healthy, rfl, hat.leader, hat.active,
          hat.running⟩
      refine (logic manners).bind hupdate fun changed => ?_
      cases changed with
      | true =>
          exact (logic manners).bind (metric_holds _) fun _ =>
            (logic manners).done fun s _ hs => h status s hs
      | false => exact (logic manners).done fun s _ hs => h status s hs

/-- A reaction that leaves leadership alone. -/
theorem settled_holds {status : State} {result : Outcome} {active running : Bool}
    (hstays : leads = false → running = true → runs = true)
    (hknown : believes = runs → active = running)
    (hsettled : result.isOk = true → believes = runs →
      (leads = false → running = false) ∧
      (leads = true → health.isHealthy = true → running = true) ∧
      (leads = true → running = true → health.isHealthy = false →
        previous.leader = false ∧ runs = false))
    (hobeyed : manners.obeys = true → leads = false → result.isOk = true) :
    (logic manners).Holds (At true health previous leads active running) (settle status result)
      (Reacted manners true health previous leads believes runs) := by
  refine (logic manners).pre (fun s h => h.led rfl)
    (settle_holds status result fun _ s hs => ?_)
  refine .of_led hs (fun _ h hl => h.trans hl) hstays hknown (fun ho hb still h => ?_) hobeyed
  rw [← h]
  exact hsettled ho hb

/-- A follower that believes its sequencer to be active stops it. -/
theorem react_follower_active (cfg : ConductorConfig) (healthy : Bool) :
    (logic manners).Holds (At true health previous false true runs)
      (react cfg health ⟨false, healthy, true⟩)
      (Reacted manners true health previous false true runs) := by
  refine (logic manners).bind stopSequencer_holds fun r => ?_
  cases r with
  | ok u => exact settled_holds (by simp) (by simp) (by simp) fun _ _ => rfl
  | error err =>
      refine totalLogic_fact fun hrefused => ?_
      refine settled_holds (by simp) id (nofun) fun hobeys _ => ?_
      rw [hrefused] at hobeys
      cases hobeys

theorem react_follower_idle (cfg : ConductorConfig) (healthy : Bool) :
    (logic manners).Holds (At true health previous false false runs)
      (react cfg health ⟨false, healthy, false⟩)
      (Reacted manners true health previous false false runs) := by
  change (logic manners).Holds _ (settle _ (.ok ())) _
  exact settled_holds (by simp) id (by simp +contextual) fun _ _ => rfl

theorem react_healthy_active (cfg : ConductorConfig) (hhealthy : health.isHealthy = true) :
    (logic manners).Holds (At true health previous true true runs)
      (react cfg health ⟨true, true, true⟩)
      (Reacted manners true health previous true true runs) := by
  change (logic manners).Holds _ (settle _ (.ok ())) _
  exact settled_holds nofun id (by simp [hhealthy]) nofun

theorem react_healthy_idle (cfg : ConductorConfig) (hhealthy : health.isHealthy = true) :
    (logic manners).Holds (At true health previous true false runs)
      (react cfg health ⟨true, true, false⟩)
      (Reacted manners true health previous true false runs) := by
  refine (logic manners).bind (startSequencer_holds cfg) fun r => ?_
  cases r with
  | ok u => exact settled_holds nofun (fun _ => rfl) (by simp [hhealthy]) nofun
  | error err => exact totalLogic_fact fun _ => settled_holds nofun id nofun nofun

/-- A hand-over at a node whose sequencer does not run, as far as is known. -/
theorem transferAndSettle_holds (cfg : ConductorConfig) {status : State}
    (hhealthy : health.isHealthy = false) :
    (logic manners).Holds (At true health previous true false runs)
      ((transferLeaderInternal cfg).bind (settle status))
      (Reacted manners true health previous true false runs) := by
  have htransfer : (logic manners).Holds (Led (Lost true) true health previous false runs)
      (transferLeaderInternal cfg) fun _ => Led (Lost true) true health previous false runs :=
    transferLeaderInternal_holds cfg
  refine (logic manners).bind ((logic manners).pre (fun s h => h.led id) htransfer) fun r => ?_
  refine settle_holds _ _ fun _ s hs => ?_
  exact .of_led hs (fun _ h => h) nofun id (by simp +contextual [hhealthy]) nofun

theorem react_unhealthy_idle (cfg : ConductorConfig) (hhealthy : health.isHealthy = false) :
    (logic manners).Holds (At true health previous true false runs)
      (react cfg health ⟨true, false, false⟩)
      (Reacted manners true health previous true false runs) := by
  refine (logic manners).bind (look_holds (v := previous) fun s x h => ?_) fun prev => ?_
  · rw [← h.previous]
    rfl
  · refine totalLogic_fact fun hprev => ?_
    subst hprev
    split
    · next hnew =>
        refine (logic manners).bind (startSequencer_holds cfg) fun r => ?_
        cases r with
        | ok u =>
            refine settled_holds nofun (fun _ => rfl) (fun _ hb => ?_) nofun
            simp_all
        | error err => exact totalLogic_fact fun _ => transferAndSettle_holds cfg hhealthy
    · exact transferAndSettle_holds cfg hhealthy

/-- A stop and a hand-over that end well have stopped the sequencer. -/
def HandedOver (health : Health) (previous : State) (runs : Bool) : Outcome → Site → Prop
  | .ok _, s => Led (Lost true) true health previous false false s
  | .error _, s => ∃ active running, (true = runs → active = running) ∧
      Led (Lost true) true health previous active running s

theorem stopAndTransferLeader_holds (cfg : ConductorConfig) :
    (logic manners).Holds (At true health previous true true runs) (stopAndTransferLeader cfg)
      (HandedOver health previous runs) := by
  have htransfer : ∀ believes runs, (logic manners).Holds
      (At true health previous true believes runs) (transferLeaderInternal cfg)
      fun _ => Led (Lost true) true health previous believes runs := fun _ _ =>
    (logic manners).pre (fun s h => h.led id) (transferLeaderInternal_holds cfg)
  refine (logic manners).bind stopSequencer_holds fun stopped => ?_
  cases stopped with
  | ok u =>
      refine (logic manners).bind (htransfer false false) fun transferred => ?_
      cases transferred with
      | ok u => exact (logic manners).done fun s _ h => h
      | error err => exact (logic manners).done fun s _ h => ⟨false, false, fun _ => rfl, h⟩
  | error stop =>
      refine totalLogic_fact fun _ => ?_
      refine (logic manners).bind (htransfer true runs) fun transferred => ?_
      cases transferred with
      | ok u => exact (logic manners).done fun s _ h => ⟨true, runs, id, h⟩
      | error err => exact (logic manners).done fun s _ h => ⟨true, runs, id, h⟩

theorem react_unhealthy_active (cfg : ConductorConfig) (hhealthy : health.isHealthy = false) :
    (logic manners).Holds (At true health previous true true runs)
      (react cfg health ⟨true, false, true⟩)
      (Reacted manners true health previous true true runs) := by
  refine (logic manners).bind ((logic manners).bind (quiet_holds rfl) fun prev =>
    (logic manners).done (Q := fun _ => At true health previous true true runs)
      fun _ _ h => h) fun wait => ?_
  cases wait with
  | true =>
      refine (logic manners).done fun s _ h => ?_
      exact .of_led (h.led rfl) (fun _ h hl => h.trans hl) nofun id nofun nofun
  | false =>
      refine (logic manners).bind (stopAndTransferLeader_holds cfg) fun r => ?_
      cases r with
      | ok u =>
          refine settle_holds _ _ fun _ s hs => ?_
          exact .of_led hs (fun _ h => h) nofun (fun _ => rfl) (by simp [hhealthy]) nofun
      | error err =>
          refine (logic manners).done fun s _ h => ?_
          obtain ⟨active, running, hknown, hled⟩ := h
          exact .of_led hled (fun _ h => h) nofun hknown nofun nofun

theorem react_holds (cfg : ConductorConfig) :
    (logic manners).Holds (At true health previous leads believes runs)
      (react cfg health ⟨leads, health.isHealthy, believes⟩)
      (Reacted manners true health previous leads believes runs) := by
  cases leads with
  | false =>
      cases believes with
      | false => exact react_follower_idle cfg _
      | true => exact react_follower_active cfg _
  | true =>
      cases hhealthy : health.isHealthy with
      | false =>
          cases believes with
          | false => exact react_unhealthy_idle cfg hhealthy
          | true => exact react_unhealthy_active cfg hhealthy
      | true =>
          cases believes with
          | false => exact react_healthy_idle cfg hhealthy
          | true => exact react_healthy_active cfg hhealthy

theorem load_holds {A : Site → Prop} {flag : Flag} {value : Bool}
    (h : ∀ s, A s → s.mem.flags flag = value) :
    (logic manners).Holds A (op (.load flag)) fun r s => r = value ∧ A s := by
  refine look_holds fun s x hA => ?_
  rw [← h s hA]
  rfl

theorem stoppingOrStopped_holds {A : Site → Prop}
    (h : ∀ s, A s → ∀ flag, flag ≠ .seqActive → s.mem.flags flag = false) :
    (logic manners).Holds A stoppingOrStopped fun r s => r = false ∧ A s := by
  refine (logic manners).bind (load_holds fun s hA => h s hA .stopping (by decide)) fun r => ?_
  refine totalLogic_fact fun hr => ?_
  subst hr
  exact load_holds fun s hA => h s hA .stopped (by decide)

theorem actionLocked_holds (cfg : ConductorConfig) :
    (logic manners).Holds (At true health previous leads believes runs) (actionLocked cfg)
      (Reacted manners true health previous leads believes runs) := by
  refine (logic manners).bind (load_holds fun s h => h.enabled .paused (by decide))
    fun paused => totalLogic_fact fun hpaused => ?_
  subst hpaused
  refine (logic manners).bind (stoppingOrStopped_holds fun s h => h.enabled)
    fun stopped => totalLogic_fact fun hstopped => ?_
  subst hstopped
  refine (logic manners).bind (look_holds (v := health) fun s x h => ?_)
    fun r => totalLogic_fact fun hr => ?_
  · rw [← h.healthy]
    rfl
  subst hr
  refine (logic manners).bind (look_holds (v := leads) fun s x h => ?_)
    fun r => totalLogic_fact fun hr => ?_
  · rw [← h.leader]
    rfl
  subst hr
  refine (logic manners).bind (load_holds fun s h => h.active)
    fun r => totalLogic_fact fun hr => ?_
  subst hr
  exact react_holds cfg

theorem action_holds (cfg : ConductorConfig) :
    (logic manners).Holds (At false health previous leads believes runs) (action cfg)
      (Reacted manners false health previous leads believes runs) := by
  have hlock : (logic manners).Holds (At false health previous leads believes runs)
      (op (.lock .action)) fun _ => At true health previous leads believes runs := by
    refine memory_holds rfl (fun s h => ?_) fun s r m h hp => ?_
    · exact ⟨_, by rw [Memory.perform, h.lock]; rfl⟩
    · rw [Memory.perform, h.lock] at hp
      cases hp
      exact ⟨h.enabled, Function.update_self Lock.action (some ()) s.mem.owner, h.healthy,
        h.previous, h.leader, h.active, h.running⟩
  have hunlock : ∀ out, (logic manners).Holds
      (Reacted manners true health previous leads believes runs out) (op (.unlock .action))
      fun _ => Reacted manners false health previous leads believes runs out := by
    intro out
    refine memory_holds rfl (fun s h => ?_) fun s r m h hp => ?_
    · exact ⟨_, by rw [Memory.perform, h.lock]; rfl⟩
    · rw [Memory.perform, h.lock] at hp
      cases hp
      exact ⟨h.enabled, Function.update_self Lock.action none s.mem.owner, h.led, h.stays,
        h.known, fun ho hb => ⟨(h.settled ho hb).follower, (h.settled ho hb).leader⟩, h.healthy,
        h.fresh, h.obeyed⟩
  refine (logic manners).bind hlock fun _ => ?_
  refine (logic manners).bind (actionLocked_holds cfg) fun out => ?_
  exact (logic manners).bind (hunlock out) fun _ => (logic manners).done fun _ _ h => h

/-- What the conductor believes once it has asked. -/
def believed (manners : Manners) (believes runs : Bool) : Bool :=
  if manners.tells then runs else believes

theorem refresh_holds :
    (logic manners).Holds (At held health previous leads believes runs) refreshSequencerActive
      fun _ => At held health previous leads (believed manners believes runs) runs := by
  have hread : (logic manners).Holds (At held health previous leads believes runs)
      (op (.sequencer .sequencerActive)) fun r s =>
        (∀ active, r = .ok active → active = believed manners believes runs) ∧
        (∀ err, r = .error err → believes = believed manners believes runs) ∧
        At held health previous leads believes runs s := by
    refine totalLogic_call (fun s _ => ⟨⟨.refuse, none, true⟩, _, _, rfl⟩) fun s x r s' hA hp => ?_
    have htell : s.tell manners x = (r, s') := Option.some.inj hp
    unfold Site.tell believed at *
    split at htell
    · next htells =>
        cases htell
        refine ⟨fun active h => ?_, nofun, hA⟩
        cases h
        rw [if_pos htells]
        exact hA.running
    · next htells =>
        cases htell
        refine ⟨nofun, fun err _ => ?_, hA⟩
        rw [if_neg htells]
  refine (logic manners).bind (t := op (.sequencer .sequencerActive)) hread fun r => ?_
  cases r with
  | ok active =>
      refine (logic manners).pre (fun s h => ⟨h.1 active rfl, h.2.2⟩)
        (totalLogic_fact fun hactive => ?_)
      subst hactive
      exact (logic manners).bind (store_holds _) fun _ => (logic manners).done fun _ _ h => h
  | error err =>
      refine (logic manners).done fun s _ h => ?_
      rw [← h.2.1 err rfl]
      exact h.2.2

/-- Before the verdict is stored, any verdict may be in place. -/
def Unjudged (previous : State) (leads believes runs : Bool) (s : Site) : Prop :=
  ∃ health, At false health previous leads believes runs s

theorem setHealthy_holds (health : Health) :
    (logic manners).Holds (Unjudged previous leads believes runs) (op (.setHealthy health))
      fun _ => At false health previous leads believes runs := by
  refine memory_holds rfl (fun s _ => ⟨_, rfl⟩) fun s r m hA hp => ?_
  cases hp
  obtain ⟨old, h⟩ := hA
  exact ⟨h.enabled, h.lock, rfl, h.previous, h.leader, h.active, h.running⟩

theorem outer_holds {o : Op} (ho : Outer o) :
    (logic manners).Holds (Unjudged previous leads believes runs) (op o)
      fun _ => Unjudged previous leads believes runs := by
  have hquiet : quiet o = true → (logic manners).Holds (Unjudged previous leads believes runs)
      (op o) fun _ => Unjudged previous leads believes runs := by
    rintro hq s ⟨health, hs⟩
    have hholds : (logic manners).Holds (At false health previous leads believes runs) (op o)
        fun _ => At false health previous leads believes runs := quiet_holds hq
    obtain ⟨hruns, hall⟩ := hholds s hs
    exact ⟨hruns, fun r s' hrun => ⟨health, hall r s' hrun⟩⟩
  cases o with
  | setHealthy health =>
      exact (logic manners).post (setHealthy_holds health) fun _ _ h => ⟨health, h⟩
  | sequencer o => cases o <;> first | exact hquiet rfl | cases ho
  | load flag | tolerate now tolerance | probe o | metric m => exact hquiet rfl
  | _ => cases ho

theorem updateHealth_holds (cfg : ConductorConfig) (health : Health) :
    (logic manners).Holds (Unjudged previous leads believes runs) (updateHealth cfg health)
      (Reacted manners false health previous leads believes runs) :=
  (logic manners).bind (setHealthy_holds health) fun _ => action_holds cfg

/-- A tick ends with the reaction to some verdict. -/
theorem tick_holds (cfg : ConductorConfig) (now : Nat) :
    (logic manners).Holds (At false health previous leads believes runs) (tick cfg now)
      fun out s => ∃ verdict, Reacted manners false verdict previous leads
        (believed manners believes runs) runs out s := by
  have hend : ∀ verdict (out : Outcome), (logic manners).Holds
      (Reacted manners false verdict previous leads (believed manners believes runs) runs out)
      ((op (.metric .loopExecutionTime)).bind fun _ => .done out)
      fun out s => ∃ verdict, Reacted manners false verdict previous leads
        (believed manners believes runs) runs out s := fun verdict out =>
    (logic manners).bind (metric_holds _) fun _ => (logic manners).done fun _ _ h => ⟨verdict, h⟩
  refine (logic manners).bind (stoppingOrStopped_holds fun s h => h.enabled)
    fun stopped => totalLogic_fact fun hstopped => ?_
  subst hstopped
  refine (logic manners).bind ((logic manners).post refresh_holds fun _ s h =>
    (⟨health, h⟩ : Unjudged previous leads (believed manners believes runs) runs s))
    fun refreshed => ?_
  cases refreshed with
  | ok u =>
      refine (logic manners).bind ((logic manners).all (fun _ => outer_holds)
        (checkHealthAt_outer now)) fun verdict => ?_
      refine (logic manners).bind (metric_holds _) fun _ => ?_
      exact (logic manners).bind (updateHealth_holds cfg verdict) (hend verdict)
  | error err =>
      refine (logic manners).bind (metric_holds _) fun _ => ?_
      exact (logic manners).bind (updateHealth_holds cfg _) (hend _)

end

/-- What a tick makes of a site, by its outcome. -/
structure Repaired (manners : Manners) (s : Site) (out : Outcome) (s' : Site) : Prop where
  ready : s'.Ready
  led : s'.leader = true → s.leader = true
  stays : s.leader = false → s'.running = true → s.running = true
  known : manners.tells = true ∨ s.Known → s'.Known
  settled : manners.tells = true ∨ s.Known → out.isOk = true → s'.Settled
  fresh : manners.tells = true ∨ s.Known → out.isOk = true → s'.leader = true →
    s'.running = true → s'.mem.healthy.isHealthy = false →
    s.mem.previous.leader = false ∧ s.running = false
  obeyed : manners.obeys = true → s.leader = false → out.isOk = true

theorem Ready.at {s : Site} (h : s.Ready) : At false s.mem.healthy s.mem.previous s.leader
    (s.mem.flags .seqActive) s.running s :=
  ⟨h.enabled, h.unlocked, rfl, rfl, rfl, rfl, rfl⟩

theorem believed_eq {manners : Manners} {s : Site} (h : manners.tells = true ∨ s.Known) :
    believed manners (s.mem.flags .seqActive) s.running = s.running := by
  unfold believed
  split
  · rfl
  · next htells => exact h.resolve_left htells

theorem repaired_of_runs {cfg : ConductorConfig} {now : Nat} {manners : Manners} {s s' : Site}
    {out : Outcome} (hready : s.Ready)
    (hrun : Runs (Site.perform manners) (tick cfg now) s out s') : Repaired manners s out s' := by
  obtain ⟨verdict, h⟩ := (tick_holds cfg now s hready.at).2 out s' hrun
  exact {
    ready := ⟨h.enabled, h.lock⟩
    led := h.led
    stays := h.stays
    known := fun hk => h.known (believed_eq hk)
    settled := fun hk ho => h.settled ho (believed_eq hk)
    fresh := fun hk ho hl hr hh => h.fresh ho (believed_eq hk) hl hr (h.healthy ▸ hh)
    obeyed := h.obeyed }

/-- A sequencer runs at a follower that has just come up and does not know of it. -/
def stray : Site := ⟨Memory.new .default false, false, true⟩

end Site
end ConductorRs.Conductor
