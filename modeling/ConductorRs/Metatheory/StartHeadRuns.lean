import ConductorRs.Metatheory.StartHead

/-!
Sequencing begins only on chains that hold the committed head.

The controller's three start modes and the conductor's four head cases are
followed in the order of the source. What carries the proof is the aim of a
start: the hash that is sent is the committed one, or the chain already holds the
committed block at its height and can only grow.
-/
namespace ConductorRs.Conductor.StartHead
open Concurrency

section
variable {cfg : ConductorConfig} {startMode : SequencerStartMode}
variable {payload : PayloadEnvelope} {start : Hash}

/-- The client calls of the controller, over both interfaces. -/
def client : (o : RpcOp) → Task (Shared.sum RpcClients) (RpcClients.Reply o) :=
  fun o => Task.call (E := Shared.sum RpcClients) (.inr o)

abbrev clients (cfg : ConductorConfig) (startMode : SequencerStartMode) :
    Logic RpcClients Node := (logic cfg startMode).via client

abbrev upper (cfg : ConductorConfig) (startMode : SequencerStartMode) :
    Logic Shared Node := (logic cfg startMode).via (throughController startMode)

/-- What is known of a call once its error has been wrapped. -/
def Wrapped {α ε ε' : Type} (Q : Except ε α → Node → Prop) : Except ε' α → Node → Prop
  | .ok a, s => Q (.ok a) s
  | .error _, s => ∃ err, Q (.error err) s

theorem wrapped_mapError {α ε ε' : Type} {Q : Except ε α → Node → Prop} {s : Node}
    (r : Except ε α) (f : ε → ε') (h : Q r s) : Wrapped Q (r.mapError f) s := by
  cases r with
  | ok a => exact h
  | error err => exact ⟨err, h⟩

theorem rpc_holds {A : Node → Prop} {o : RpcOp} {Q : RpcClients.Reply o → Node → Prop}
    (h : (logic cfg startMode).Holds A (Task.call (E := Shared.sum RpcClients) (.inr o)) Q) :
    (clients cfg startMode).Holds A (SequencerController.rpc o).run (Wrapped Q) :=
  (clients cfg startMode).bind ((logic cfg startMode).via_call h) fun r =>
    (clients cfg startMode).done fun _ _ hq => wrapped_mapError r SequencerError.rpc hq

theorem assertLatestUnsafe_holds :
    (clients cfg startMode).Holds (Aimed payload start)
      (SequencerController.assertLatestUnsafe start).run
      fun r s => Aimed payload start s ∧ ∀ block, r = .ok block → s.chain.head.hash = start := by
  refine (clients cfg startMode).bindExcept
    (rpc_holds (latestUnsafeBlock_holds aimed_growing)) (fun block => ?_) ?_
  · by_cases hhash : block.hash = start
    · simp only [hhash, ne_eq, not_true_eq_false, if_false]
      refine (clients cfg startMode).done fun s _ h => ⟨h.1, fun _ _ => ?_⟩
      rw [h.2 block rfl]
      exact hhash
    · simp only [ne_eq, hhash, not_false_eq_true, if_true]
      exact (clients cfg startMode).done fun s _ h => ⟨h.1, fun _ hb => by cases hb⟩
  · rintro err s _ ⟨_, h⟩
    exact ⟨h.1, fun _ hb => by cases hb⟩

theorem unstarted_of_wrapped {α ε ε' : Type} {r : Except ε' α} {s : Node}
    (h : Wrapped (Unstarted payload start (ε := ε)) r s) : Unstarted payload start r s := by
  cases r with
  | ok a => exact ⟨h.1, fun _ hr => by cases hr⟩
  | error err =>
      obtain ⟨err', h⟩ := h
      exact ⟨h.1, fun _ _ => h.2 err' rfl⟩

theorem startParameterlessAfterCheck_holds :
    (clients cfg startMode).Holds (Aimed payload start)
      (SequencerController.startParameterlessAfterCheck start).run
      (Unstarted payload start) := by
  refine (clients cfg startMode).bindExcept assertLatestUnsafe_holds (fun block => ?_) ?_
  · refine (clients cfg startMode).conseq (fun s _ h => ⟨h.1, h.2 block rfl⟩)
      (rpc_holds startParameterless_holds) fun r s _ h => unstarted_of_wrapped h
  · exact fun err s _ h => h.1.unstarted _

theorem controllerStart_holds :
    (clients cfg startMode).Holds (Aimed payload start)
      (SequencerController.startSequencer startMode start) (Unstarted payload start) := by
  unfold SequencerController.startSequencer
  cases startMode with
  | hashParam =>
      exact (clients cfg .hashParam).post (rpc_holds startWithHash_holds)
        fun r s h => unstarted_of_wrapped h
  | parameterless => exact startParameterlessAfterCheck_holds
  | auto =>
      refine (clients cfg .auto).bind
        ((logic cfg .auto).via_call startWithHash_holds) fun r => ?_
      cases r with
      | ok u => exact (clients cfg .auto).done fun s _ h => ⟨h.1, fun err herr => by cases herr⟩
      | error err =>
          refine (clients cfg .auto).pre (fun s h => h.2 err rfl) ?_
          dsimp only
          split
          · exact startParameterlessAfterCheck_holds
          · exact (clients cfg .auto).done fun s _ h => h.unstarted _

/-- A read-only call of the conductor keeps every assertion that growth keeps. -/
theorem sequencer_holds {A : Node → Prop} {o : SequencerOp}
    {Q : SequencerControl.Reply o → Node → Prop}
    (h : (clients cfg startMode).Holds A (SequencerController.handle startMode o) Q) :
    (upper cfg startMode).Holds A (sequencer o).run (Wrapped Q) :=
  (upper cfg startMode).bind ((logic cfg startMode).via_call h) fun r =>
    (upper cfg startMode).done fun _ _ hq => wrapped_mapError r ConductorError.sequencer hq

/-- The result of the head comparison: a hash to start from is an aim. -/
def Chosen (payload : PayloadEnvelope) (r : Except ConductorError Hash) (s : Node) : Prop :=
  Ready payload s ∧ ∀ start, r = .ok start → Aimed payload start s

theorem Ready.failed {s : Node} (h : Ready payload s) (err : ConductorError) :
    Chosen payload (.error err) s := ⟨h, fun _ hr => by cases hr⟩

theorem startHash_holds {hash : Hash} {number : Nat} (head : BlockInfo)
    (hh : payload.blockHash = .ok hash) (hn : payload.blockNumber = .ok number) :
    (upper cfg startMode).Holds (Ready payload)
      (startHash cfg payload hash number head).run (Chosen payload) := by
  have hcommitted : ∀ s, Ready payload s → Chosen payload (.ok hash) s := by
    refine fun s h => ⟨h, fun start hstart => ⟨h, hash, number, hh, hn, .inl ?_⟩⟩
    exact (Except.ok.inj hstart).symm
  unfold startHash
  split
  · exact (upper cfg startMode).done fun s _ h => hcommitted s h
  · split
    · refine (upper cfg startMode).bindExcept (sequencer_holds
        (rpc_holds (read_holds ready_growing rfl))) (fun _ => ?_) ?_
      · exact (upper cfg startMode).done fun s _ h => hcommitted s h
      · rintro err s _ ⟨_, _, h⟩
        exact h.failed err
    · split
      · refine (upper cfg startMode).bindExcept (sequencer_holds
          (rpc_holds (blockByNumber_holds ready_growing number))) (fun ancestor => ?_) ?_
        · by_cases heq : ancestor.hash = hash
          · simp only [heq, ne_eq, not_true_eq_false, if_false]
            refine (upper cfg startMode).done fun s _ h =>
              ⟨h.1, fun start _ => ⟨h.1, hash, number, hh, hn, .inr ?_⟩⟩
            rw [← heq]
            exact h.2 ancestor rfl
          · simp only [ne_eq, heq, not_false_eq_true, if_true]
            exact (upper cfg startMode).done fun s _ h => h.1.failed _
        · rintro err s _ ⟨_, _, h⟩
          exact h.1.failed err
      · exact (upper cfg startMode).done fun s _ h => h.failed _

theorem own_holds {A : Node → Prop} {o : Op} {Q : o.Reply → Node → Prop}
    (hseq : ∀ o', o ≠ .sequencer o')
    (h : ∀ s x r s', Sound s → A s → s.perform (.inl o) x = some (r, s') →
      Sound s' ∧ Q r s') :
    (upper cfg startMode).Holds A (op o) Q := by
  refine (logic cfg startMode).via_call ?_
  have hcall : throughController startMode o =
      Task.call (E := Shared.sum RpcClients) (.inl o) := by
    cases o with
    | sequencer o' => exact absurd rfl (hseq o')
    | _ => rfl
  rw [hcall]
  exact call_holds fun s x r s' hs ha hp _ => h s x r s' hs ha hp

/-- The outcome of a whole start: an error means that nothing happened. -/
def Untouched {α : Type} (r : Except ConductorError α) (s : Node) : Prop :=
  ∀ err, r = .error err → Fresh s

theorem storeStarted_holds :
    (upper cfg startMode).Holds (fun s => s.outcome = none) (op (.store .seqActive true))
      fun _ _ => True := by
  refine own_holds (fun _ h => by cases h) fun s x r s' hs hout hp => ?_
  cases hp
  refine ⟨⟨hs.1, fun err herr => ?_⟩, trivial⟩
  rw [show s.outcome = none from hout] at herr
  cases herr

theorem sendStart_holds :
    (upper cfg startMode).Holds (Aimed payload start) (sendStart start) Untouched := by
  have hstored : ∀ result : Bool, (upper cfg startMode).Holds (fun s => s.outcome = none)
      ((op (.store .seqActive true)).bind fun _ => .done (.ok result)) Untouched :=
    fun result => (upper cfg startMode).bind storeStarted_holds fun _ =>
      (upper cfg startMode).done fun s _ _ err herr => by cases herr
  refine (upper cfg startMode).bind ((logic cfg startMode).via_call controllerStart_holds)
    fun r => ?_
  cases r with
  | ok u => exact (upper cfg startMode).pre (fun s h => h.1) (hstored false)
  | error err =>
      dsimp only
      split
      · exact (upper cfg startMode).pre (fun s h => h.1) (hstored true)
      · exact (upper cfg startMode).done fun s _ h _ _ => (h.2 err rfl).1.1

def Entered (s : Node) : Prop := Fresh s ∧ s.outcome = none

/-- The payload that was read, if any, is the one this run works on. -/
def Latest {ε : Type} : Except ε (Option PayloadEnvelope) → Node → Prop
  | .ok (some payload), s => Ready payload s
  | _, s => Entered s

theorem latestUnsafePayload_holds :
    (upper cfg startMode).Holds Entered (op (.consensus .latestUnsafePayload)) Latest := by
  refine own_holds (fun _ h => by cases h) fun s x r s' hs h hp => ?_
  cases hp
  refine ⟨hs, ?_⟩
  cases x.payload with
  | error err => exact h
  | ok present =>
      cases present with
      | false => exact h
      | true => exact ⟨h.1, rfl, h.2⟩

theorem readPayload_holds :
    (upper cfg startMode).Holds Entered ((op (.consensus .latestUnsafePayload)).bind
      fun r => .done (r.mapError ConductorError.consensus)) Latest := by
  refine (upper cfg startMode).bind latestUnsafePayload_holds fun r =>
    (upper cfg startMode).done fun s _ h => ?_
  match r with
  | .ok (some payload) | .ok none | .error err => exact h

private theorem ok_of_mapError {α ε ε' : Type} {r : Except ε α} {f : ε → ε'} {a : α}
    (h : r.mapError f = .ok a) : r = .ok a := by
  cases r with
  | ok b => exact congrArg Except.ok (Except.ok.inj h)
  | error err => cases h

theorem startBody_holds : (upper cfg startMode).Holds Entered (startBody cfg).run Untouched := by
  refine (upper cfg startMode).bindExcept readPayload_holds (fun latest => ?_)
    fun err s _ h _ _ => h.1
  cases latest with
  | none => exact (upper cfg startMode).done fun s _ h _ _ => h.1
  | some payload =>
      have hfail : ∀ (err : ConductorError) (s : Node), Sound s → Ready payload s →
          Untouched (.error err : Except ConductorError Bool) s := fun _ _ _ h _ _ => h.1
      refine (upper cfg startMode).bindPure (fun hash hhash => ?_) hfail
      refine (upper cfg startMode).bindPure (fun number hnumber => ?_) hfail
      refine (upper cfg startMode).bindExcept (sequencer_holds
        (rpc_holds (read_holds ready_growing rfl))) (fun head => ?_) ?_
      · refine (upper cfg startMode).bindExcept (startHash_holds head
          (ok_of_mapError hhash) (ok_of_mapError hnumber)) (fun start => ?_) ?_
        · exact (upper cfg startMode).pre (fun s h => h.2 start rfl) sendStart_holds
        · exact fun err s hs h => hfail err s hs h.1
      · rintro err s hs ⟨_, _, h⟩
        exact hfail err s hs h

theorem metric_holds {A : Node → Prop} (m : Metric) :
    (upper cfg startMode).Holds A (op (.metric m)) fun _ => A := by
  refine own_holds (fun _ h => by cases h) fun s x r s' hs h hp => ?_
  cases hp
  exact ⟨hs, h⟩

theorem startSequencer_holds :
    (upper cfg startMode).Holds Entered (startSequencer cfg) Untouched := by
  refine (upper cfg startMode).bind startBody_holds fun r => ?_
  cases r with
  | ok already =>
      refine (upper cfg startMode).bind (metric_holds _) fun _ => ?_
      exact (upper cfg startMode).done fun s _ _ err herr => by cases herr
  | error err =>
      refine (upper cfg startMode).bind (metric_holds _) fun _ => ?_
      exact (upper cfg startMode).done fun s _ h _ _ => h err rfl

theorem verified (cfg : ConductorConfig) (startMode : SequencerStartMode) :
    (machine cfg startMode).Verified policy outline where
  coherent := coherent
  enter s i payload s' _ _ he _ := by
    cases he
    have hsound : Sound (s.enter payload) := idle_sound s.chain payload s.seqActive
    refine ⟨⟨hsound, fun j hj => absurd rfl hj⟩, ?_⟩
    refine Machine.Safe.mono hsound (startSequencer_holds _ hsound ⟨⟨rfl, rfl⟩, rfl⟩) ?_
    intro r s₁ hs₁ h s₂ hr hs₂
    rw [show s₂ = s₁ from hr]
    refine ⟨⟨⟨hs₁.1, fun err herr => ?_⟩, fun j hj => absurd rfl hj⟩, trivial⟩
    exact h err (Option.some.inj herr)
  env _ e := e.elim

/-- Wherever sequencing has begun, the chain extends the committed head; and a run
that has returned an error has begun nothing and left the cached flag alone. -/
theorem begins_on_committed_head (cfg : ConductorConfig) (startMode : SequencerStartMode)
    (chain : Chain) (payload : PayloadEnvelope) (seqActive : Bool)
    (c : Config Unit (Shared.sum RpcClients) Node PayloadEnvelope Outcome)
    (hr : (machine cfg startMode).Reaches policy
      (Config.quiet (.idle chain payload seqActive)) c) :
    (∀ chain ∈ c.state.begun, Extends c.state.committed chain) ∧
      ∀ err, c.state.outcome = some (.error err) →
        c.state.begun = [] ∧ c.state.seqActive = c.state.before :=
  ((verified cfg startMode).reaches (Machine.conforms_quiet _
    (idle_sound chain payload seqActive) fun _ => trivial) hr).1

end

section
def served : Choice := ⟨.ok true, [], [], none⟩

/-- The node does not know the start with a hash. -/
def rejected : Choice := { served with error := some (.jsonRpc (-32602) "invalid params" none) }

def genesis : Chain := ⟨[Hash.zero], by simp⟩

instance (s : Node) (i : Unit) (payload : PayloadEnvelope) :
    Decidable (policy.call s i payload) :=
  .isTrue trivial

instance (s : Node) (i : Unit) (o : (Shared.sum RpcClients).Op) (x : Choice) :
    Decidable (policy.step s i o x) := by
  unfold policy
  dsimp only
  split <;> infer_instance

/-- The fallback of the automatic mode begins on the committed head. -/
theorem fallback_begins :
    ∃ c, (machine .default .auto).Reaches policy
        (Config.quiet (.idle genesis (.ofBlock ⟨Hash.zero, 0⟩) false)) c ∧
      c.state.begun.length = 1 ∧
      ∀ chain ∈ c.state.begun, Extends c.state.committed chain := by
  have hrun : ∃ c, (machine .default .auto).Reaches policy
      (Config.quiet (.idle genesis (.ofBlock ⟨Hash.zero, 0⟩) false)) c ∧
      decide (c.state.begun.length = 1) = true :=
    Machine.reaches_of_permitted
      [.call () (.ofBlock ⟨Hash.zero, 0⟩), .step () served, .step () served,
        .step () rejected, .step () served, .step () served] (by decide +kernel)
  obtain ⟨c, hr, hbegun⟩ := hrun
  exact ⟨c, hr, of_decide_eq_true hbegun,
    (begins_on_committed_head _ _ genesis _ false c hr).1⟩

end
end ConductorRs.Conductor.StartHead
