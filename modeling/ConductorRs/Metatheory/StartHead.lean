import ConductorRs.Concurrency.RelyGuarantee
import ConductorRs.Core.Stack

/-!
The head on which the sequencer begins.

The node is a chain of blocks given by their hashes, indexed by height. Before
it serves a call the chain may have grown; a call may fail without effect; a
payload that is posted may move the head. A start by hash takes effect only on
that head. A start without a hash takes effect on the current head, and the chain
does not grow between the check and the start. Every chain on which sequencing
began in the current run is recorded.
-/
namespace ConductorRs.Conductor.StartHead
open Concurrency

structure Chain where
  blocks : List Hash
  nonempty : blocks ≠ []

namespace Chain

def head (chain : Chain) : BlockInfo :=
  ⟨chain.blocks.getLast chain.nonempty, chain.blocks.length - 1⟩

def at? (chain : Chain) (number : Nat) : Option Hash := chain.blocks[number]?

def extend (chain : Chain) (more : List Hash) : Chain :=
  ⟨chain.blocks ++ more, List.append_ne_nil_of_left_ne_nil chain.nonempty more⟩

theorem extend_nil (chain : Chain) : chain.extend [] = chain := by
  simp [extend]

theorem at?_extend {chain : Chain} {number : Nat} {hash : Hash} (more : List Hash)
    (h : chain.at? number = some hash) : (chain.extend more).at? number = some hash := by
  obtain ⟨hlt, _⟩ := List.getElem?_eq_some_iff.mp h
  simp only [at?, extend] at h ⊢
  rw [List.getElem?_append_left hlt]
  exact h

end Chain

structure Node where
  chain : Chain
  committed : PayloadEnvelope
  seqActive : Bool
  before : Bool
  begun : List Chain
  outcome : Option Outcome

structure Choice where
  payload : Except ConsensusError Bool
  grow : List Hash
  moved : List Hash
  error : Option RpcClientError

namespace Node

/-- A call that the node serves. -/
def serve (s : Node) (x : Choice) : (op : RpcOp) → Option (op.Result × Node)
  | .latestUnsafeBlock => some (s.chain.head, s)
  | .blockByNumber number => (s.chain.at? number).map fun hash => (⟨hash, number⟩, s)
  | .startSequencerWithHash hash =>
      if s.chain.head.hash = hash then some ((), { s with begun := s.chain :: s.begun })
      else none
  | .startSequencerParameterless => some ((), { s with begun := s.chain :: s.begun })
  | .postUnsafePayload _ => some ((), { s with chain := s.chain.extend x.moved })
  | .stopSequencer | .sequencerActive | .conductorEnabled | .syncStatus | .peerStats => none

def rpc (s : Node) (x : Choice) (op : RpcOp) : Option (RpcClients.Reply op × Node) :=
  let s := { s with chain := s.chain.extend x.grow }
  match x.error with
  | some err => some (.error err, s)
  | none => (s.serve x op).map fun p => (.ok p.1, p.2)

def perform (s : Node) :
    (op : (Shared.sum RpcClients).Op) → Choice → Option ((Shared.sum RpcClients).Reply op × Node)
  | .inr op, x => s.rpc x op
  | .inl (.consensus .latestUnsafePayload), x =>
      some (x.payload.map fun present => if present then some s.committed else none, s)
  | .inl (.store .seqActive value), _ => some ((), { s with seqActive := value })
  | .inl (.metric _), _ => some ((), s)
  | .inl _, _ => none

def idle (chain : Chain) (committed : PayloadEnvelope) (seqActive : Bool) : Node :=
  ⟨chain, committed, seqActive, seqActive, [], none⟩

def enter (s : Node) (payload : PayloadEnvelope) : Node := idle s.chain payload s.seqActive

end Node

/-- Runs of `start_sequencer` one after another, each against its own committed
payload. -/
def machine (cfg : ConductorConfig) (startMode : SequencerStartMode) :
    Machine Unit (Shared.sum RpcClients) Node PayloadEnvelope Outcome Choice Empty where
  body _ := (startSequencer cfg).interp (throughController startMode)
  enter s _ payload := some (s.enter payload)
  perform s _ := s.perform
  leave s _ _ result := { s with outcome := some result }
  env _ e := e.elim

def policy : Policy Unit (Shared.sum RpcClients) Node PayloadEnvelope Choice Empty where
  call _ _ _ := True
  step _ _ op x :=
    match op with
    | .inr .startSequencerParameterless => x.grow = []
    | _ => True
  env _ _ := True

/-- The chain holds the committed head as its head or below it. -/
def Extends (payload : PayloadEnvelope) (chain : Chain) : Prop :=
  ∃ hash number, payload.blockHash = .ok hash ∧ payload.blockNumber = .ok number ∧
    (chain.head.hash = hash ∨ chain.at? number = some hash)

def Fresh (s : Node) : Prop := s.begun = [] ∧ s.seqActive = s.before

def Sound (s : Node) : Prop :=
  (∀ chain ∈ s.begun, Extends s.committed chain) ∧
    ∀ err, s.outcome = some (.error err) → Fresh s

theorem idle_sound (chain : Chain) (committed : PayloadEnvelope) (seqActive : Bool) :
    Sound (Node.idle chain committed seqActive) :=
  ⟨fun _ hchain => (by cases hchain), fun _ herr => (by cases herr)⟩

/-- There is one thread, so nothing interferes. -/
def outline : Outline Unit (Shared.sum RpcClients) Node where
  inv := Sound
  rely _ s s' := s' = s
  idle _ _ := True
  check _ _ _ := True

theorem coherent : outline.Coherent where
  refl _ _ := rfl
  trans _ {_ _ _} h h' := Eq.trans h' h
  idle _ {_ _} _ _ _ := trivial

section
variable {cfg : ConductorConfig} {startMode : SequencerStartMode}

abbrev logic (cfg : ConductorConfig) (startMode : SequencerStartMode) :
    Logic (Shared.sum RpcClients) Node :=
  (machine cfg startMode).logic policy outline ()

/-- One operation, with nobody else running. -/
theorem call_holds {A : Node → Prop} {o : (Shared.sum RpcClients).Op}
    {Q : (Shared.sum RpcClients).Reply o → Node → Prop}
    (h : ∀ s x r s', Sound s → A s → s.perform o x = some (r, s') → policy.step s () o x →
      Sound s' ∧ Q r s') :
    (logic cfg startMode).Holds A (Task.call o) Q := by
  refine Machine.Triple.call (fun s s' ha hr _ => ?_) fun s hi ha => ⟨trivial, ?_⟩
  · rw [show s' = s from hr]
    exact ha
  · intro x r s' hp hπ
    obtain ⟨hs, hq⟩ := h s x r s' hi ha hp hπ
    exact ⟨⟨hs, fun j hj => absurd rfl hj⟩, hq⟩

/-- A call of the node that starts nothing: it leaves a longer chain and nothing
else, whether it is served or not. -/
def reads : RpcOp → Bool
  | .latestUnsafeBlock | .blockByNumber _ | .postUnsafePayload _ => true
  | _ => false

theorem rpc_reads {s s' : Node} {x : Choice} {o : RpcOp} {r : RpcClients.Reply o}
    (ho : reads o = true) (h : s.rpc x o = some (r, s')) :
    ∃ more, s' = { s with chain := s.chain.extend more } := by
  simp only [Node.rpc] at h
  split at h
  · cases h
    exact ⟨x.grow, rfl⟩
  · obtain ⟨⟨v, s₁⟩, hserve, hr⟩ := Option.map_eq_some_iff.mp h
    cases hr
    cases o with
    | latestUnsafeBlock =>
        cases hserve
        exact ⟨x.grow, rfl⟩
    | blockByNumber number =>
        obtain ⟨hash, _, hv⟩ := Option.map_eq_some_iff.mp hserve
        cases hv
        exact ⟨x.grow, rfl⟩
    | postUnsafePayload payload =>
        cases hserve
        refine ⟨x.grow ++ x.moved, ?_⟩
        simp [Chain.extend]
    | _ => cases ho

theorem rpc_error {s s' : Node} {x : Choice} {o : RpcOp} {err : RpcClientError}
    (h : s.rpc x o = some (.error err, s')) :
    s' = { s with chain := s.chain.extend x.grow } := by
  simp only [Node.rpc] at h
  split at h
  · cases h
    rfl
  · obtain ⟨p, _, hr⟩ := Option.map_eq_some_iff.mp h
    cases hr

def Growing (A : Node → Prop) : Prop :=
  ∀ s more, A s → A { s with chain := s.chain.extend more }

theorem read_holds {A : Node → Prop} (hA : Growing A) {o : RpcOp} (ho : reads o = true) :
    (logic cfg startMode).Holds A (Task.call (E := Shared.sum RpcClients) (.inr o))
      fun _ => A := by
  refine call_holds fun s x r s' hs ha hp _ => ?_
  obtain ⟨more, rfl⟩ := rpc_reads ho hp
  exact ⟨hs, hA s more ha⟩

theorem latestUnsafeBlock_holds {A : Node → Prop} (hA : Growing A) :
    (logic cfg startMode).Holds A
      (Task.call (E := Shared.sum RpcClients) (.inr .latestUnsafeBlock))
      fun r s => A s ∧ ∀ block, r = .ok block → s.chain.head = block := by
  refine call_holds fun s x r s' hs ha hp _ => ?_
  obtain ⟨more, hs'⟩ := rpc_reads rfl hp
  refine ⟨hs' ▸ hs, hs' ▸ hA s more ha, fun block hblock => ?_⟩
  subst hblock
  simp only [Node.perform, Node.rpc] at hp
  split at hp
  · cases hp
  · cases hp
    rfl

theorem blockByNumber_holds {A : Node → Prop} (hA : Growing A) (number : Nat) :
    (logic cfg startMode).Holds A
      (Task.call (E := Shared.sum RpcClients) (.inr (.blockByNumber number)))
      fun r s => A s ∧ ∀ block, r = .ok block → s.chain.at? number = some block.hash := by
  refine call_holds fun s x r s' hs ha hp _ => ?_
  obtain ⟨more, hs'⟩ := rpc_reads rfl hp
  refine ⟨hs' ▸ hs, hs' ▸ hA s more ha, fun block hblock => ?_⟩
  subst hblock
  simp only [Node.perform, Node.rpc] at hp
  split at hp
  · cases hp
  · obtain ⟨⟨v, s₁⟩, hserve, hr⟩ := Option.map_eq_some_iff.mp hp
    obtain ⟨hash, hat, hv⟩ := Option.map_eq_some_iff.mp hserve
    cases hr
    cases hv
    exact hat

/-- The run works on this payload and has not started anything. -/
def Ready (payload : PayloadEnvelope) (s : Node) : Prop :=
  Fresh s ∧ s.committed = payload ∧ s.outcome = none

/-- A start by this hash would be on a chain that extends the committed head. -/
def Aimed (payload : PayloadEnvelope) (start : Hash) (s : Node) : Prop :=
  Ready payload s ∧ ∃ hash number, payload.blockHash = .ok hash ∧
    payload.blockNumber = .ok number ∧ (start = hash ∨ s.chain.at? number = some hash)

variable {payload : PayloadEnvelope} {start : Hash}

theorem ready_growing : Growing (Ready payload) := fun _ _ h => h

theorem aimed_growing : Growing (Aimed payload start) := by
  intro s more h
  obtain ⟨hready, hash, number, hh, hn, haim⟩ := h
  refine ⟨hready, hash, number, hh, hn, ?_⟩
  cases haim with
  | inl heq => exact .inl heq
  | inr hat => exact .inr (Chain.at?_extend more hat)

/-- A start on the chain whose head carries the hash that was aimed at. -/
theorem Aimed.begin_sound {s : Node} (h : Aimed payload start s)
    (hhead : s.chain.head.hash = start) :
    Sound { s with begun := s.chain :: s.begun } := by
  obtain ⟨⟨⟨hbegun, _⟩, hcom, hout⟩, hash, number, hh, hn, haim⟩ := h
  refine ⟨fun chain hchain => ?_, fun err herr => ?_⟩
  · simp only [hbegun, List.mem_singleton] at hchain
    subst hchain
    refine ⟨hash, number, ?_, ?_, ?_⟩
    · rw [hcom]
      exact hh
    · rw [hcom]
      exact hn
    · cases haim with
      | inl heq => exact .inl (hhead.trans heq)
      | inr hat => exact .inr hat
  · rw [show s.outcome = none from hout] at herr
    cases herr

/-- After a start: an error leaves everything as it was. -/
def Unstarted {α ε : Type} (payload : PayloadEnvelope) (start : Hash) (r : Except ε α)
    (s : Node) : Prop :=
  s.outcome = none ∧ ∀ err, r = .error err → Aimed payload start s

theorem Aimed.unstarted {s : Node} (h : Aimed payload start s) {α ε : Type}
    (r : Except ε α) : Unstarted payload start r s := ⟨h.1.2.2, fun _ _ => h⟩

theorem startWithHash_holds :
    (logic cfg startMode).Holds (Aimed payload start)
      (Task.call (E := Shared.sum RpcClients) (.inr (.startSequencerWithHash start)))
      (Unstarted payload start) := by
  refine call_holds fun s x r s' hs ha hp _ => ?_
  have hgrown := aimed_growing s x.grow ha
  cases r with
  | error err =>
      have hs' := rpc_error hp
      subst hs'
      exact ⟨hs, hgrown.unstarted _⟩
  | ok u =>
      simp only [Node.perform, Node.rpc] at hp
      split at hp
      · cases hp
      · obtain ⟨⟨v, s₁⟩, hserve, hr⟩ := Option.map_eq_some_iff.mp hp
        cases hr
        simp only [Node.serve] at hserve
        split at hserve
        · next hhead =>
            cases hserve
            refine ⟨hgrown.begin_sound hhead, ha.1.2.2, fun err herr => ?_⟩
            cases herr
        · cases hserve

theorem startParameterless_holds :
    (logic cfg startMode).Holds
      (fun s => Aimed payload start s ∧ s.chain.head.hash = start)
      (Task.call (E := Shared.sum RpcClients) (.inr .startSequencerParameterless))
      (Unstarted payload start) := by
  refine call_holds fun s x r s' hs ha hp hπ => ?_
  have hgrow : x.grow = [] := hπ
  cases r with
  | error err =>
      have hs' := rpc_error hp
      rw [hs']
      exact ⟨hs, (aimed_growing s x.grow ha.1).unstarted _⟩
  | ok u =>
      simp only [Node.perform, Node.rpc, hgrow, Chain.extend_nil] at hp
      split at hp
      · cases hp
      · cases hp
        refine ⟨ha.1.begin_sound ha.2, ha.1.1.2.2, fun err herr => ?_⟩
        cases herr

end

end ConductorRs.Conductor.StartHead
