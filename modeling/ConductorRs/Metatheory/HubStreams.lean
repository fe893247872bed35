import ConductorRs.Core.HubMachine

/-!
What the clients of a hub receive.

A history keeps the payloads that were broadcast, in the order in which their
broadcasts went through the clients, the place in it at which each client was
registered, and what was taken from each queue. Taken and queued payloads
together are the stream of a client: consuming it moves a payload from one to the
other. While nobody holds the mutex, the stream of every registered client that
is listening is all that was broadcast since its registration; a broadcast in
progress has brought it up to date for the clients it has been through.

Who is registered is kept apart from the map. A call owes the hub what its name says,
and when it gives the mutex back the members are changed accordingly: a registration
adds the client the thread was given, an unregistration takes one away, and a broadcast
takes those away that refused its payload. The map holds the members whenever the mutex
is free.
-/
namespace ConductorRs.Flashblocks.Streams
open Concurrency Collections

/-- One broadcast: the clients it found, the channels it offered the payload to,
those of them that were full or had lost their receiver, and the clients it
left. -/
structure Round where
  before : List (Nat × Nat)
  offered : List Nat
  refused : List Nat
  after : List (Nat × Nat)
deriving DecidableEq

def Round.offer (r : Round) (tx : Nat) (refuses : Bool) : Round :=
  { r with
    offered := r.offered ++ [tx]
    refused := if refuses then r.refused ++ [tx] else r.refused }

def Round.kept (r : Round) : List (Nat × Nat) := r.before.filter fun e => decide (e.2 ∉ r.refused)

/-- Every client was offered the payload once, and exactly those that refused it
are gone. -/
def Round.Exact (r : Round) : Prop :=
  r.offered = r.before.map Prod.snd ∧ r.after = r.kept

/-- What a call has still to do to the members. A handler leaves with the client it was
given itself. -/
inductive Duty where
  | register
  | leave
  | unregister (clientId : Nat)
  | broadcast
deriving DecidableEq

def duties : HubCall → List Duty
  | .register => [.register]
  | .unregister clientId => [.unregister clientId]
  | .broadcast _ => [.broadcast]
  | .handleDownstream _ => [.register, .leave]

/-- The members once the duty is done; `own` is the client the thread was given and
`refused` the channels that refused its payload. -/
def Duty.settle (own : Nat × Nat) (refused : List Nat) (members : List (Nat × Nat)) :
    Duty → List (Nat × Nat)
  | .register => own :: members.filter fun e => decide (e.1 ≠ own.1)
  | .leave => members.filter fun e => decide (e.1 ≠ own.1)
  | .unregister clientId => members.filter fun e => decide (e.1 ≠ clientId)
  | .broadcast => members.filter fun e => decide (e.2 ∉ refused)

structure Hist (Tid : Type) where
  log : List WsPayload
  since : Nat → Option Nat
  taken : Nat → List WsPayload
  payload : Tid → Option WsPayload
  rounds : Tid → Round
  fresh : Nat → Option Tid
  own : Tid → Nat × Nat
  owes : Tid → List Duty
  members : List (Nat × Nat)

section
variable {Tid : Type} [DecidableEq Tid]

def Hist.begin (h : Hist Tid) (i : Tid) (call : HubCall) : Hist Tid :=
  { h with
    payload :=
      match call with
      | .broadcast payload => Function.update h.payload i (some payload)
      | _ => h.payload
    owes := Function.update h.owes i (duties call) }

/-- The thread gives the mutex back and has done the first of its duties. -/
def Hist.settle (h : Hist Tid) (i : Tid) (clients : List (Nat × Nat)) : Hist Tid :=
  { h with
    rounds := Function.update h.rounds i { h.rounds i with after := clients }
    owes := Function.update h.owes i (h.owes i).tail
    members := (h.owes i).head?.elim h.members
      (Duty.settle (h.own i) (h.rounds i).refused h.members) }

def Hist.after (hub hub' : HubState Tid) (h : Hist Tid) (i : Tid) : (o : Op) → o.Reply → Hist Tid
  | .fetchAddNextId, clientId =>
      { h with own := Function.update h.own i (clientId, (h.own i).2) }
  | .channel, tx =>
      { h with
        fresh := Function.update h.fresh tx (some i)
        own := Function.update h.own i ((h.own i).1, tx) }
  | .insertClient _ tx, _ =>
      { h with
        since := Function.update h.since tx (some h.log.length)
        fresh := Function.update h.fresh tx none }
  | .iterClients, clients =>
      { h with
        log := h.log ++ (h.payload i).toList
        rounds := Function.update h.rounds i ⟨clients, [], [], []⟩ }
  | .trySend tx _, _ =>
      { h with
        rounds := Function.update h.rounds i ((h.rounds i).offer tx (hub.channels tx).refuses) }
  | .unlockClients, _ => h.settle i hub'.clients.entries
  | .select rx _ _, .payload payload =>
      { h with taken := Function.update h.taken rx (h.taken rx ++ [payload]) }
  | _, _ => h

def Hist.client (hub : HubState Tid) (h : Hist Tid) : ClientEvent → Hist Tid
  | .recv rx =>
      { h with
        taken := Function.update h.taken rx
          (h.taken rx ++ (hub.channels rx).queue.head?.toList) }
  | .dropReceiver _ => h

def watch : Watch Tid (Hist Tid) where
  begin := Hist.begin
  after := Hist.after
  client := Hist.client

end

section
variable {Tid : Type}

abbrev Sys (Tid : Type) := Watched Tid (Hist Tid)

def initial : Sys Tid where
  hub := .new
  hist := ⟨[], fun _ => none, fun _ => [], fun _ => none, fun _ => ⟨[], [], [], []⟩, fun _ => none,
    fun _ => (0, 0), fun _ => [], []⟩

def entries (s : Sys Tid) : List (Nat × Nat) := s.hub.clients.entries

/-- The stream of a client: what it has taken and what waits in its queue. -/
def received (s : Sys Tid) (rx : Nat) : List WsPayload :=
  s.hist.taken rx ++ (s.hub.channels rx).queue

def listening (s : Sys Tid) (rx : Nat) : Bool := (s.hub.channels rx).receiver

structure Sound (s : Sys Tid) : Prop where
  distinct : ∀ e ∈ entries s, ∀ e' ∈ entries s, e.2 = e'.2 → e = e'
  registered : ∀ e ∈ entries s, ∃ k, s.hist.since e.2 = some k
  unheard : ∀ rx, s.hist.since rx = none → received s rx = []
  stream : ∀ rx k, s.hist.since rx = some k →
    k ≤ s.hist.log.length ∧ received s rx <+: s.hist.log.drop k
  unallocated : ∀ rx, s.hub.allocated ≤ rx → s.hist.since rx = none ∧ s.hist.fresh rx = none
  fresh : ∀ rx i, s.hist.fresh rx = some i → s.hist.since rx = none

/-- The client has been sent everything. -/
def Heard (s : Sys Tid) (rx : Nat) : Prop :=
  ∀ k, s.hist.since rx = some k → listening s rx = true → received s rx = s.hist.log.drop k

/-- The client has been sent everything but the last payload. -/
def Awaits (payload : WsPayload) (s : Sys Tid) (rx : Nat) : Prop :=
  ∀ k, s.hist.since rx = some k → listening s rx = true →
    received s rx ++ [payload] = s.hist.log.drop k

def Full (s : Sys Tid) : Prop := ∀ e ∈ entries s, Heard s e.2

def Counted (s : Sys Tid) : Prop := s.hub.count = (entries s).length

/-- The map holds the members. -/
def Mapped (s : Sys Tid) : Prop := ∀ e, e ∈ entries s ↔ e ∈ s.hist.members

/-- What the holder of the mutex may rely on. -/
structure Kept (s s' : Sys Tid) : Prop where
  clients : s'.hub.clients = s.hub.clients
  count : s'.hub.count = s.hub.count
  log : s'.hist.log = s.hist.log
  since : s'.hist.since = s.hist.since
  members : s'.hist.members = s.hist.members
  stream : ∀ rx k, s.hist.since rx = some k → listening s' rx = true →
    listening s rx = true ∧ received s' rx = received s rx

/-- What every thread may rely on. -/
structure Private (i : Tid) (s s' : Sys Tid) : Prop where
  owner : s'.hub.owner = some i ↔ s.hub.owner = some i
  round : s'.hist.rounds i = s.hist.rounds i
  payload : s'.hist.payload i = s.hist.payload i
  fresh : ∀ rx, s.hist.fresh rx = some i → s'.hist.fresh rx = some i
  own : s'.hist.own i = s.hist.own i
  owes : s'.hist.owes i = s.hist.owes i

def outline : Outline Tid Downstream (Sys Tid) where
  inv s := Sound s ∧ (s.hub.owner = none → Full s ∧ Counted s ∧ Mapped s)
  rely i s s' := Private i s s' ∧ (s.hub.owner = some i → Kept s s')
  idle i s := s.hub.owner ≠ some i
  check _ _ _ := True

theorem Kept.refl (s : Sys Tid) : Kept s s :=
  ⟨rfl, rfl, rfl, rfl, rfl, fun _ _ _ h => ⟨h, rfl⟩⟩

theorem Private.refl (i : Tid) (s : Sys Tid) : Private i s s :=
  ⟨Iff.rfl, rfl, rfl, fun _ h => h, rfl, rfl⟩

theorem Private.trans {i : Tid} {s s' s'' : Sys Tid} (h : Private i s s')
    (h' : Private i s' s'') : Private i s s'' where
  owner := h'.owner.trans h.owner
  round := h'.round.trans h.round
  payload := h'.payload.trans h.payload
  fresh rx hf := h'.fresh rx (h.fresh rx hf)
  own := h'.own.trans h.own
  owes := h'.owes.trans h.owes

theorem Kept.trans {s s' s'' : Sys Tid} (h : Kept s s') (h' : Kept s' s'') : Kept s s'' where
  clients := h'.clients.trans h.clients
  count := h'.count.trans h.count
  log := h'.log.trans h.log
  since := h'.since.trans h.since
  members := h'.members.trans h.members
  stream rx k hk hl := by
    obtain ⟨hl', hr'⟩ := h'.stream rx k (by rw [h.since]; exact hk) hl
    obtain ⟨hl, hr⟩ := h.stream rx k hk hl'
    exact ⟨hl, hr'.trans hr⟩

theorem coherent : (outline : Outline Tid Downstream (Sys Tid)).Coherent where
  refl i s := ⟨.refl i s, fun _ => .refl s⟩
  trans _ _ _ _ h h' :=
    ⟨h.1.trans h'.1, fun hi => (h.2 hi).trans (h'.2 (h.1.owner.mpr hi))⟩
  idle _ _ _ h hr _ hi := h (hr.1.owner.mp hi)

theorem Heard.kept {s s' : Sys Tid} {rx : Nat} (h : Heard s rx) (hk : Kept s s') :
    Heard s' rx := by
  intro k hsince hl
  rw [hk.since] at hsince
  obtain ⟨hl, hr⟩ := hk.stream rx k hsince hl
  rw [hr, hk.log]
  exact h k hsince hl

theorem Awaits.kept {s s' : Sys Tid} {rx : Nat} {payload : WsPayload}
    (h : Awaits payload s rx) (hk : Kept s s') : Awaits payload s' rx := by
  intro k hsince hl
  rw [hk.since] at hsince
  obtain ⟨hl, hr⟩ := hk.stream rx k hsince hl
  rw [hr, hk.log]
  exact h k hsince hl

theorem Full.kept {s s' : Sys Tid} (h : Full s) (hk : Kept s s') : Full s' := by
  intro e he
  rw [entries, hk.clients] at he
  exact (h e he).kept hk

theorem Counted.kept {s s' : Sys Tid} (h : Counted s) (hk : Kept s s') : Counted s' := by
  simp only [Counted, entries, hk.clients, hk.count]
  exact h

theorem Mapped.kept {s s' : Sys Tid} (h : Mapped s) (hk : Kept s s') : Mapped s' := by
  simp only [Mapped, entries, hk.clients, hk.members]
  exact h

/-- Everything the soundness of a state is about. -/
def guarded (s : Sys Tid) :=
  (s.hub.clients, s.hub.channels, s.hub.allocated, s.hist.log, s.hist.since, s.hist.taken,
    s.hist.fresh)

theorem Sound.of_guarded {s s' : Sys Tid} (h : Sound s) (hg : guarded s' = guarded s) :
    Sound s' := by
  simp only [guarded, Prod.mk.injEq] at hg
  obtain ⟨hclients, hchannels, hallocated, hlog, hsince, htaken, hfresh⟩ := hg
  obtain ⟨hdistinct, hregistered, hunheard, hstream, hunallocated, hfr⟩ := h
  constructor <;> simp only [entries, received, hclients, hchannels, hallocated, hlog, hsince,
    htaken, hfresh] <;> assumption

/-- A step that only consumes: no stream grows, and the stream of a client that
is still listening stays. -/
theorem Sound.consume {s s' : Sys Tid} (h : Sound s) (hk : Kept s s')
    (hless : ∀ rx, received s' rx <+: received s rx)
    (hallocated : s'.hub.allocated = s.hub.allocated) (hfresh : s'.hist.fresh = s.hist.fresh) :
    Sound s' where
  distinct := by
    simp only [entries, hk.clients]
    exact h.distinct
  registered := by
    simp only [entries, hk.clients, hk.since]
    exact h.registered
  unheard rx hrx := by
    rw [hk.since] at hrx
    have hnil := hless rx
    rw [h.unheard rx hrx] at hnil
    exact List.prefix_nil.mp hnil
  stream rx k hrx := by
    rw [hk.since] at hrx
    obtain ⟨hle, hp⟩ := h.stream rx k hrx
    rw [hk.log]
    exact ⟨hle, (hless rx).trans hp⟩
  unallocated := by
    simp only [hallocated, hk.since, hfresh]
    exact h.unallocated
  fresh := by
    simp only [hk.since, hfresh]
    exact h.fresh

variable {i : Tid}

theorem inv_of_kept {s s' : Sys Tid} (hi : outline.inv s) (hs : Sound s') (hk : Kept s s')
    (howner : s'.hub.owner = s.hub.owner) : outline.inv s' := by
  refine ⟨hs, fun hnone => ?_⟩
  rw [howner] at hnone
  obtain ⟨hfull, hcounted, hmapped⟩ := hi.2 hnone
  exact ⟨hfull.kept hk, hcounted.kept hk, hmapped.kept hk⟩

/-- A step that leaves the mutex where it is and keeps what its holder relies on. -/
theorem grants_of_kept {s s' : Sys Tid} (hi : outline.inv s) (hs : Sound s')
    (hk : Kept s s') (howner : s'.hub.owner = s.hub.owner)
    (hp : ∀ j, j ≠ i → Private j s s') : outline.Grants i s s' :=
  ⟨inv_of_kept hi hs hk howner, fun j hj => ⟨hp j hj, fun _ => hk⟩⟩

/-- A step of the holder: nobody else relies on what the mutex guards. -/
theorem grants_of_holder {s s' : Sys Tid} (hmine : s.hub.owner = some i) (hs : Sound s')
    (howner : s'.hub.owner = s.hub.owner) (hp : ∀ j, j ≠ i → Private j s s') :
    outline.Grants i s s' := by
  refine ⟨⟨hs, fun hnone => ?_⟩, fun j hj => ⟨hp j hj, fun hj' => ?_⟩⟩
  · rw [howner, hmine] at hnone
    cases hnone
  · rw [hmine] at hj'
    exact absurd (Option.some.inj hj').symm hj

end
end ConductorRs.Flashblocks.Streams
