import ConductorRs.Concurrency.Compose
import ConductorRs.Core.FlashblocksService
import ConductorRs.Metatheory.HubStreamsRuns

/-!
What a client of the flashblocks service is sent.

Three outlines say it together. The streams of the hub are what they are in a hub on
its own. The listener passes messages on in the order in which they arrived, and the
log of the hub is the list of what it has passed on, but for a broadcast that has just
begun. A handler writes what it takes from its own receiver, which no other handler
uses.
-/
namespace ConductorRs.Flashblocks.Feed
open Concurrency

/-- `holder` is the handler that has made a channel. -/
structure Hist where
  streams : Streams.Hist ServiceTask
  holder : Nat → Option ServiceTask

def holderAfter (holder : Nat → Option ServiceTask) (i : ServiceTask) :
    (o : Op) → o.Reply → Nat → Option ServiceTask
  | .channel, tx => Function.update holder tx (some i)
  | _, _ => holder

def watch : Watch ServiceTask Hist where
  begin h i call := { h with streams := h.streams.begin i call }
  after hub hub' h i o r := ⟨h.streams.after hub hub' i o r, holderAfter h.holder i o r⟩
  client hub h e := { h with streams := h.streams.client hub e }

abbrev Sys := ServiceState Hist

def initial (leader : Bool) : Sys := .new leader ⟨Streams.initial.hist, fun _ => none⟩

abbrev machine : Machine ServiceTask ServiceOps Sys ServiceCall (Option Unit) ServiceChoice
    Upstream.World :=
  serviceMachine watch

theorem upstream_step {s s' : Sys} {i : ServiceTask} {o : Upstream.Op} {x : ServiceChoice}
    {r : o.Reply} (h : machine.perform s i (.inl o) x = some (r, s')) :
    ∃ u, s.upstream.perform o x.upstream = some (r, u) ∧ s' = { s with
      upstream := u, hist := (beginOf o).elim s.hist (watch.begin s.hist i) } := by
  obtain ⟨p, hp, heq⟩ := Option.map_eq_some_iff.mp h
  cases heq
  exact ⟨p.2, hp, rfl⟩

theorem hub_step {s s' : Sys} {i : ServiceTask} {o : Op} {x : ServiceChoice} {r : o.Reply}
    (h : machine.perform s i (.inr o) x = some (r, s')) :
    ∃ hub, s.hub.perform i o x.hub = some (r, hub) ∧ s' = { s with
      hub := hub
      hist := watch.after s.hub hub s.hist i o r
      wrote := writeTo s.wrote i o r } := by
  obtain ⟨p, hp, heq⟩ := Option.map_eq_some_iff.mp h
  cases heq
  exact ⟨p.2, hp, rfl⟩

/-- The hub of the service. -/
def hubOf (s : Sys) : Streams.Sys ServiceTask := ⟨s.hub, s.hist.streams⟩

def hubOp : ServiceOps.Op → Option Op
  | .inr o => some o
  | .inl _ => none

def streams : Outline ServiceTask ServiceOps Sys := Streams.outline.pull hubOf hubOp

theorem streams_coherent : streams.Coherent := Streams.coherent.pull hubOf hubOp

section
variable {i : ServiceTask}

/-- A task of the hub does to the streams what it does in a hub on its own. -/
theorem streams_interp {α : Type} {A : Streams.Sys ServiceTask → Prop}
    {Q : α → Streams.Sys ServiceTask → Prop} {t : Task Downstream α}
    (h : (Streams.logic i).Holds A t Q) :
    machine.Triple .any streams i (fun s => A (hubOf s)) (t.interp onHub)
      fun a s => Q a (hubOf s) := by
  refine Machine.Triple.interp hubOf (fun _ hi => hi) (fun o A Q ho => ?_) h
  refine Machine.Triple.pull_inr hubOf (fun _ _ hop => (Option.some.inj hop).symm) ?_ ho
  intro s x r s' hp
  obtain ⟨hub, hhub, rfl⟩ := hub_step hp
  exact ⟨x.hub, Option.map_eq_some_iff.mpr ⟨(r, hub), hhub, rfl⟩, trivial⟩

theorem free_stable : streams.Stable i fun s => Streams.Free i (hubOf s) :=
  fun s s' h hr hi => Streams.free_stable (hubOf s) (hubOf s') h hr hi

/-- An operation of the listener that begins no call of the hub leaves the hub alone. -/
theorem upstream_streams {o : Upstream.Op} (ho : beginOf o = none) :
    machine.Triple .any streams i (fun s => Streams.Free i (hubOf s))
      (Task.call (E := ServiceOps) (.inl o)) fun _ s => Streams.Free i (hubOf s) := by
  refine Machine.Triple.call free_stable fun s hi hs => ⟨nofun, ?_⟩
  intro x r s' hp _
  obtain ⟨u, _, rfl⟩ := upstream_step hp
  have hhub : hubOf { s with
      upstream := u, hist := (beginOf o).elim s.hist (watch.begin s.hist i) } = hubOf s := by
    rw [ho]
    rfl
  refine ⟨Streams.coherent.pull_grants hi hhub, ?_⟩
  rw [hhub]
  exact hs

theorem begin_streams (payload : WsPayload) :
    machine.Triple .any streams i (fun s => Streams.Free i (hubOf s))
      (Task.call (E := ServiceOps) (.inl (.broadcast payload)))
      fun _ s => Streams.Entered i (.broadcast payload) (hubOf s) := by
  refine Machine.Triple.call free_stable fun s hi hs => ⟨nofun, ?_⟩
  intro x r s' hp _
  obtain ⟨u, _, rfl⟩ := upstream_step hp
  exact @Streams.enter_holds ServiceTask i _ (hubOf s) (.broadcast payload) hi hs

theorem listen_streams (url : String) (reconnectDelay rounds : Nat) :
    machine.Triple .any streams i (fun s => Streams.Free i (hubOf s))
      (serviceBody (.listen url reconnectDelay rounds)) fun _ s => Streams.Free i (hubOf s) := by
  refine ((machine.logic .any streams i).via (E := Upstream.Listener) onListener).all
    (p := fun _ => True) (fun o _ => Logic.via_call (machine.logic .any streams i) ?_)
    (Task.all_of_forall (fun _ => trivial) _)
  cases o with
  | broadcast payload =>
      refine Machine.Triple.bind (begin_streams payload) fun _ => ?_
      exact Machine.Triple.conseq
        (fun _ _ h => ⟨h.free, h.payload payload rfl, h.owing.2⟩)
        (streams_interp (Streams.broadcast_holds payload)) fun _ _ _ h => h.1
  | _ => exact upstream_streams rfl

theorem handle_streams (rounds : Nat) :
    machine.Triple .any streams i
      (fun s => Streams.Entered i (.handleDownstream rounds) (hubOf s))
      (serviceBody (.handleDownstream rounds)) fun _ s => Streams.Free i (hubOf s) :=
  Machine.Triple.conseq (fun _ _ h => h.owing)
    (streams_interp (Streams.handleDownstream_holds rounds)) fun _ _ _ h => h.1

end

open Upstream (UpstreamState Arrival)

/-- The messages that were passed on. -/
def passed (u : UpstreamState) : List Arrival := u.forwarded.filterMap Prod.snd

def payloads (u : UpstreamState) : List WsPayload := u.forwarded.map Prod.fst

def queueOf (u : UpstreamState) : Option Nat → List Arrival
  | none => []
  | some stream => (u.connections stream).queue

/-- What was passed on, what is in hand and what waits on the stream are messages in
the order of their arrival. -/
def Orderly (stream : Option Nat) (u : UpstreamState) : Prop :=
  List.Sublist (passed u ++ u.hand.toList ++ queueOf u stream) u.arrived

/-- A payload passed on is that of a message. -/
def Matched (u : UpstreamState) : Prop :=
  ∀ e ∈ u.forwarded, ∃ a, e.2 = some a ∧ a.frame.payload = some e.1

/-- What the world may do while the listener looks elsewhere. -/
structure Grows (u u' : UpstreamState) : Prop where
  forwarded : u'.forwarded = u.forwarded
  hand : u'.hand = u.hand
  arrivals : ∃ more, u'.arrived = u.arrived ++ more ∧ ∀ stream, ∃ new,
    List.Sublist new more ∧ (u'.connections stream).queue = (u.connections stream).queue ++ new

theorem Grows.refl (u : UpstreamState) : Grows u u :=
  ⟨rfl, rfl, [], (List.append_nil _).symm, fun _ => ⟨[], .slnil, (List.append_nil _).symm⟩⟩

theorem Grows.trans {u u' u'' : UpstreamState} (h : Grows u u') (h' : Grows u' u'') :
    Grows u u'' := by
  obtain ⟨more, harrived, hqueues⟩ := h.arrivals
  obtain ⟨more', harrived', hqueues'⟩ := h'.arrivals
  refine ⟨h'.forwarded.trans h.forwarded, h'.hand.trans h.hand, more ++ more', ?_,
    fun stream => ?_⟩
  · rw [harrived', harrived, List.append_assoc]
  · obtain ⟨new, hnew, hq⟩ := hqueues stream
    obtain ⟨new', hnew', hq'⟩ := hqueues' stream
    exact ⟨new ++ new', hnew.append hnew', by rw [hq', hq, List.append_assoc]⟩

theorem Orderly.grows {stream : Option Nat} {u u' : UpstreamState} (h : Orderly stream u)
    (hg : Grows u u') : Orderly stream u' := by
  obtain ⟨more, harrived, hqueues⟩ := hg.arrivals
  have hqueue : ∃ new, List.Sublist new more ∧ queueOf u' stream = queueOf u stream ++ new := by
    cases stream with
    | none => exact ⟨[], List.nil_sublist more, rfl⟩
    | some stream => exact hqueues stream
  obtain ⟨new, hnew, hq⟩ := hqueue
  rw [Orderly, passed, hg.forwarded, hg.hand, hq, harrived, ← List.append_assoc]
  exact h.append hnew

theorem Orderly.passed {stream : Option Nat} {u : UpstreamState} (h : Orderly stream u) :
    List.Sublist (passed u) u.arrived := by
  refine List.Sublist.trans ?_ h
  rw [List.append_assoc]
  exact List.sublist_append_left _ _

/-- A stream that is no longer read leaves the order as it is. -/
theorem Orderly.forget {stream : Option Nat} {u : UpstreamState} (h : Orderly stream u) :
    Orderly none u := by
  refine List.Sublist.trans ?_ h
  rw [queueOf, List.append_nil]
  exact List.sublist_append_left _ _

theorem perform_forwarded {u u' : UpstreamState} {o : Upstream.Op} {x : Upstream.Choice}
    {r : o.Reply} (ho : beginOf o = none) (h : u.perform o x = some (r, u')) :
    u'.forwarded = u.forwarded ∧ u'.arrived = u.arrived := by
  cases o with
  | broadcast payload => cases ho
  | connectAsync url => cases x <;> cases h <;> exact ⟨rfl, rfl⟩
  | select stream =>
      cases x with
      | read =>
          obtain ⟨p, hread, heq⟩ := Option.map_eq_some_iff.mp h
          cases heq
          simp only [UpstreamState.performRead] at hread
          split at hread
          · cases hread
            exact ⟨rfl, rfl⟩
          · split at hread <;> cases hread
            exact ⟨rfl, rfl⟩
      | changed | elapsed | error => cases h; exact ⟨rfl, rfl⟩
      | none | refused error => cases h
  | _ => cases h; exact ⟨rfl, rfl⟩

theorem Orderly.isLeader {stream : Option Nat} {u u' : UpstreamState} {x : Upstream.Choice}
    {r : Bool} (h : Orderly stream u) (hp : u.perform .isLeader x = some (r, u')) :
    Orderly stream u' := by
  cases hp
  refine List.Sublist.trans ?_ h
  refine List.Sublist.append (List.Sublist.append (List.Sublist.refl _) ?_) (List.Sublist.refl _)
  change List.Sublist (if u.leader then u.hand else none).toList _
  split
  · exact List.Sublist.refl _
  · exact List.nil_sublist _

/-- Reading takes the oldest message of the stream into the hand. -/
theorem Orderly.select {stream : Nat} {u u' : UpstreamState} {x : Upstream.Choice}
    {selected : Upstream.Selected} (h : Orderly (some stream) u)
    (hp : u.perform (.select stream) x = some (selected, u')) : Orderly (some stream) u' := by
  cases x with
  | read =>
      obtain ⟨p, hread, heq⟩ := Option.map_eq_some_iff.mp hp
      cases heq
      simp only [UpstreamState.performRead] at hread
      split at hread
      · next a rest hq =>
          cases hread
          rw [Orderly, queueOf, hq] at h
          refine List.Sublist.trans ?_ h
          have hqueue : queueOf { u.setConnection stream ⟨rest, (u.connections stream).alive⟩ with
              hand := UpstreamState.take a } (some stream) = rest := by
            simp [queueOf, UpstreamState.setConnection]
          rw [hqueue, List.append_assoc, List.append_assoc]
          refine List.Sublist.append (List.Sublist.refl _) ?_
          refine List.Sublist.trans ?_ (List.sublist_append_right _ _)
          change List.Sublist ((UpstreamState.take a).toList ++ rest) ([a] ++ rest)
          refine List.Sublist.append ?_ (List.Sublist.refl _)
          rw [UpstreamState.take]
          split
          · exact List.Sublist.refl _
          · exact List.nil_sublist _
      · split at hread <;> cases hread
        exact h
  | changed | elapsed | error => cases hp; exact h
  | none | refused error => cases hp

/-- The stream that a dial has opened. -/
def streamOf : Upstream.Dialed → Option Nat
  | .connected stream => some stream
  | .refused _ | .elapsed => none

/-- A new stream has no messages yet. -/
theorem Orderly.connect {u u' : UpstreamState} {x : Upstream.Choice} {url : String}
    {dialed : Upstream.Dialed} (h : Orderly none u)
    (hp : u.perform (.connectAsync url) x = some (dialed, u')) : Orderly (streamOf dialed) u' := by
  cases x with
  | none =>
      cases hp
      have hempty : queueOf { u.setConnection u.dialed ⟨[], true⟩ with dialed := u.dialed + 1 }
          (some u.dialed) = [] := by
        simp [queueOf, UpstreamState.setConnection]
      rw [Orderly, streamOf, hempty]
      exact h
  | refused error | elapsed => cases hp; exact h
  | changed | read | error => cases hp

/-- The message in hand is the next one that is passed on. -/
theorem passed_broadcast {u u' : UpstreamState} {x : Upstream.Choice} {payload : WsPayload}
    {r : Unit} (hp : u.perform (.broadcast payload) x = some (r, u')) {a : Arrival}
    (ha : u.hand = some a) :
    passed u' ++ u'.hand.toList = passed u ++ u.hand.toList ∧
      payloads u' = payloads u ++ [payload] := by
  cases hp
  refine ⟨?_, ?_⟩
  · simp [passed, ha]
  · simp [payloads]

end ConductorRs.Flashblocks.Feed
