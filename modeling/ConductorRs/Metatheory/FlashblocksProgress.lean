import Mathlib.Order.CompletePartialOrder
import Mathlib.Order.Lattice
import ConductorRs.Concurrency.LockOrder
import ConductorRs.Core.FlashblocksService

/-!
No client holds up the flashblocks service.

The hub has one mutex. Whoever holds it neither waits for a socket nor for a channel
nor for the mutex itself, so a broadcast, a registration and an unregistration can
always be finished, whatever the clients and the upstream do.
-/
namespace ConductorRs.Flashblocks
open Concurrency

/-- A handler waits in its `select!` and in its writes. -/
def hubUse : Op → LockUse Unit
  | .lockClients => .acquire ()
  | .unlockClients => .release ()
  | .select _ _ _ | .send _ => .wait
  | _ => .other

/-- The listener waits for its connection, its stream and its timers. -/
def listenerUse : Upstream.Op → LockUse Unit
  | .sleepOrShutdown _ | .connectAsync _ | .select _ => .wait
  | _ => .other

def serviceUse : ServiceOps.Op → LockUse Unit
  | .inl o => listenerUse o
  | .inr o => hubUse o

abbrev HubLock : Logic Downstream (Set Unit) := lockOrder (E := Downstream) hubUse

theorem lockClients_ordered :
    HubLock.Holds (fun s => s = ∅) (op .lockClients) fun _ s => s = {()} := by
  refine lockOrder_call ?_
  rintro s rfl
  exact ⟨fun l hl => absurd hl (Set.notMem_empty l), fun _ => insert_empty_eq _⟩

theorem unlockClients_ordered :
    HubLock.Holds (fun s => s = {()}) (op .unlockClients) fun _ s => s = ∅ := by
  refine lockOrder_call ?_
  rintro s rfl
  exact ⟨rfl, fun _ => Set.sdiff_self⟩

/-- What is done under the mutex. -/
theorem underLock_ordered {t : Task Downstream Unit} (ht : t.All fun o => hubUse o = .other) :
    HubLock.Holds (fun s => s = ∅)
      ((op .lockClients).bind fun _ => t.bind fun _ => op .unlockClients) fun _ s => s = ∅ := by
  refine HubLock.bind lockClients_ordered fun _ => ?_
  exact HubLock.bind (lockOrder_all ht) fun _ => unlockClients_ordered

theorem register_ordered :
    HubLock.Holds (fun s => s = ∅) Hub.register fun _ s => s = ∅ := by
  refine HubLock.bind (lockOrder_other rfl) fun clientId => ?_
  refine HubLock.bind (lockOrder_other rfl) fun tx => ?_
  refine HubLock.bind lockClients_ordered fun _ => ?_
  refine HubLock.bind (lockOrder_other rfl) fun _ => ?_
  have hcount : Hub.recordCount.All fun o => hubUse o = .other :=
    ⟨rfl, fun _ => ⟨rfl, fun _ => trivial⟩⟩
  refine HubLock.bind (lockOrder_all hcount) fun _ => ?_
  exact HubLock.bind unlockClients_ordered fun _ => HubLock.done fun _ _ h => h

theorem unregister_ordered (clientId : Nat) :
    HubLock.Holds (fun s => s = ∅) (Hub.unregister clientId) fun _ s => s = ∅ :=
  underLock_ordered (t := (op (.removeClient clientId)).bind fun _ => Hub.recordCount)
    ⟨rfl, fun _ => ⟨rfl, fun _ => ⟨rfl, fun _ => trivial⟩⟩⟩

theorem broadcast_ordered (payload : WsPayload) :
    HubLock.Holds (fun s => s = ∅) (Hub.broadcast payload) fun _ s => s = ∅ := by
  refine HubLock.bind lockClients_ordered fun _ => ?_
  refine HubLock.bind (lockOrder_other rfl) fun clients => ?_
  refine HubLock.bind (lockOrder_all (Hub.offer_all (fun _ => rfl) clients [])) fun dropped => ?_
  refine HubLock.bind (lockOrder_all (Hub.drop_all (fun _ => rfl) dropped)) fun _ => ?_
  refine HubLock.bind (R := fun _ s => s = {()}) ?_ fun _ => unlockClients_ordered
  have hcount : Hub.recordCount.All fun o => hubUse o = .other :=
    ⟨rfl, fun _ => ⟨rfl, fun _ => trivial⟩⟩
  exact lockOrder_all hcount

/-- Between two calls of the hub a handler holds nothing. -/
theorem unlocked_ordered {o : Op} (h : hubUse o = .wait ∨ hubUse o = .other) :
    HubLock.Holds (fun s => s = ∅) (op o) fun _ s => s = ∅ := by
  refine lockOrder_call ?_
  rintro s rfl
  rcases h with h | h <;> rw [h]
  · exact ⟨rfl, fun _ => rfl⟩
  · exact ⟨trivial, fun _ => rfl⟩

theorem handleSelected_unlocked (awaitingPong : Bool) (selected : Selected) :
    (handleSelected awaitingPong selected).All fun o : Op =>
      hubUse o = .wait ∨ hubUse o = .other := by
  cases selected with
  | payload payload | ping => exact ⟨.inl rfl, fun ok => by cases ok <;> trivial⟩
  | closed | pongDeadline => trivial
  | incoming incoming => cases incoming <;> trivial

theorem downstreamRound_unlocked (rx : Nat) (awaitingPong : Bool) :
    (downstreamRound rx awaitingPong).All fun o : Op =>
      hubUse o = .wait ∨ hubUse o = .other := by
  refine ⟨.inl rfl, fun selected => ?_⟩
  cases selected with
  | closed => exact ⟨.inl rfl, fun selected => handleSelected_unlocked awaitingPong selected⟩
  | payload payload => exact handleSelected_unlocked awaitingPong (.payload payload)
  | ping => exact handleSelected_unlocked awaitingPong .ping
  | pongDeadline => exact handleSelected_unlocked awaitingPong .pongDeadline
  | incoming incoming => exact handleSelected_unlocked awaitingPong (.incoming incoming)

theorem handleDownstream_ordered (rounds : Nat) :
    HubLock.Holds (fun s => s = ∅) (handleDownstreamWithTiming rounds) fun _ s => s = ∅ := by
  refine HubLock.bind register_ordered fun client => ?_
  refine HubLock.bind (R := fun _ s => s = ∅) ?_ fun left => ?_
  · refine HubLock.loop (I := fun _ s => s = ∅) (fun awaitingPong => ?_) (fun _ _ _ h => h)
      rounds false
    refine HubLock.post (HubLock.all (fun o ho => unlocked_ordered ho)
      (downstreamRound_unlocked client.2 awaitingPong)) fun r _ h => ?_
    cases r <;> exact h
  · cases left with
    | none => exact HubLock.done fun _ _ h => h
    | some _ =>
        refine HubLock.bind (unregister_ordered client.1) fun _ => ?_
        exact HubLock.bind (unlocked_ordered (.inr rfl)) fun _ => HubLock.done fun _ _ h => h

theorem onHub_ordered {α : Type} {t : Task Downstream α} {A : Set Unit → Prop}
    {Q : α → Set Unit → Prop} (h : HubLock.Holds A t Q) :
    (lockOrder (E := ServiceOps) serviceUse).Holds A (t.interp onHub) Q :=
  lockOrder_interp (E := Downstream) hubUse serviceUse onHub
    (fun _ _ hop => ⟨hop, fun _ => rfl⟩) h

theorem onListener_ordered (o : Upstream.Op) :
    (lockOrder (E := ServiceOps) serviceUse).Holds (fun s => s = ∅) (onListener o)
      fun _ s => s = ∅ := by
  have hcall : ∀ o : Upstream.Op, (lockOrder (E := ServiceOps) serviceUse).Holds (fun s => s = ∅)
      (Task.call (E := ServiceOps) (.inl o)) fun _ s => s = ∅ := by
    intro o
    refine lockOrder_call ?_
    rintro s rfl
    cases o with
    | sleepOrShutdown _ | connectAsync _ | select _ => exact ⟨rfl, fun _ => rfl⟩
    | _ => exact ⟨trivial, fun _ => rfl⟩
  cases o with
  | broadcast payload =>
      refine (lockOrder (E := ServiceOps) serviceUse).bind (hcall _) fun _ => ?_
      exact onHub_ordered (broadcast_ordered payload)
  | _ => exact hcall _

theorem serviceBody_ordered (call : ServiceCall) :
    Ordered serviceUse (fun _ held => held = ∅) (serviceBody call) ∅ := by
  cases call with
  | listen url reconnectDelay rounds =>
      have hall := ((lockOrder (E := ServiceOps) serviceUse).via (E := Upstream.Listener)
        onListener).all (p := fun _ => True) (A := fun s => s = ∅)
        (fun o _ => Logic.via_call _ (onListener_ordered o))
        (Task.all_of_forall (fun _ => trivial)
          (Upstream.runUpstreamListener url reconnectDelay rounds (some 0)))
      exact hall ∅ rfl
  | handleDownstream rounds => exact onHub_ordered (handleDownstream_ordered rounds) ∅ rfl

section
variable {H : Type}

def mapOwner (s : ServiceState H) : Unit → Option ServiceTask := fun _ => s.hub.owner

theorem performSelect_owner {hub hub' : HubState ServiceTask} {rx : Nat}
    {recv awaitingPong : Bool} {x : Choice} {selected : Selected}
    (h : hub.performSelect rx recv awaitingPong x = some (selected, hub')) :
    hub'.owner = hub.owner := by
  cases x with
  | recv =>
      simp only [HubState.performSelect] at h
      split at h
      · split at h <;> cases h <;> rfl
      · cases h
  | deadline =>
      simp only [HubState.performSelect] at h
      split at h <;> cases h
      rfl
  | ping | incoming _ => cases h; rfl
  | none | sent _ => cases h

theorem hub_moves {hub hub' : HubState ServiceTask} {i : ServiceTask} {o : Op} {x : Choice}
    {r : o.Reply} (h : hub.perform i o x = some (r, hub')) :
    (hubUse o).Moves i (fun _ => hub.owner) fun _ => hub'.owner := by
  cases o with
  | lockClients =>
      simp only [HubState.perform] at h
      split at h
      · next hfree =>
          cases h
          exact ⟨hfree, by funext u; simp⟩
      · cases h
  | unlockClients =>
      simp only [HubState.perform] at h
      split at h
      · next hheld =>
          cases h
          exact ⟨hheld, by funext u; simp⟩
      · cases h
  | select rx recv awaitingPong => exact funext fun _ => performSelect_owner h
  | send message =>
      simp only [HubState.perform] at h
      split at h <;> cases h
      rfl
  | _ => cases h; rfl

theorem service_locking (watch : Watch ServiceTask H) :
    Locking (serviceMachine watch) .any serviceUse mapOwner where
  body := serviceBody_ordered
  enter s i call s' h := by
    cases i with
    | listener =>
        cases call with
        | listen url reconnectDelay rounds =>
            change (if s.started then none else some { s with started := true }) = some s' at h
            split at h <;> cases h
            rfl
        | handleDownstream rounds => cases h
    | client n =>
        cases call with
        | listen url reconnectDelay rounds => cases h
        | handleDownstream rounds => cases h; rfl
  perform s i o x r s' h := by
    cases o with
    | inl o =>
        obtain ⟨p, _, heq⟩ := Option.map_eq_some_iff.mp h
        cases heq
        cases o <;> rfl
    | inr o =>
        obtain ⟨p, hp, heq⟩ := Option.map_eq_some_iff.mp h
        cases heq
        exact hub_moves hp
  leave s i call a := rfl
  env s e s' h := by
    obtain ⟨u, _, rfl⟩ := Option.map_eq_some_iff.mp h
    rfl
  runs s i o h := by
    refine ⟨⟨.none, .none⟩, ?_⟩
    cases o with
    | inl o =>
        cases o with
        | sleepOrShutdown _ | connectAsync _ | select _ => exact absurd h id
        | _ => exact ⟨_, _, rfl, trivial⟩
    | inr o =>
        have hruns : ∃ r hub, s.hub.perform i o .none = some (r, hub) := by
          cases o with
          | lockClients =>
              simp only [HubState.perform, show s.hub.owner = none from h]
              exact ⟨(), _, rfl⟩
          | unlockClients => exact ⟨(), _, if_pos h⟩
          | select _ _ _ | send _ => exact absurd h id
          | _ => exact ⟨_, _, rfl⟩
        obtain ⟨r, hub, hhub⟩ := hruns
        exact ⟨r, _, Option.map_eq_some_iff.mpr ⟨_, hhub, rfl⟩, trivial⟩

/-- In every run of the service the task that holds the mutex of the hub has a next
operation that neither waits nor needs the mutex; and the service can be run on until
every broadcast, registration and unregistration is finished, so that each task has
ended or waits for its sockets, its channel or its timers, and the mutex is free. -/
theorem service_never_stuck (watch : Watch ServiceTask H) (leader : Bool) (hist : H)
    {c : Config ServiceTask ServiceOps (ServiceState H) ServiceCall (Option Unit)}
    (hr : (serviceMachine watch).Reaches .any (.quiet (.new leader hist)) c) :
    (∀ i, c.state.hub.owner = some i → ∃ o, c.pending i = some o ∧
      serviceUse o ≠ .wait ∧ o ≠ .inr .lockClients) ∧
    ∃ c', (serviceMachine watch).Reaches .any c c' ∧ c'.state.hub.owner = none ∧
      ∀ i, c'.tasks i = none ∨ ∃ o, c'.pending i = some o ∧ serviceUse o = .wait := by
  have hfree : ∀ lock, mapOwner (ServiceState.new leader hist) lock = none := fun _ => rfl
  have hdisciplined := (Disciplined.quiet _ hfree).reaches (service_locking watch) hr
  refine ⟨fun i ho => ?_, ?_⟩
  · have howner : mapOwner c.state () = some i := ho
    obtain ⟨call, o, next, ht, hwait⟩ := hdisciplined.owner_running howner
    refine ⟨o, Config.pending_of_perform ht, hwait, ?_⟩
    rintro rfl
    have hlt : () < () := (hdisciplined.running ht).1 () ho
    exact absurd hlt (lt_irrefl ())
  · obtain ⟨c', hr', hrest, hmutex⟩ := (service_locking watch).completes hfree hr
    refine ⟨c', hr', hmutex (), fun i => ?_⟩
    have hi := hrest i
    cases ht : c'.tasks i with
    | none => exact .inl rfl
    | some p =>
        obtain ⟨call, t⟩ := p
        rw [ht] at hi
        cases t with
        | done a => exact absurd hi id
        | perform o next => exact .inr ⟨o, Config.pending_of_perform ht, hi⟩

end

/-- No history is kept. -/
def unwatched : Watch ServiceTask Unit where
  begin _ _ _ := ()
  after _ _ _ _ _ _ := ()
  client _ _ _ := ()

def listenerSteps (n : Nat) : List (Event ServiceTask ServiceCall ServiceChoice Upstream.World) :=
  List.replicate n (.step .listener ⟨.none, .none⟩)

/-- A message arrives and the listener reads it; so many steps belong to passing it on. -/
def arrivalRun (n : Nat) : List (Event ServiceTask ServiceCall ServiceChoice Upstream.World) :=
  [.env (.arrive 0 (.text [1]))] ++ listenerSteps 2 ++ [.step .listener ⟨.read, .none⟩] ++
    listenerSteps n

/-- A client registers and takes nothing from its queue until it is full. The listener
has then taken the mutex to pass the next message on. -/
def broadcastRun : List (Event ServiceTask ServiceCall ServiceChoice Upstream.World) :=
  [.call (.client 0) (.handleDownstream 1)] ++
    List.replicate 7 (.step (.client 0) ⟨.none, .none⟩) ++
    [.call .listener (.listen "ws://rollup-boost" 5000 300)] ++
    (List.replicate 256 (arrivalRun 8)).flatten ++ arrivalRun 3

/-- The listener holds the mutex, and the queue of a registered client is full. -/
def facesFullQueue
    (c : Config ServiceTask ServiceOps (ServiceState Unit) ServiceCall (Option Unit)) : Bool :=
  decide (c.state.hub.owner = some .listener) && decide (c.state.hub.clients.entries = [(1, 0)]) &&
    decide ((c.state.hub.channels 0).queue.length = sendChannelBufferSize)

theorem broadcast_finishes :
    ∃ c, (serviceMachine unwatched).Reaches .any (.quiet (.new true ())) c ∧
      c.state.hub.owner = some .listener ∧
      c.state.hub.clients.entries = [(1, 0)] ∧
      (c.state.hub.channels 0).queue.length = sendChannelBufferSize ∧
      ∃ c', (serviceMachine unwatched).Reaches .any c c' ∧ c'.state.hub.owner = none := by
  obtain ⟨c, hr, hc⟩ := Machine.reaches_of_permitted (π := .any) (M := serviceMachine unwatched)
    (c := .quiet (.new true ())) (p := facesFullQueue) broadcastRun (by decide +kernel)
  simp only [facesFullQueue, Bool.and_eq_true, decide_eq_true_eq] at hc
  obtain ⟨c', hr', howner, _⟩ := (service_never_stuck unwatched true () hr).2
  exact ⟨c, hr, hc.1.1, hc.1.2, hc.2, c', hr', howner⟩

end ConductorRs.Flashblocks
