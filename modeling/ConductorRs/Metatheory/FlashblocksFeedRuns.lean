import ConductorRs.Metatheory.FlashblocksOrder

/-!
The handlers write what they take, and what the three outlines say of every run of the
service.
-/
namespace ConductorRs.Flashblocks.Feed
open Concurrency
open Upstream (UpstreamState Arrival)

abbrev since (s : Sys) : Nat → Option Nat := s.hist.streams.since

abbrev taken (s : Sys) : Nat → List WsPayload := s.hist.streams.taken

abbrev holder (s : Sys) : Nat → Option ServiceTask := s.hist.holder

/-- A client has been sent what its handler has taken from a registered receiver. -/
structure Served (s : Sys) : Prop where
  fresh : ∀ rx, s.hub.allocated ≤ rx → holder s rx = none ∧ taken s rx = []
  wrote : ∀ n, s.wrote n = [] ∨
    ∃ rx k, holder s rx = some (.client n) ∧ since s rx = some k ∧ s.wrote n <+: taken s rx

/-- What a task may rely on of the receivers it holds. -/
structure Own (i : ServiceTask) (s s' : Sys) : Prop where
  wrote : ∀ n, i = .client n → s'.wrote n = s.wrote n
  receiver : ∀ rx, holder s rx = some i → holder s' rx = some i ∧ taken s' rx = taken s rx
  registered : ∀ rx, since s rx ≠ none → since s' rx ≠ none

def handlers : Outline ServiceTask ServiceOps Sys where
  inv := Served
  rely := Own
  idle _ _ := True
  check _ _ _ := True

theorem handlers_coherent : handlers.Coherent where
  refl _ _ := ⟨fun _ _ => rfl, fun _ h => ⟨h, rfl⟩, fun _ h => h⟩
  trans _ _ _ _ h h' :=
    { wrote := fun n hn => (h'.wrote n hn).trans (h.wrote n hn)
      receiver := fun rx hrx =>
        ⟨(h'.receiver rx (h.receiver rx hrx).1).1,
          (h'.receiver rx (h.receiver rx hrx).1).2.trans (h.receiver rx hrx).2⟩
      registered := fun rx hrx => h'.registered rx (h.registered rx hrx) }
  idle _ _ _ h _ _ := h

/-- The state as the handlers see it. -/
structure Alike (s s' : Sys) : Prop where
  allocated : s'.hub.allocated = s.hub.allocated
  holder : holder s' = holder s
  taken : taken s' = taken s
  wrote : s'.wrote = s.wrote
  registered : ∀ rx, since s rx ≠ none → since s' rx ≠ none

theorem Alike.own {s s' : Sys} (h : Alike s s') (i : ServiceTask) : Own i s s' where
  wrote _ _ := by rw [h.wrote]
  receiver rx hrx := by
    rw [h.holder, h.taken]
    exact ⟨hrx, rfl⟩
  registered := h.registered

theorem registered_of_some {s s' : Sys} {rx k : Nat}
    (h : ∀ rx, since s rx ≠ none → since s' rx ≠ none) (hk : since s rx = some k) :
    ∃ k', since s' rx = some k' := by
  have hsome := h rx (by rw [hk]; exact nofun)
  exact Option.ne_none_iff_exists'.mp hsome

theorem Alike.served {s s' : Sys} (h : Alike s s') (hs : Served s) : Served s' := by
  refine ⟨fun rx hrx => ?_, fun n => ?_⟩
  · rw [h.holder, h.taken]
    exact hs.fresh rx (h.allocated ▸ hrx)
  · rw [h.wrote, h.holder, h.taken]
    rcases hs.wrote n with hempty | ⟨rx, k, hheld, hk, hprefix⟩
    · exact .inl hempty
    · obtain ⟨k', hk'⟩ := registered_of_some h.registered hk
      exact .inr ⟨rx, k', hheld, hk', hprefix⟩

theorem Alike.grants {s s' : Sys} (h : Alike s s') (hs : Served s) (i : ServiceTask) :
    handlers.Grants i s s' :=
  ⟨h.served hs, fun j _ => h.own j⟩

/-- The operations that neither make a channel, take a payload nor write one. -/
def Passive : Op → Prop
  | .channel | .select _ _ _ | .send (.text _) => False
  | _ => True

theorem perform_send {s hub : HubState ServiceTask} {i : ServiceTask} {message : DownstreamMessage}
    {x : Choice} {r : Bool} (h : s.perform i (.send message) x = some (r, hub)) : hub = s := by
  cases x <;> cases h
  rfl

theorem passive_alike {s : Sys} {i : ServiceTask} {o : Op} {x : Choice} {r : o.Reply}
    {hub : HubState ServiceTask} (ho : Passive o) (h : s.hub.perform i o x = some (r, hub)) :
    Alike s { s with
      hub := hub
      hist := watch.after s.hub hub s.hist i o r
      wrote := writeTo s.wrote i o r } := by
  have hallocated : hub.allocated = s.hub.allocated := by
    cases o with
    | channel | select _ _ _ => exact absurd ho id
    | lockClients | unlockClients =>
        simp only [HubState.perform] at h
        split at h <;> cases h
        rfl
    | send message => rw [perform_send h]
    | _ => cases h; rfl
  cases o with
  | channel | select _ _ _ => exact absurd ho id
  | send message =>
      cases message with
      | text payload => exact absurd ho id
      | ping => exact ⟨hallocated, rfl, rfl, by cases i <;> rfl, fun _ h => h⟩
  | insertClient clientId tx =>
      refine ⟨hallocated, rfl, rfl, by cases i <;> rfl, fun rx hrx => ?_⟩
      change Function.update (since s) tx _ rx ≠ none
      by_cases hne : rx = tx
      · subst hne
        rw [Function.update_self]
        exact Option.some_ne_none _
      · rw [Function.update_of_ne hne]
        exact hrx
  | _ => exact ⟨hallocated, rfl, rfl, by cases i <;> rfl, fun _ h => h⟩

section
variable {i : ServiceTask}

theorem passive_handlers {o : Op} (ho : Passive o) {A : Sys → Prop} (hA : handlers.Stable i A)
    (halike : ∀ s s', Alike s s' → A s → A s') :
    machine.Triple .any handlers i A (onHub o) fun _ => A := by
  refine Machine.Triple.call hA fun s hi hs => ⟨trivial, fun x r s' hp _ => ?_⟩
  obtain ⟨hub, hhub, rfl⟩ := hub_step hp
  have h := passive_alike (s := s) ho hhub
  exact ⟨h.grants hi i, halike _ _ h hs⟩

/-- Nothing of the listener's task touches a receiver or a client's socket. -/
theorem listen_handlers (url : String) (reconnectDelay rounds : Nat) :
    machine.Triple .any handlers i (fun _ => True)
      (serviceBody (.listen url reconnectDelay rounds)) fun _ _ => True := by
  have hhub : ∀ o, Passive o → machine.Triple .any handlers i (fun _ => True) (onHub o)
      fun _ _ => True :=
    fun o ho => passive_handlers ho (fun _ _ _ _ _ => trivial) fun _ _ _ _ => trivial
  have hup : ∀ o : Upstream.Op, machine.Triple .any handlers i (fun _ => True)
      (Task.call (E := ServiceOps) (.inl o)) fun _ _ => True := by
    intro o
    refine Machine.Triple.call (fun _ _ _ _ _ => trivial) fun s hi _ =>
      ⟨trivial, fun x r s' hp _ => ?_⟩
    obtain ⟨u, _, rfl⟩ := upstream_step hp
    have h : Alike s { s with
        upstream := u, hist := (beginOf o).elim s.hist (watch.begin s.hist i) } := by
      cases o <;> exact ⟨rfl, rfl, rfl, rfl, fun _ h => h⟩
    exact ⟨h.grants hi i, trivial⟩
  refine ((machine.logic .any handlers i).via (E := Upstream.Listener) onListener).all
    (p := fun _ => True) (fun o _ => Logic.via_call (machine.logic .any handlers i) ?_)
    (Task.all_of_forall (fun _ => trivial) _)
  cases o with
  | broadcast payload =>
      refine Machine.Triple.bind (hup _) fun _ => ?_
      refine ((machine.logic .any handlers i).via (E := Downstream) onHub).all (p := Passive)
        (fun o ho => Logic.via_call (machine.logic .any handlers i) (hhub o ho)) ?_
      refine ⟨trivial, fun _ => ⟨trivial, fun clients => ?_⟩⟩
      refine Task.all_bind _ (Hub.offer payload clients []) _
        (Hub.offer_all (fun _ => trivial) clients []) fun dropped => ?_
      refine Task.all_bind _ (Hub.drop dropped) _ (Hub.drop_all (fun _ => trivial) dropped)
        fun _ => ?_
      exact ⟨trivial, fun _ => ⟨trivial, fun _ => ⟨trivial, fun _ => trivial⟩⟩⟩
  | _ => exact hup _

end

section
variable {n rx : Nat} {payload : WsPayload}

def Unserved (n : Nat) (s : Sys) : Prop := s.wrote n = []

/-- The channel is made and not registered yet. -/
structure Made (n tx : Nat) (s : Sys) : Prop where
  wrote : s.wrote n = []
  holder : holder s tx = some (.client n)
  taken : taken s tx = []

/-- The client has been sent `sent`, and `hand` has been taken for it besides. -/
structure Mine (n rx : Nat) (hand : List WsPayload) (s : Sys) : Prop where
  holder : holder s rx = some (.client n)
  registered : since s rx ≠ none
  taken : taken s rx = s.wrote n ++ hand

theorem unserved_stable : handlers.Stable (.client n) (Unserved n) :=
  fun _ _ h hr _ => (hr.wrote n rfl).trans h

theorem made_stable : handlers.Stable (.client n) (Made n rx) := by
  intro s s' h hr _
  obtain ⟨hheld, htaken⟩ := hr.receiver rx h.holder
  exact ⟨(hr.wrote n rfl).trans h.wrote, hheld, htaken.trans h.taken⟩

theorem mine_stable {hand : List WsPayload} : handlers.Stable (.client n) (Mine n rx hand) := by
  intro s s' h hr _
  obtain ⟨hheld, htaken⟩ := hr.receiver rx h.holder
  exact ⟨hheld, hr.registered rx h.registered, by rw [htaken, h.taken, hr.wrote n rfl]⟩

theorem unserved_alike (s s' : Sys) (h : Alike s s') (hs : Unserved n s) : Unserved n s' := by
  rw [Unserved, h.wrote]
  exact hs

theorem made_alike (s s' : Sys) (h : Alike s s') (hs : Made n rx s) : Made n rx s' :=
  ⟨by rw [h.wrote, hs.wrote], by rw [h.holder, hs.holder], by rw [h.taken, hs.taken]⟩

theorem mine_alike {hand : List WsPayload} (s s' : Sys) (h : Alike s s')
    (hs : Mine n rx hand s) : Mine n rx hand s' :=
  ⟨by rw [h.holder, hs.holder], h.registered rx hs.registered,
    by rw [h.taken, h.wrote, hs.taken]⟩

/-- A channel is new to everyone. -/
theorem channel_handlers :
    machine.Triple .any handlers (.client n) (Unserved n) (onHub .channel) fun tx => Made n tx := by
  refine Machine.Triple.call unserved_stable fun s hi hs => ⟨trivial, fun x tx s' hp _ => ?_⟩
  obtain ⟨hub, hhub, rfl⟩ := hub_step hp
  cases hhub
  obtain ⟨hnone, hempty⟩ := hi.fresh s.hub.allocated (Nat.le_refl _)
  have hother : ∀ rx j, holder s rx = some j → rx ≠ s.hub.allocated := by
    rintro rx j hj rfl
    rw [hnone] at hj
    cases hj
  refine ⟨⟨⟨fun rx hrx => ?_, fun m => ?_⟩, fun j _ => ?_⟩, hs, Function.update_self .., hempty⟩
  · have hlt : s.hub.allocated + 1 ≤ rx := hrx
    have hne : rx ≠ s.hub.allocated := by omega
    obtain ⟨hfree, hunheard⟩ := hi.fresh rx (by omega)
    exact ⟨(Function.update_of_ne hne ..).trans hfree, hunheard⟩
  · rcases hi.wrote m with hempty | ⟨rx, k, hheld, hk⟩
    · exact .inl hempty
    · exact .inr ⟨rx, k, (Function.update_of_ne (hother rx _ hheld) ..).trans hheld, hk⟩
  · exact ⟨fun _ _ => rfl, fun rx hrx =>
      ⟨(Function.update_of_ne (hother rx _ hrx) ..).trans hrx, rfl⟩, fun _ h => h⟩

theorem insert_handlers {clientId tx : Nat} :
    machine.Triple .any handlers (.client n) (Made n tx) (onHub (.insertClient clientId tx))
      fun _ => Mine n tx [] := by
  refine Machine.Triple.call made_stable fun s hi hs => ⟨trivial, fun x r s' hp _ => ?_⟩
  obtain ⟨hub, hhub, rfl⟩ := hub_step hp
  have h := passive_alike (s := s) (o := .insertClient clientId tx) trivial hhub
  have hmade := made_alike _ _ h hs
  refine ⟨h.grants hi _, hmade.holder, ?_, by rw [hmade.taken, hmade.wrote]; rfl⟩
  change Function.update (since s) tx _ tx ≠ none
  rw [Function.update_self]
  exact nofun

/-- A payload that is taken is in the hand of the handler. -/
def handOf : Selected → List WsPayload
  | .payload payload => [payload]
  | _ => []

/-- Payloads have been taken from one receiver, and nothing else has happened. -/
structure Takes (rx : Nat) (more : List WsPayload) (s s' : Sys) : Prop where
  allocated : s'.hub.allocated = s.hub.allocated
  holder : holder s' = holder s
  taken : taken s' = Function.update (taken s) rx (taken s rx ++ more)
  wrote : s'.wrote = s.wrote
  since : since s' = since s

theorem Takes.grants {i : ServiceTask} {more : List WsPayload} {s s' : Sys}
    (h : Takes rx more s s') (hs : Served s) (hheld : Feed.holder s rx = some i) :
    handlers.Grants i s s' := by
  have hother : ∀ rx', Feed.holder s rx' ≠ some i → Feed.taken s' rx' = Feed.taken s rx' := by
    intro rx' hrx'
    have hne : rx' ≠ rx := by
      rintro rfl
      exact hrx' hheld
    rw [h.taken, Function.update_of_ne hne]
  refine ⟨⟨fun rx' hrx' => ?_, fun m => ?_⟩, fun j hj => ⟨fun _ _ => by rw [h.wrote], ?_, ?_⟩⟩
  · obtain ⟨hnone, hempty⟩ := hs.fresh rx' (h.allocated ▸ hrx')
    rw [hother rx' (by rw [hnone]; exact nofun), h.holder]
    exact ⟨hnone, hempty⟩
  · rw [h.wrote, h.holder, h.since]
    rcases hs.wrote m with hempty | ⟨rx', k, hheld', hk, hprefix⟩
    · exact .inl hempty
    · refine .inr ⟨rx', k, hheld', hk, hprefix.trans ?_⟩
      rw [h.taken]
      by_cases hne : rx' = rx
      · subst hne
        rw [Function.update_self]
        exact List.prefix_append _ _
      · rw [Function.update_of_ne hne]
  · intro rx' hrx'
    rw [h.holder, hother rx' fun hi => hj (Option.some.inj (hrx'.symm.trans hi))]
    exact ⟨hrx', rfl⟩
  · intro rx' hrx'
    rw [h.since]
    exact hrx'

theorem performSelect_allocated {hub hub' : HubState ServiceTask} {recv awaitingPong : Bool}
    {x : Choice} {selected : Selected}
    (h : hub.performSelect rx recv awaitingPong x = some (selected, hub')) :
    hub'.allocated = hub.allocated := by
  cases x with
  | recv =>
      simp only [HubState.performSelect] at h
      split at h
      · split at h <;> cases h <;> rfl
      · cases h
  | deadline =>
      simp only [HubState.performSelect] at h
      split at h <;> cases h
      rfl
  | ping | incoming _ => cases h; rfl
  | none | sent _ => cases h

theorem select_takes {s : Sys} {hub : HubState ServiceTask} {recv awaitingPong : Bool} {x : Choice}
    {selected : Selected} (h : s.hub.performSelect rx recv awaitingPong x = some (selected, hub)) :
    Takes rx (handOf selected) s { s with
      hub := hub
      hist := watch.after s.hub hub s.hist (.client n) (.select rx recv awaitingPong) selected
      wrote := writeTo s.wrote (.client n) (.select rx recv awaitingPong) selected } := by
  have hallocated := performSelect_allocated h
  cases selected with
  | payload payload => exact ⟨hallocated, rfl, rfl, rfl, rfl⟩
  | _ => exact ⟨hallocated, rfl, by simp [handOf, watch, Streams.Hist.after], rfl, rfl⟩

theorem select_handlers {recv awaitingPong : Bool} :
    machine.Triple .any handlers (.client n) (Mine n rx [])
      (onHub (.select rx recv awaitingPong)) fun selected => Mine n rx (handOf selected) := by
  refine Machine.Triple.call mine_stable fun s hi hs => ⟨trivial, fun x selected s' hp _ => ?_⟩
  obtain ⟨hub, hhub, rfl⟩ := hub_step hp
  have h := select_takes (n := n) hhub
  refine ⟨h.grants hi hs.holder, ?_, ?_, ?_⟩
  · rw [h.holder]
    exact hs.holder
  · rw [h.since]
    exact hs.registered
  · rw [h.taken, Function.update_self, h.wrote, hs.taken, List.append_nil]

/-- A payload that is written is no longer in the hand; one that is not is lost to the
client, which is left. -/
theorem sendText_handlers :
    machine.Triple .any handlers (.client n) (Mine n rx [payload]) (onHub (.send (.text payload)))
      fun sent s => sent = true → Mine n rx [] s := by
  refine Machine.Triple.call mine_stable fun s hi hs => ⟨trivial, fun x sent s' hp _ => ?_⟩
  obtain ⟨hub, hhub, rfl⟩ := hub_step hp
  obtain rfl := perform_send hhub
  have htaken := hs.taken
  cases sent with
  | false => exact ⟨⟨hi, fun j _ => (handlers_coherent.refl j s)⟩, nofun⟩
  | true =>
      have hself : Function.update s.wrote n (s.wrote n ++ [payload]) n = s.wrote n ++ [payload] :=
        Function.update_self ..
      obtain ⟨k, hk⟩ := Option.ne_none_iff_exists'.mp hs.registered
      refine ⟨⟨⟨hi.fresh, fun m => ?_⟩, fun j hj => ⟨fun m hm => ?_, fun _ h => ⟨h, rfl⟩,
        fun _ h => h⟩⟩, fun _ => ⟨hs.holder, hs.registered, ?_⟩⟩
      · by_cases hm : m = n
        · subst hm
          refine .inr ⟨rx, k, hs.holder, hk, ?_⟩
          change Function.update s.wrote m (s.wrote m ++ [payload]) m <+: taken s rx
          rw [hself, htaken]
        · have hother : Function.update s.wrote n (s.wrote n ++ [payload]) m = s.wrote m :=
            Function.update_of_ne hm ..
          rcases hi.wrote m with hempty | ⟨rx', k', hheld', hk', hprefix⟩
          · exact .inl (hother.trans hempty)
          · refine .inr ⟨rx', k', hheld', hk', ?_⟩
            change Function.update s.wrote n (s.wrote n ++ [payload]) m <+: taken s rx'
            rw [hother]
            exact hprefix
      · have hne : m ≠ n := by
          rintro rfl
          exact hj hm
        exact Function.update_of_ne hne ..
      · change taken s rx = Function.update s.wrote n (s.wrote n ++ [payload]) n ++ []
        rw [hself, htaken, List.append_nil]

abbrev handling (n : Nat) : Logic Downstream Sys :=
  (machine.logic .any handlers (.client n)).via (E := Downstream) onHub

theorem passive_handling (o : Op) (ho : Passive o) {A : Sys → Prop}
    (hA : handlers.Stable (.client n) A) (halike : ∀ s s', Alike s s' → A s → A s') :
    (handling n).Holds A (op o) fun _ => A :=
  Logic.via_call _ (passive_handlers ho hA halike)

theorem register_handling :
    (handling n).Holds (Unserved n) Hub.register fun client => Mine n client.2 [] := by
  refine (handling n).bind (passive_handling .fetchAddNextId trivial unserved_stable
    unserved_alike) fun clientId => ?_
  refine (handling n).bind (Logic.via_call _ channel_handlers) fun tx => ?_
  refine (handling n).bind (passive_handling .lockClients trivial made_stable made_alike)
    fun _ => ?_
  refine (handling n).bind (Logic.via_call _ insert_handlers) fun _ => ?_
  have hmine : ∀ o, Passive o → (handling n).Holds (Mine n tx []) (op o) fun _ => Mine n tx [] :=
    fun o ho => passive_handling o ho mine_stable mine_alike
  refine (handling n).bind (R := fun _ => Mine n tx []) ?_ fun _ => ?_
  · exact (handling n).bind (hmine .clientsLen trivial) fun count =>
      hmine (.recordWebsocketClientCount count) trivial
  · exact (handling n).bind (hmine .unlockClients trivial) fun _ =>
      (handling n).done fun _ _ h => h

/-- The loop goes on with an empty hand. -/
def Goes (n rx : Nat) : Bool ⊕ Unit → Sys → Prop := Sum.elim (fun _ => Mine n rx []) fun _ _ => True

theorem handleSelected_handling (awaitingPong : Bool) (selected : Selected) :
    (handling n).Holds (Mine n rx (handOf selected)) (handleSelected awaitingPong selected)
      (Goes n rx) := by
  cases selected with
  | payload payload =>
      refine (handling n).bind (Logic.via_call _ sendText_handlers) fun sent => ?_
      cases sent with
      | true => exact (handling n).done fun _ _ h => h rfl
      | false => exact (handling n).done fun _ _ _ => trivial
  | closed => exact (handling n).done fun _ _ h => h
  | ping =>
      refine (handling n).bind (passive_handling (.send .ping) trivial mine_stable mine_alike)
        fun sent => ?_
      cases sent with
      | true => exact (handling n).done fun _ _ h => h
      | false => exact (handling n).done fun _ _ _ => trivial
  | pongDeadline => exact (handling n).done fun _ _ _ => trivial
  | incoming incoming =>
      cases incoming with
      | pong | other => exact (handling n).done fun _ _ h => h
      | close | error | ended => exact (handling n).done fun _ _ _ => trivial

theorem downstreamRound_handling (awaitingPong : Bool) :
    (handling n).Holds (Mine n rx []) (downstreamRound rx awaitingPong) (Goes n rx) := by
  refine (handling n).bind (Logic.via_call _ select_handlers) fun selected => ?_
  cases selected with
  | closed =>
      refine (handling n).bind (Logic.via_call _ select_handlers) fun selected => ?_
      exact handleSelected_handling awaitingPong selected
  | payload payload => exact handleSelected_handling awaitingPong (.payload payload)
  | ping => exact handleSelected_handling awaitingPong .ping
  | pongDeadline => exact handleSelected_handling awaitingPong .pongDeadline
  | incoming incoming => exact handleSelected_handling awaitingPong (.incoming incoming)

theorem handle_handlers (rounds : Nat) :
    machine.Triple .any handlers (.client n) (Unserved n)
      (serviceBody (.handleDownstream rounds)) fun _ _ => True := by
  have htrue : ∀ o, Passive o → (handling n).Holds (fun _ => True) (op o) fun _ _ => True :=
    fun o ho => passive_handling o ho (fun _ _ _ _ _ => trivial) fun _ _ _ _ => trivial
  have hrun : (handling n).Holds (Unserved n) (handleDownstreamWithTiming rounds)
      fun _ _ => True := by
    refine (handling n).bind register_handling fun client => ?_
    refine (handling n).bind (R := fun _ _ => True) ?_ fun left => ?_
    · exact (handling n).loop (I := fun _ => Mine n client.2 [])
        (fun awaitingPong => downstreamRound_handling awaitingPong) (fun _ _ _ _ => trivial)
        rounds false
    · cases left with
      | none => exact (handling n).done fun _ _ h => h
      | some _ =>
          refine (handling n).all htrue (t := (Hub.unregister client.1).bind fun _ =>
            (op (.dropReceiver client.2)).bind fun _ => .done (some ())) ?_
          exact ⟨trivial, fun _ => ⟨trivial, fun _ => ⟨trivial, fun _ => ⟨trivial, fun _ =>
            ⟨trivial, fun _ => ⟨trivial, fun _ => trivial⟩⟩⟩⟩⟩⟩
  exact hrun

end

/-- The three outlines together. -/
def feed : Outline ServiceTask ServiceOps Sys := streams.and (order.and handlers)

/-- What entering a call establishes. -/
def Entered : ServiceTask → ServiceCall → Sys → Prop
  | .listener, .listen _ _ _, s => Streams.Free .listener (hubOf s) ∧ Following (some 0) s ∧ True
  | .client n, .handleDownstream rounds, s =>
      Streams.Entered (.client n) (.handleDownstream rounds) (hubOf s) ∧ True ∧ Unserved n s
  | _, _, _ => False

/-- What a task leaves behind. -/
def Rested (i : ServiceTask) (s : Sys) : Prop :=
  Streams.Free i (hubOf s) ∧ (i = .listener → log s = payloads s.upstream) ∧ True

theorem body_feed (i : ServiceTask) (call : ServiceCall) :
    machine.Triple .any feed i (Entered i call) (serviceBody call) fun _ => Rested i := by
  cases i with
  | listener =>
      cases call with
      | listen url reconnectDelay rounds =>
          have horder := Machine.Triple.conseq (fun _ _ h => h)
            (listener_order url reconnectDelay rounds)
            fun _ s _ (h : log s = payloads s.upstream) (_ : ServiceTask.listener = .listener) => h
          exact (listen_streams url reconnectDelay rounds).and
            (horder.and (listen_handlers url reconnectDelay rounds))
      | handleDownstream rounds => exact fun _ _ h => h.elim
  | client n =>
      cases call with
      | listen url reconnectDelay rounds => exact fun _ _ h => h.elim
      | handleDownstream rounds =>
          exact (handle_streams rounds).and ((handle_order n rounds).and (handle_handlers rounds))

/-- The listener starts once, with nothing passed on. -/
theorem enter_listener {s : Sys} (hi : feed.inv s)
    (hstarted : s.started = false) :
    feed.Grants .listener s { s with started := true } ∧
      Following (some 0) { s with started := true } := by
  obtain ⟨horderly, hlogged⟩ := hi.2.1.unstarted hstarted
  have hfollow : Following (some 0) { s with started := true } := ⟨rfl, horderly, hlogged⟩
  have halike : Alike s { s with started := true } := ⟨rfl, rfl, rfl, rfl, fun _ h => h⟩
  refine ⟨Outline.Grants.and ?_ (Outline.Grants.and ?_ ?_), hfollow⟩
  · exact Streams.coherent.pull_grants hi.1 rfl
  · exact ⟨hfollow.linked hi.2.1.matched, fun j hj hj' => absurd hj' hj⟩
  · exact halike.grants hi.2.2 _

theorem enter_client {s : Sys} {n rounds : Nat} (hi : feed.inv s)
    (hfree : Streams.Free (.client n) (hubOf s)) :
    feed.Grants (.client n) s { s with
      hist := watch.begin s.hist (.client n) (.handleDownstream rounds)
      wrote := Function.update s.wrote n [] } ∧
    Streams.Entered (.client n) (.handleDownstream rounds) (hubOf { s with
      hist := watch.begin s.hist (.client n) (.handleDownstream rounds)
      wrote := Function.update s.wrote n [] }) := by
  obtain ⟨hstreams, hentered⟩ :=
    @Streams.enter_holds ServiceTask (.client n) _ (hubOf s) (.handleDownstream rounds) hi.1 hfree
  have hsame : Same s { s with
      hist := watch.begin s.hist (.client n) (.handleDownstream rounds)
      wrote := Function.update s.wrote n [] } := ⟨rfl, rfl, rfl, rfl⟩
  refine ⟨Outline.Grants.and hstreams (Outline.Grants.and ?_ ?_), hentered⟩
  · exact ⟨hsame.linked hi.2.1, fun _ _ _ => hsame.left⟩
  · refine ⟨⟨hi.2.2.fresh, fun m => ?_⟩, fun j hj => ⟨fun m hm => ?_, fun _ h => ⟨h, rfl⟩,
      fun _ h => h⟩⟩
    · by_cases hm : m = n
      · subst hm
        exact .inl (Function.update_self ..)
      · have hother : Function.update s.wrote n [] m = s.wrote m := Function.update_of_ne hm ..
        change Function.update s.wrote n [] m = [] ∨ ∃ rx k, _ ∧ _ ∧
          Function.update s.wrote n [] m <+: _
        rw [hother]
        exact hi.2.2.wrote m
    · have hne : m ≠ n := by
        rintro rfl
        exact hj hm
      exact Function.update_of_ne hne ..

theorem world_grows {u u' : UpstreamState} {e : Upstream.World} (h : u.world e = some u') :
    Grows u u' := by
  cases e with
  | arrive stream frame =>
      simp only [UpstreamState.world] at h
      split at h
      · cases h
        refine ⟨rfl, rfl, [⟨stream, frame, u.leader⟩], rfl, fun other => ?_⟩
        by_cases hne : other = stream
        · subst hne
          exact ⟨_, List.Sublist.refl _, by simp [UpstreamState.setConnection]⟩
        · exact ⟨[], List.nil_sublist _, by simp [UpstreamState.setConnection, hne]⟩
      · cases h
  | disconnect stream =>
      cases h
      refine ⟨rfl, rfl, [], (List.append_nil _).symm, fun other => ⟨[], .slnil, ?_⟩⟩
      by_cases hne : other = stream
      · subst hne
        simp [UpstreamState.setConnection]
      · simp [UpstreamState.setConnection, hne]
  | setLeader leader =>
      cases h
      exact ⟨rfl, rfl, (Grows.refl u).arrivals⟩
  | shutdown =>
      cases h
      exact ⟨rfl, rfl, (Grows.refl u).arrivals⟩

theorem Linked.grows {s : Sys} {u : UpstreamState} (h : Linked s) (hg : Grows s.upstream u) :
    Linked { s with upstream := u } where
  matched := by
    rw [Matched, hg.forwarded]
    exact h.matched
  passed := by
    obtain ⟨more, harrived, _⟩ := hg.arrivals
    change List.Sublist (Feed.passed u) u.arrived
    rw [Feed.passed, hg.forwarded, harrived]
    exact h.passed.trans (List.sublist_append_left _ _)
  logged := by
    change log s <+: payloads u
    rw [payloads_grows hg]
    exact h.logged
  unstarted hs := by
    obtain ⟨horderly, hlogged⟩ := h.unstarted hs
    exact ⟨horderly.grows hg, hlogged.trans (payloads_grows hg).symm⟩

theorem verified : machine.Verified .any feed := by
  refine Machine.verified_of_calls (streams_coherent.and (order_coherent.and handlers_coherent))
    (A := Entered) (Q := fun i _ _ => Rested i) ?_ ?_ body_feed ?_ ?_
  · exact fun i _ _ s s' h hr hi =>
      ⟨free_stable s s' h.1 hr.1 hi.1, order_coherent.idle i h.2.1 hr.2.1 hi.2.1, trivial⟩
  · intro s i call s' hi hidle he _
    cases i with
    | listener =>
        cases call with
        | listen url reconnectDelay rounds =>
            change (if s.started then none else some { s with started := true }) = some s' at he
            split at he
            · cases he
            · next hstarted =>
                cases he
                obtain ⟨hg, hfollow⟩ := enter_listener hi (Bool.eq_false_iff.mpr hstarted)
                exact ⟨hg, hidle.1, hfollow, trivial⟩
        | handleDownstream rounds => cases he
    | client n =>
        cases call with
        | listen url reconnectDelay rounds => cases he
        | handleDownstream rounds =>
            cases he
            obtain ⟨hg, hentered⟩ := enter_client hi hidle.1
            exact ⟨hg, hentered, trivial, Function.update_self ..⟩
  · intro s i call a hi h
    exact ⟨⟨hi, fun j _ =>
      (streams_coherent.and (order_coherent.and handlers_coherent)).refl j s⟩, h⟩
  · intro s e s' hi he _
    obtain ⟨u, hu, rfl⟩ := Option.map_eq_some_iff.mp he
    have hg := world_grows hu
    have halike : Alike s { s with upstream := u } := ⟨rfl, rfl, rfl, rfl, fun _ h => h⟩
    refine ⟨⟨hi.1, hi.2.1.grows hg, halike.served hi.2.2⟩, fun j => ⟨?_, fun _ => ?_, ?_⟩⟩
    · exact streams_coherent.refl j s
    · exact ⟨hg, rfl, rfl, rfl⟩
    · exact halike.own j

theorem initial_inv (leader : Bool) : feed.inv (initial leader) := by
  refine ⟨Streams.initial_inv, ⟨nofun, .slnil, List.prefix_rfl, fun _ => ⟨.slnil, rfl⟩⟩,
    fun _ _ => ⟨rfl, rfl⟩, fun _ => .inl rfl⟩

theorem passed_payloads {u : UpstreamState} (h : Matched u) :
    (passed u).map (fun a => a.frame.payload) = (payloads u).map some := by
  rw [passed, payloads]
  rw [Matched] at h
  generalize u.forwarded = forwarded at h ⊢
  induction forwarded with
  | nil => rfl
  | cons e rest ih =>
      obtain ⟨a, ha, hpayload⟩ := h e List.mem_cons_self
      rw [List.filterMap_cons_some ha, List.map_cons, List.map_cons, List.map_cons, hpayload,
        ih fun e' he' => h e' (List.mem_cons_of_mem e he')]

/-- The listener is in the broadcast of its last payload and has not walked through the
clients yet. -/
def Entering (c : Config ServiceTask ServiceOps Sys ServiceCall (Option Unit)) : Prop :=
  c.pending .listener = some (.inr .lockClients) ∨ c.pending .listener = some (.inr .iterClients)

theorem passing_cases {s : Sys} {o : ServiceOps.Op} (h : Passing s o) :
    log s = payloads s.upstream ∨ ((o = .inr .lockClients ∨ o = .inr .iterClients) ∧
      ∃ payload, payloads s.upstream = log s ++ [payload]) := by
  rcases o with o | o
  · exact .inl h
  · cases o with
    | lockClients => exact .inr ⟨.inl rfl, h⟩
    | iterClients => exact .inr ⟨.inr rfl, h⟩
    | _ => exact .inl h

/-- The log of the hub is what the listener has passed on. -/
theorem logged_of_conforms
    {c : Config ServiceTask ServiceOps Sys ServiceCall (Option Unit)}
    (h : machine.Conforms .any feed c) :
    log c.state = payloads c.state.upstream ∨
      (Entering c ∧ ∃ payload, payloads c.state.upstream = log c.state ++ [payload]) := by
  have hcoherent := streams_coherent.and (order_coherent.and handlers_coherent)
  cases hop : c.pending .listener with
  | none => exact .inl ((h.idle hcoherent (fun _ _ _ _ => rfl) hop).2.1 rfl)
  | some o =>
      rcases passing_cases ((h.check hcoherent hop).2.1 rfl) with hlog | ⟨ho, hpayload⟩
      · exact .inl hlog
      · exact .inr ⟨ho.imp (hop.trans <| congrArg some ·) (hop.trans <| congrArg some ·), hpayload⟩

/-- In every run of the service: the payloads that were passed on are those of upstream
messages in the order of their arrival, and what was written to a client is, in order
and without a gap, what was passed on since its registration. While the mutex of the
hub is free a registered client that is listening has in its queue all of the log that
it has not taken yet, and the log is all that was passed on, but for the last payload
while its broadcast has not walked through the clients yet. -/
theorem feed_in_order (leader : Bool)
    {c : Config ServiceTask ServiceOps Sys ServiceCall (Option Unit)}
    (hr : machine.Reaches .any (.quiet (initial leader)) c) :
    (∃ messages : List Arrival, List.Sublist messages c.state.upstream.arrived ∧
      messages.map (fun a => a.frame.payload) = (payloads c.state.upstream).map some) ∧
    (∀ n, c.state.wrote n = [] ∨ ∃ rx k, holder c.state rx = some (.client n) ∧
      since c.state rx = some k ∧ c.state.wrote n <+: (payloads c.state.upstream).drop k) ∧
    (c.state.hub.owner = none → ∀ e ∈ c.state.hub.clients.entries, ∀ k,
      since c.state e.2 = some k → (c.state.hub.channels e.2).receiver = true →
      taken c.state e.2 ++ (c.state.hub.channels e.2).queue = (log c.state).drop k) ∧
    (log c.state = payloads c.state.upstream ∨
      (Entering c ∧ ∃ payload, payloads c.state.upstream = log c.state ++ [payload])) := by
  have hconf := verified.reaches
    (Machine.conforms_quiet (initial leader) (initial_inv leader)
      fun _ => ⟨by simp [Streams.outline, streams, Outline.pull, hubOf, initial,
        ServiceState.new, HubState.new], fun _ => rfl, trivial⟩) hr
  obtain ⟨⟨hsound, hfree⟩, hlinked, hserved⟩ := hconf.1
  refine ⟨⟨passed c.state.upstream, hlinked.passed, ?_⟩, fun n => ?_, fun hnone => ?_,
    logged_of_conforms hconf⟩
  · exact passed_payloads hlinked.matched
  · rcases hserved.wrote n with hempty | ⟨rx, k, hheld, hk, hprefix⟩
    · exact .inl hempty
    · refine .inr ⟨rx, k, hheld, hk, hprefix.trans ?_⟩
      have hstream := (hsound.stream rx k hk).2
      exact ((List.prefix_append _ _).trans hstream).trans (hlinked.logged.drop k)
  · exact (hfree hnone).1

def steps (i : ServiceTask) (count : Nat) (upstream : Upstream.Choice) (hub : Choice) :
    List (Event ServiceTask ServiceCall ServiceChoice Upstream.World) :=
  List.replicate count (.step i ⟨upstream, hub⟩)

/-- A client connects, a message arrives, the listener passes it on and the handler of
the client writes it. -/
def deliveryRun : List (Event ServiceTask ServiceCall ServiceChoice Upstream.World) :=
  [.call (.client 0) (.handleDownstream 1)] ++ steps (.client 0) 7 .none .none ++
    [.call .listener (.listen "ws://rollup-boost" 5000 1), .env (.arrive 0 (.text [1]))] ++
    steps .listener 2 .none .none ++ steps .listener 1 .read .none ++
    steps .listener 8 .none .none ++
    steps (.client 0) 1 .none .recv ++ steps (.client 0) 1 .none (.sent true)

def delivered (c : Config ServiceTask ServiceOps Sys ServiceCall (Option Unit)) : Bool :=
  decide (c.state.wrote 0 = [⟨[1]⟩])

theorem message_delivered :
    ∃ c, machine.Reaches .any (.quiet (initial true)) c ∧ c.state.wrote 0 = [⟨[1]⟩] ∧
      ∃ rx k, since c.state rx = some k ∧
        c.state.wrote 0 <+: (payloads c.state.upstream).drop k := by
  have hrun : ∃ c, machine.Reaches .any (.quiet (initial true)) c ∧ delivered c = true :=
    Machine.reaches_of_permitted deliveryRun (by decide +kernel)
  obtain ⟨c, hr, hc⟩ := hrun
  have hwrote : c.state.wrote 0 = [⟨[1]⟩] := of_decide_eq_true hc
  refine ⟨c, hr, hwrote, ?_⟩
  rcases (feed_in_order true hr).2.1 0 with hempty | ⟨rx, k, _, hk, hprefix⟩
  · rw [hwrote] at hempty
    cases hempty
  · exact ⟨rx, k, hk, hprefix⟩

end ConductorRs.Flashblocks.Feed
