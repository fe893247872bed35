import ConductorRs.Metatheory.FlashblocksFeed
import ConductorRs.Metatheory.LeaderPeriods

/-!
The listener keeps the order of the messages, and the log of the hub is what it has
passed on: one triple for each operation and one for each part of its loop.
-/
namespace ConductorRs.Flashblocks.Feed
open Concurrency
open Upstream (UpstreamState Arrival Listener)

abbrev log (s : Sys) : List WsPayload := s.hist.streams.log

/-- The log of the hub is what was passed on, but for the last of it. -/
structure Linked (s : Sys) : Prop where
  matched : Matched s.upstream
  passed : List.Sublist (passed s.upstream) s.upstream.arrived
  logged : log s <+: payloads s.upstream
  unstarted : s.started = false → Orderly (some 0) s.upstream ∧ log s = payloads s.upstream

/-- What the listener may rely on. -/
structure Left (s s' : Sys) : Prop where
  upstream : Grows s.upstream s'.upstream
  log : log s' = log s
  payload : s'.hist.streams.payload .listener = s.hist.streams.payload .listener
  started : s'.started = s.started

theorem Left.refl (s : Sys) : Left s s := ⟨.refl _, rfl, rfl, rfl⟩

theorem Left.trans {s s' s'' : Sys} (h : Left s s') (h' : Left s' s'') : Left s s'' :=
  ⟨h.upstream.trans h'.upstream, h'.log.trans h.log, h'.payload.trans h.payload,
    h'.started.trans h.started⟩

theorem payloads_grows {u u' : UpstreamState} (h : Grows u u') : payloads u' = payloads u := by
  rw [payloads, h.forwarded, payloads]

/-- When the listener is about to perform an operation, all that it has passed on is in
the log, but for the payload of a broadcast that has not walked through the clients
yet. -/
def Passing (s : Sys) : ServiceOps.Op → Prop
  | .inr .lockClients | .inr .iterClients =>
      ∃ payload, payloads s.upstream = log s ++ [payload]
  | _ => log s = payloads s.upstream

def order : Outline ServiceTask ServiceOps Sys where
  inv := Linked
  rely i s s' := i = .listener → Left s s'
  idle i s := i = .listener → log s = payloads s.upstream
  check i s o := i = .listener → Passing s o

theorem order_coherent : order.Coherent where
  refl _ s _ := .refl s
  trans _ _ _ _ h h' hi := (h hi).trans (h' hi)
  idle _ _ _ h hr _ hi := by
    rw [(hr hi).log, h hi, payloads_grows (hr hi).upstream]

/-- The listener has passed on what the hub has logged, and goes on reading the stream. -/
structure Following (stream : Option Nat) (s : Sys) : Prop where
  started : s.started = true
  orderly : Orderly stream s.upstream
  logged : log s = payloads s.upstream

/-- A broadcast has begun whose payload is not in the log yet. -/
structure Begun (payload : WsPayload) (stream : Option Nat) (s : Sys) : Prop where
  started : s.started = true
  orderly : Orderly stream s.upstream
  logged : log s ++ [payload] = payloads s.upstream
  payload : s.hist.streams.payload .listener = some payload

theorem Following.left {stream : Option Nat} {s s' : Sys} (h : Following stream s)
    (hl : Left s s') : Following stream s' :=
  ⟨hl.started.trans h.started, h.orderly.grows hl.upstream,
    by rw [hl.log, h.logged, payloads_grows hl.upstream]⟩

theorem following_stable (stream : Option Nat) : order.Stable .listener (Following stream) :=
  fun _ _ h hr _ => h.left (hr rfl)

theorem begun_stable (payload : WsPayload) (stream : Option Nat) :
    order.Stable .listener (Begun payload stream) := by
  intro s s' h hr _
  have hl := hr rfl
  exact ⟨hl.started.trans h.started, h.orderly.grows hl.upstream,
    by rw [hl.log, h.logged, payloads_grows hl.upstream], hl.payload.trans h.payload⟩

theorem Following.linked {stream : Option Nat} {s : Sys} (h : Following stream s)
    (hm : Matched s.upstream) : Linked s where
  matched := hm
  passed := h.orderly.passed
  logged := h.logged ▸ List.prefix_rfl
  unstarted hs := by
    rw [h.started] at hs
    cases hs

theorem after_log {hub hub' : HubState ServiceTask} {h : Streams.Hist ServiceTask}
    {i : ServiceTask} {o : Op} {r : o.Reply} (ho : o ≠ .iterClients) :
    (h.after hub hub' i o r).log = h.log ∧ (h.after hub hub' i o r).payload = h.payload := by
  cases o with
  | iterClients => exact absurd rfl ho
  | select rx recv awaitingPong =>
      change Selected at r
      cases r <;> exact ⟨rfl, rfl⟩
  | _ => exact ⟨rfl, rfl⟩

/-- The operations that leave the log alone. -/
def Unlogged (o : Op) : Prop := o ≠ .iterClients

/-- The operations of a broadcast that has walked through the clients. -/
def Walked (o : Op) : Prop := o ≠ .lockClients ∧ o ≠ .iterClients

theorem Following.passing {stream : Option Nat} {s : Sys} (h : Following stream s) {o : Op}
    (ho : Walked o) : Passing s (.inr o) := by
  cases o with
  | lockClients => exact absurd rfl ho.1
  | iterClients => exact absurd rfl ho.2
  | _ => exact h.logged

theorem Following.upstream_passing {stream : Option Nat} {s : Sys} (h : Following stream s)
    (o : Upstream.Op) : Passing s (.inl o) := h.logged

/-- The state as the listener sees it. -/
structure Same (s s' : Sys) : Prop where
  upstream : s'.upstream = s.upstream
  log : log s' = log s
  payload : s'.hist.streams.payload = s.hist.streams.payload
  started : s'.started = s.started

theorem Same.left {s s' : Sys} (h : Same s s') : Left s s' :=
  ⟨h.upstream ▸ .refl _, h.log, by rw [h.payload], h.started⟩

theorem Same.linked {s s' : Sys} (h : Same s s') (hs : Linked s) : Linked s' := by
  refine ⟨?_, ?_, ?_, fun hstarted => ?_⟩
  · rw [h.upstream]; exact hs.matched
  · rw [h.upstream]; exact hs.passed
  · rw [h.upstream, h.log]; exact hs.logged
  · rw [h.upstream, h.log]
    exact hs.unstarted (h.started ▸ hstarted)

section
variable {i : ServiceTask}

/-- Only the walk through the clients touches the log. -/
theorem hub_order {o : Op} (ho : Unlogged o) {A : Sys → Prop} (hA : order.Stable i A)
    (hsame : ∀ s s', Same s s' → A s → A s')
    (hcheck : ∀ s, A s → i = .listener → Passing s (.inr o)) :
    machine.Triple .any order i A (onHub o) fun _ => A := by
  refine Machine.Triple.call hA fun s hi hs => ⟨hcheck s hs, fun x r s' hp _ => ?_⟩
  obtain ⟨hub, _, rfl⟩ := hub_step hp
  have h : Same s { s with
      hub := hub
      hist := watch.after s.hub hub s.hist i o r
      wrote := writeTo s.wrote i o r } := ⟨rfl, (after_log ho).1, (after_log ho).2, rfl⟩
  exact ⟨⟨h.linked hi, fun _ _ _ => h.left⟩, hsame _ _ h hs⟩

/-- Nothing of a client's task touches the log. -/
theorem handle_order (n rounds : Nat) :
    machine.Triple .any order (.client n) (fun _ => True) (serviceBody (.handleDownstream rounds))
      fun _ => order.idle (.client n) := by
  let L := (machine.logic .any order (.client n)).via (E := Downstream) onHub
  refine L.post (Q := fun _ _ => True) (L.all (p := Unlogged) (fun o ho => Logic.via_call _ ?_) ?_)
    fun _ _ _ => nofun
  · exact hub_order ho (fun _ _ _ _ _ => trivial) (fun _ _ _ _ => trivial) fun _ _ => nofun
  · refine Task.all_bind _ Hub.register _ ?_ fun client => ?_
    · exact ⟨nofun, fun _ => ⟨nofun, fun _ => ⟨nofun, fun _ => ⟨nofun, fun _ => ⟨nofun, fun _ =>
        ⟨nofun, fun _ => ⟨nofun, fun _ => trivial⟩⟩⟩⟩⟩⟩⟩
    · refine Task.all_bind _ _ _ (Task.all_loop _ (fun awaitingPong => ?_) rounds false)
        fun left => ?_
      · refine Task.all_mono (fun o ho => ?_) _
          (Streams.downstreamRound_consuming client.2 awaitingPong)
        rintro rfl
        cases ho
      · cases left with
        | none => trivial
        | some _ =>
            refine Task.all_bind _ (Hub.unregister client.1) _ ?_ fun _ =>
              ⟨nofun, fun _ => trivial⟩
            exact ⟨nofun, fun _ => ⟨nofun, fun _ => ⟨nofun, fun _ => ⟨nofun, fun _ =>
              ⟨nofun, fun _ => trivial⟩⟩⟩⟩⟩

end

theorem following_same {stream : Option Nat} (s s' : Sys) (h : Same s s')
    (hs : Following stream s) : Following stream s' := hs.left h.left

theorem begun_same {payload : WsPayload} {stream : Option Nat} (s s' : Sys) (h : Same s s')
    (hs : Begun payload stream s) : Begun payload stream s' :=
  ⟨h.started.trans hs.started, h.upstream ▸ hs.orderly, by rw [h.log, h.upstream, hs.logged],
    by rw [h.payload, hs.payload]⟩

theorem iter_order {payload : WsPayload} {stream : Option Nat} :
    machine.Triple .any order .listener (Begun payload stream) (onHub .iterClients)
      fun _ => Following stream := by
  refine Machine.Triple.call (begun_stable payload stream) fun s hi hs =>
    ⟨fun _ => ⟨payload, hs.logged.symm⟩, fun x r s' hp _ => ?_⟩
  obtain ⟨hub, _, rfl⟩ := hub_step hp
  have hlog : s.hist.streams.log ++ (s.hist.streams.payload .listener).toList =
      payloads s.upstream := by
    rw [hs.payload]
    exact hs.logged
  have h : Following stream { s with
      hub := hub
      hist := watch.after s.hub hub s.hist .listener .iterClients r
      wrote := writeTo s.wrote .listener .iterClients r } := ⟨hs.started, hs.orderly, hlog⟩
  exact ⟨⟨h.linked hi.matched, fun j hj hj' => absurd hj' hj⟩, h⟩

/-- Through the broadcast the payload comes into the log. -/
theorem broadcast_order (payload : WsPayload) (stream : Option Nat) :
    machine.Triple .any order .listener (Begun payload stream)
      ((Hub.broadcast payload).interp onHub) fun _ => Following stream := by
  let L := (machine.logic .any order .listener).via (E := Downstream) onHub
  have hkeep : ∀ o, Walked o → L.Holds (Following stream) (op o) fun _ => Following stream :=
    fun o ho => Logic.via_call _ (hub_order ho.2 (following_stable stream) following_same
      fun _ hs _ => hs.passing ho)
  have hall : ∀ {α : Type} {t : Task Downstream α}, (t.All Walked) →
      L.Holds (Following stream) t fun _ => Following stream := fun ht => L.all hkeep ht
  have hlock : L.Holds (Begun payload stream) (op .lockClients) fun _ => Begun payload stream :=
    Logic.via_call _ (hub_order (o := .lockClients) nofun (begun_stable payload stream) begun_same
      fun _ hs _ => ⟨payload, hs.logged.symm⟩)
  refine L.bind hlock fun _ => ?_
  refine L.bind (Logic.via_call _ iter_order) fun clients => ?_
  refine L.bind (hall (Hub.offer_all (fun _ => ⟨nofun, nofun⟩) clients [])) fun dropped => ?_
  refine L.bind (hall (Hub.drop_all (fun _ => ⟨nofun, nofun⟩) dropped)) fun _ => ?_
  refine hall (t := Hub.recordCount.bind fun _ => op .unlockClients) ?_
  exact ⟨⟨nofun, nofun⟩, fun _ => ⟨⟨nofun, nofun⟩, fun _ => ⟨⟨nofun, nofun⟩, fun _ => trivial⟩⟩⟩

abbrev listening : Logic Listener Sys :=
  (machine.logic .any order .listener).via (E := Listener) onListener

/-- An operation after which the listener reads the stream that its reply names. -/
theorem upstream_order {o : Upstream.Op} (ho : beginOf o = none) {stream : Option Nat}
    (next : o.Reply → Option Nat) {Q : o.Reply → UpstreamState → Prop}
    (h : ∀ u x r u', Orderly stream u → u.perform o x = some (r, u') →
      Orderly (next r) u' ∧ Q r u') :
    listening.Holds (Following stream) (Upstream.op o)
      fun r s => Following (next r) s ∧ Q r s.upstream := by
  have hcall : onListener o = Task.call (E := ServiceOps) (.inl o) := by
    cases o with
    | broadcast payload => cases ho
    | _ => rfl
  refine Logic.via_call _ ?_
  rw [hcall]
  refine Machine.Triple.call (following_stable stream) fun s hi hs =>
    ⟨fun _ => hs.upstream_passing o, fun x r s' hp _ => ?_⟩
  obtain ⟨u, hperf, rfl⟩ := upstream_step hp
  obtain ⟨hforwarded, _⟩ := perform_forwarded ho hperf
  obtain ⟨horderly, hq⟩ := h s.upstream x.upstream r u hs.orderly hperf
  have hpayloads : payloads u = payloads s.upstream := by rw [payloads, hforwarded, payloads]
  have hfollow : Following (next r) { s with
      upstream := u, hist := (beginOf o).elim s.hist (watch.begin s.hist .listener) } := by
    rw [ho]
    exact ⟨hs.started, horderly, hs.logged.trans hpayloads.symm⟩
  have hmatched : Matched u := by
    rw [Matched, hforwarded]
    exact hi.matched
  exact ⟨⟨hfollow.linked hmatched, fun j hj hj' => absurd hj' hj⟩, hfollow, hq⟩

/-- An operation that reads nothing. -/
theorem plain_order {o : Upstream.Op} (ho : beginOf o = none) {stream : Option Nat}
    (h : ∀ u x r u', Orderly stream u → u.perform o x = some (r, u') → Orderly stream u') :
    listening.Holds (Following stream) (Upstream.op o) fun _ => Following stream :=
  listening.post (upstream_order ho (fun _ => stream) (Q := fun _ _ => True)
    fun u x r u' hs hp => ⟨h u x r u' hs hp, trivial⟩) fun _ _ h => h.1

theorem isLeader_order {stream : Option Nat} :
    listening.Holds (Following stream) (Upstream.op .isLeader) fun _ => Following stream :=
  plain_order rfl fun _ _ _ _ hs hp => hs.isLeader hp

theorem quiet_order {o : Upstream.Op} {stream : Option Nat}
    (ho : o = .borrowShutdown ∨ (∃ duration, o = .sleepOrShutdown duration) ∨
      ∃ success source, o = .recordRollupBoostConnectionAttempt success source) :
    listening.Holds (Following stream) (Upstream.op o) fun _ => Following stream := by
  rcases ho with rfl | ⟨duration, rfl⟩ | ⟨success, source, rfl⟩ <;>
    exact plain_order rfl fun _ _ _ _ hs hp => by cases hp; exact hs

theorem dropStream_order {stream : Nat} :
    listening.Holds (Following (some stream)) (Upstream.op (.dropStream stream))
      fun _ => Following none :=
  listening.post (upstream_order rfl (fun _ => none) (Q := fun _ _ => True)
    fun u x r u' hs hp => by
      cases hp
      exact ⟨hs.forget, trivial⟩) fun _ _ h => h.1

/-- The listener reads a message and has it in its hand. -/
def Reading (stream : Nat) (selected : Upstream.Selected) (s : Sys) : Prop :=
  Following (some stream) s ∧ Upstream.ReadInHand selected s.upstream

theorem select_order {stream : Nat} :
    listening.Holds (Following (some stream)) (Upstream.op (.select stream)) (Reading stream) :=
  upstream_order rfl (fun _ => some stream) fun _ _ _ _ hs hp =>
    ⟨hs.select hp, Upstream.performSelect_inHand hp⟩

theorem connectAsync_order {url : String} :
    listening.Holds (Following none) (Upstream.op (.connectAsync url))
      fun dialed => Following (streamOf dialed) :=
  listening.post (upstream_order rfl streamOf (Q := fun _ _ => True)
    fun _ _ _ _ hs hp => ⟨hs.connect hp, trivial⟩) fun _ _ h => h.1

/-- The message with this payload is in hand. -/
def Holding (payload : WsPayload) (stream : Option Nat) (s : Sys) : Prop :=
  Following stream s ∧ Upstream.InHand payload s.upstream

theorem holding_stable (payload : WsPayload) (stream : Option Nat) :
    order.Stable .listener (Holding payload stream) := by
  rintro s s' ⟨hf, a, ha, hp⟩ hr _
  exact ⟨hf.left (hr rfl), a, (hr rfl).upstream.hand.trans ha, hp⟩

theorem askLeader_order {payload : WsPayload} {stream : Option Nat} :
    listening.Holds (Holding payload stream) (Upstream.op .isLeader) fun leader s =>
      Following stream s ∧ (leader = true → Upstream.InHand payload s.upstream) := by
  refine Logic.via_call _ ?_
  refine Machine.Triple.call (holding_stable payload stream) fun s hi hs =>
    ⟨fun _ => hs.1.upstream_passing _, fun x r s' hp _ => ?_⟩
  obtain ⟨u, hperf, rfl⟩ := upstream_step hp
  have hforwarded : u.forwarded = s.upstream.forwarded := (perform_forwarded rfl hperf).1
  have hfollow : Following stream { s with upstream := u } :=
    ⟨hs.1.started, hs.1.orderly.isLeader hperf, by
      change log s = payloads u
      rw [hs.1.logged, payloads, payloads, hforwarded]⟩
  have hmatched : Matched u := by
    rw [Matched, hforwarded]
    exact hi.matched
  refine ⟨⟨hfollow.linked hmatched, fun j hj hj' => absurd hj' hj⟩, hfollow, ?_⟩
  obtain ⟨a, ha, hpayload⟩ := hs.2
  cases hperf
  intro hleader
  have hleader : s.upstream.leader = true := hleader
  exact ⟨a, by simp [hleader, ha], hpayload⟩

theorem begin_order {payload : WsPayload} {stream : Option Nat} :
    machine.Triple .any order .listener (Holding payload stream)
      (Task.call (E := ServiceOps) (.inl (.broadcast payload))) fun _ => Begun payload stream := by
  refine Machine.Triple.call (holding_stable payload stream) fun s hi hs =>
    ⟨fun _ => hs.1.upstream_passing _, fun x r s' hp _ => ?_⟩
  obtain ⟨u, hperf, rfl⟩ := upstream_step hp
  obtain ⟨hfollow, a, ha, hpayload⟩ := hs
  obtain ⟨hpassed, hpayloads⟩ := passed_broadcast hperf ha
  have horderly : Orderly stream u := by
    have h := hfollow.orderly
    rw [Orderly] at h ⊢
    rw [hpassed]
    cases hperf
    exact h
  have hmatched : Matched u := by
    cases hperf
    intro e he
    cases List.mem_append.mp he with
    | inl hold => exact hi.matched e hold
    | inr hnew =>
        rw [List.mem_singleton.mp hnew]
        exact ⟨a, ha, hpayload⟩
  have hlogged : log s ++ [payload] = payloads u := by rw [hfollow.logged, hpayloads]
  have hbegun : Begun payload stream { s with
      upstream := u, hist := watch.begin s.hist .listener (.broadcast payload) } :=
    ⟨hfollow.started, horderly, hlogged, by simp [watch, Streams.Hist.begin]⟩
  refine ⟨⟨⟨hmatched, horderly.passed, ?_, fun hs => ?_⟩, fun j hj hj' => absurd hj' hj⟩, hbegun⟩
  · exact ⟨[payload], hlogged⟩
  · have hnot : s.started = false := hs
    rw [hfollow.started] at hnot
    cases hnot

theorem forward_order {payload : WsPayload} {stream : Option Nat} :
    listening.Holds (Holding payload stream) (Upstream.forward payload)
      fun _ => Following stream := by
  refine listening.bind askLeader_order fun leader => ?_
  cases leader with
  | false => exact listening.done fun _ _ h => h.1
  | true =>
      refine listening.pre (B := Holding payload stream) (fun s h => ⟨h.1, h.2 rfl⟩) ?_
      refine Logic.via_call _ ?_
      exact Machine.Triple.bind begin_order fun _ => broadcast_order payload stream

theorem handleRead_order {stream : Nat} (read : Upstream.Read) :
    listening.Holds (Reading stream (.read read)) (Upstream.handleRead stream read) Following := by
  have hforward : ∀ frame payload, frame.payload = some payload →
      listening.Holds (Reading stream (.read (.frame frame)))
        ((Upstream.forward payload).bind fun _ => .done (some stream)) Following := by
    intro frame payload hp
    refine listening.bind (listening.pre (fun s h => ?_) forward_order) fun _ =>
      listening.done fun _ _ h => h
    exact ⟨h.1, h.2 frame payload rfl hp⟩
  have hdrop : listening.Holds (Reading stream (.read read))
      ((Upstream.op (.dropStream stream)).bind fun _ => .done none) Following :=
    listening.bind (listening.pre (fun s h => h.1) dropStream_order) fun _ =>
      listening.done fun _ _ h => h
  cases read with
  | frame frame =>
      cases frame with
      | text utf8 => exact hforward (.text utf8) _ rfl
      | binary bytes => exact hforward (.binary bytes) _ rfl
      | close => exact hdrop
      | other => exact listening.done fun _ _ h => h.1
  | error | ended | elapsed => exact hdrop

theorem connect_order (url : String) (reconnectDelay : Nat) (upstream : Option Nat) :
    listening.Holds (Following upstream) (Upstream.connect url reconnectDelay upstream)
      Following := by
  cases upstream with
  | some stream => exact listening.done fun _ _ h => h
  | none =>
      refine listening.bind isLeader_order fun leader => ?_
      cases leader with
      | false =>
          exact listening.bind (quiet_order (.inr (.inl ⟨_, rfl⟩))) fun _ =>
            listening.done fun _ _ h => h
      | true =>
          have hdial : listening.Holds (Following none) (Upstream.dialUpstream url)
              fun dialed => Following dialed.toOption := by
            refine listening.bind connectAsync_order fun dialed => ?_
            cases dialed <;> exact listening.done fun _ _ h => h
          refine listening.bind hdial fun dialed => ?_
          cases dialed with
          | ok stream =>
              exact listening.bind (quiet_order (.inr (.inr ⟨_, _, rfl⟩))) fun _ =>
                listening.done fun _ _ h => h
          | error error =>
              refine listening.bind (quiet_order (.inr (.inr ⟨_, _, rfl⟩))) fun _ => ?_
              exact listening.bind (quiet_order (.inr (.inl ⟨_, rfl⟩))) fun _ =>
                listening.done fun _ _ h => h

theorem listen_order (stream : Nat) :
    listening.Holds (Following (some stream)) (Upstream.listen stream)
      (Sum.elim Following Following) := by
  refine listening.bind isLeader_order fun leader => ?_
  cases leader with
  | false =>
      exact listening.bind (quiet_order (.inr (.inl ⟨_, rfl⟩))) fun _ =>
        listening.done fun _ _ h => h
  | true =>
      refine listening.bind select_order fun selected => ?_
      cases selected with
      | shutdownChanged =>
          refine listening.bind (listening.pre (fun _ h => h.1) (quiet_order (.inl rfl)))
            fun down => ?_
          cases down <;> exact listening.done fun _ _ h => h
      | read read =>
          exact listening.bind (handleRead_order read) fun _ => listening.done fun _ _ h => h

theorem upstreamRound_order (url : String) (reconnectDelay : Nat) (upstream : Option Nat) :
    listening.Holds (Following upstream) (Upstream.upstreamRound url reconnectDelay upstream)
      (Sum.elim Following Following) := by
  refine listening.bind (quiet_order (.inl rfl)) fun down => ?_
  cases down with
  | true => exact listening.done fun _ _ h => h
  | false =>
      refine listening.bind (connect_order url reconnectDelay upstream) fun connected => ?_
      cases connected with
      | none => exact listening.done fun _ _ h => h
      | some stream => exact listen_order stream

theorem listener_order (url : String) (reconnectDelay rounds : Nat) :
    machine.Triple .any order .listener (Following (some 0))
      (serviceBody (.listen url reconnectDelay rounds))
      fun _ s => log s = payloads s.upstream := by
  have hloop : listening.Holds (Following (some 0))
      (Task.loop (Upstream.upstreamRound url reconnectDelay) rounds (some 0))
      fun ended s => ended.elim (∃ upstream, Following upstream s) (Following · s) :=
    listening.loop (upstreamRound_order url reconnectDelay) (fun upstream _ _ h => ⟨upstream, h⟩)
      rounds (some 0)
  have hrun : listening.Holds (Following (some 0))
      (Upstream.runUpstreamListener url reconnectDelay rounds (some 0))
      fun _ s => log s = payloads s.upstream := by
    refine listening.bind hloop fun ended => ?_
    rcases ended with _ | _ | stream
    · exact listening.done fun _ _ ⟨_, h⟩ => h.logged
    · exact listening.done fun _ _ h => h.logged
    · exact listening.bind dropStream_order fun _ => listening.done fun _ _ h => h.logged
  exact hrun

end ConductorRs.Flashblocks.Feed
