import ConductorRs.Core.UpstreamListener

/-!
Messages of a follower period and the listener.

While the node is the leader, no message that arrived before it became one is
unread or in the hand of the listener. Every step of the listener keeps this, and
so does every step of the world but one: becoming the leader with such a message
waiting.
-/
namespace ConductorRs.Flashblocks.Upstream
open Concurrency

/-- No message of a follower period is unread or in the hand of the listener. -/
def clean (s : UpstreamState) : Bool :=
  (List.range s.dialed).all (fun stream => (s.connections stream).queue.all fun a => !a.stale) &&
    s.hand.all fun a => !a.stale

/-- The node becomes the leader with no message of its follower period left. -/
def cleanWorld (s : UpstreamState) : World → Bool
  | .setLeader true => clean s
  | _ => true

def startsClean : Policy Unit Listener UpstreamState ListenerCall Choice World where
  call _ _ _ := True
  step _ _ _ _ := True
  env s e := cleanWorld s e = true

instance (s : UpstreamState) (i : Unit) (call : ListenerCall) :
    Decidable (startsClean.call s i call) :=
  inferInstanceAs (Decidable True)

instance (s : UpstreamState) (i : Unit) (o : Op) (x : Choice) :
    Decidable (startsClean.step s i o x) :=
  inferInstanceAs (Decidable True)

instance (s : UpstreamState) (e : World) : Decidable (startsClean.env s e) :=
  inferInstanceAs (Decidable (_ = true))

/-- The message has arrived, and it is one of this leader period if there is one. -/
def Known (s : UpstreamState) (a : Arrival) : Prop :=
  a ∈ s.arrived ∧ (s.leader = true → a.stale = false)

/-- A payload passed on is that of a message that arrived at a leader. -/
def FromLeader (arrived : List Arrival) (e : WsPayload × Option Arrival) : Prop :=
  ∃ a ∈ arrived, e.2 = some a ∧ a.frame.payload = some e.1 ∧ a.leader = true

structure Sound (s : UpstreamState) : Prop where
  queued : ∀ stream, ∀ a ∈ (s.connections stream).queue, Known s a
  undialed : ∀ stream, s.dialed ≤ stream →
    (s.connections stream).queue = [] ∧ (s.connections stream).alive = false
  held : ∀ a, s.hand = some a → Known s a
  forwarded : ∀ e ∈ s.forwarded, FromLeader s.arrived e

def outline : Outline Unit Listener UpstreamState where
  inv := Sound
  rely _ s s' := s'.hand = s.hand
  idle _ _ := True
  check _ _ _ := True

theorem coherent : outline.Coherent where
  refl _ _ := rfl
  trans _ _ _ _ h h' := h'.trans h
  idle _ _ _ h _ _ := h

abbrev logic : Logic Listener UpstreamState := upstreamMachine.logic startsClean outline ()

/-- The message in hand has this payload. -/
def InHand (payload : WsPayload) (s : UpstreamState) : Prop :=
  ∃ a, s.hand = some a ∧ a.frame.payload = some payload

/-- The message in hand has this payload and arrived at a leader. -/
def Ready (payload : WsPayload) (s : UpstreamState) : Prop :=
  ∃ a, s.hand = some a ∧ a.frame.payload = some payload ∧ a.leader = true

theorem inHand_stable (payload : WsPayload) : outline.Stable () (InHand payload) := by
  intro s s' h hr _
  obtain ⟨a, ha, hp⟩ := h
  exact ⟨a, hr.trans ha, hp⟩

theorem ready_stable (payload : WsPayload) : outline.Stable () (Ready payload) := by
  intro s s' h hr _
  obtain ⟨a, ha, hp⟩ := h
  exact ⟨a, hr.trans ha, hp⟩

/-- A connection may be replaced by one without messages that are not known. -/
theorem Sound.setConnection {s : UpstreamState} (hs : Sound s) {stream : Nat}
    {connection : Connection} (hknown : ∀ a ∈ connection.queue, Known s a)
    (hdialed : s.dialed ≤ stream → connection.queue = [] ∧ connection.alive = false) :
    Sound (s.setConnection stream connection) := by
  refine ⟨fun other a ha => ?_, fun other hother => ?_, hs.held, hs.forwarded⟩
  · by_cases hne : other = stream
    · simp only [UpstreamState.setConnection, hne, Function.update_self] at ha
      exact hknown a ha
    · simp only [UpstreamState.setConnection, Function.update_of_ne hne] at ha
      exact hs.queued other a ha
  · by_cases hne : other = stream
    · subst hne
      simpa [UpstreamState.setConnection] using hdialed hother
    · simpa [UpstreamState.setConnection, hne] using hs.undialed other hother

theorem Sound.setHand {s : UpstreamState} (hs : Sound s) {hand : Option Arrival}
    (h : ∀ a, hand = some a → Known s a) : Sound { s with hand := hand } :=
  ⟨hs.queued, hs.undialed, h, hs.forwarded⟩

theorem take_eq_some {a b : Arrival} (h : UpstreamState.take a = some b) : b = a := by
  simp only [UpstreamState.take] at h
  split at h
  · exact (Option.some.inj h).symm
  · cases h

theorem Sound.performRead {s s' : UpstreamState} {stream : Nat} {read : Read} (hs : Sound s)
    (h : s.performRead stream = some (read, s')) : Sound s' := by
  simp only [UpstreamState.performRead] at h
  split at h
  · next a rest hq =>
      cases h
      have hmem : ∀ b ∈ a :: rest, Known s b := fun b hb => hs.queued stream b (hq ▸ hb)
      have hrest : ∀ b ∈ rest, Known s b := fun b hb => hmem b (List.mem_cons_of_mem a hb)
      have hset : Sound (s.setConnection stream ⟨rest, (s.connections stream).alive⟩) := by
        refine hs.setConnection hrest fun hd => ?_
        have hempty := (hs.undialed stream hd).1
        rw [hq] at hempty
        cases hempty
      refine hset.setHand fun b hb => ?_
      rw [take_eq_some hb]
      exact hmem a List.mem_cons_self
  · split at h <;> cases h
    exact hs

theorem Sound.performSelect {s s' : UpstreamState} {stream : Nat} {selected : Selected}
    {x : Choice} (hs : Sound s) (h : s.performSelect stream x = some (selected, s')) :
    Sound s' := by
  cases x with
  | read =>
      simp only [UpstreamState.performSelect, Option.map_eq_some_iff, Prod.mk.injEq] at h
      obtain ⟨⟨read, s₁⟩, hread, _, hs'⟩ := h
      subst hs'
      exact hs.performRead hread
  | changed | elapsed | error =>
      cases h
      exact hs
  | none | refused error => cases h

theorem Sound.performConnect {s s' : UpstreamState} {dialed : Dialed} {x : Choice}
    (hs : Sound s) (h : s.performConnect x = some (dialed, s')) : Sound s' := by
  cases x with
  | none =>
      cases h
      refine ⟨fun stream a ha => ?_, fun stream hd => ?_, hs.held, hs.forwarded⟩
      · by_cases hne : stream = s.dialed
        · simp [UpstreamState.setConnection, hne] at ha
        · simp only [UpstreamState.setConnection, Function.update_of_ne hne] at ha
          exact hs.queued stream a ha
      · have hd : s.dialed + 1 ≤ stream := hd
        have hne : stream ≠ s.dialed := by omega
        simpa [UpstreamState.setConnection, hne] using hs.undialed stream (by omega)
  | refused error | elapsed =>
      cases h
      exact hs
  | changed | read | error => cases h

def forwards : Op → Bool
  | .broadcast _ => true
  | _ => false

/-- Every operation but the broadcast keeps the messages known. -/
theorem Sound.perform {s s' : UpstreamState} {o : Op} {x : Choice} {r : o.Reply}
    (hs : Sound s) (ho : forwards o = false) (h : s.perform o x = some (r, s')) : Sound s' := by
  cases o with
  | isLeader =>
      cases h
      refine hs.setHand fun a ha => ?_
      split at ha
      · exact hs.held a ha
      · cases ha
  | connectAsync url => exact hs.performConnect h
  | select stream => exact hs.performSelect h
  | dropStream stream =>
      cases h
      exact hs.setConnection (fun a ha => by cases ha) fun _ => ⟨rfl, rfl⟩
  | broadcast payload => cases ho
  | borrowShutdown | sleepOrShutdown duration
  | recordRollupBoostConnectionAttempt success source =>
      cases h
      exact hs

theorem true_stable : outline.Stable () fun _ => True := fun _ _ _ _ _ => trivial

/-- There is no other listener to be granted anything. -/
theorem op_triple {o : Op} {A : UpstreamState → Prop} {Q : o.Reply → UpstreamState → Prop}
    (hA : outline.Stable () A)
    (h : ∀ s x r s', Sound s → A s → s.perform o x = some (r, s') → Sound s' ∧ Q r s') :
    logic.Holds A (op o) Q := by
  apply Machine.Triple.call hA
  intro s hi hs
  refine ⟨trivial, fun x r s' hp _ => ?_⟩
  obtain ⟨hi', hq⟩ := h s x r s' hi hs hp
  exact ⟨⟨hi', fun _ hj => absurd rfl hj⟩, hq⟩

theorem op_holds {o : Op} (ho : forwards o = false) :
    logic.Holds (fun _ => True) (op o) fun _ _ => True :=
  op_triple true_stable fun _ _ _ _ hi _ hp => ⟨hi.perform ho hp, trivial⟩

/-- What a listener that has read a payload has in its hand. -/
def ReadInHand (selected : Selected) (s : UpstreamState) : Prop :=
  ∀ frame payload, selected = .read (.frame frame) → frame.payload = some payload →
    InHand payload s

theorem performSelect_inHand {s s' : UpstreamState} {stream : Nat} {selected : Selected}
    {x : Choice} (h : s.performSelect stream x = some (selected, s')) :
    ReadInHand selected s' := by
  rintro frame payload rfl hpayload
  cases x with
  | read =>
      simp only [UpstreamState.performSelect, Option.map_eq_some_iff, Prod.mk.injEq] at h
      obtain ⟨⟨read, s₁⟩, hread, hr, hs'⟩ := h
      subst hs'
      cases hr
      simp only [UpstreamState.performRead] at hread
      split at hread
      · next a rest hq =>
          cases hread
          exact ⟨a, by simp [UpstreamState.take, hpayload], hpayload⟩
      · split at hread <;> cases hread
  | changed | elapsed | error | none | refused error => cases h

theorem select_holds {stream : Nat} :
    logic.Holds (fun _ => True) (op (.select stream)) ReadInHand :=
  op_triple true_stable fun _ _ _ _ hi _ hp => ⟨hi.perform rfl hp, performSelect_inHand hp⟩

/-- A leader has no message of a follower period in its hand. -/
theorem isLeader_holds {payload : WsPayload} :
    logic.Holds (InHand payload) (op .isLeader)
      fun leader s => leader = true → Ready payload s := by
  apply op_triple (inHand_stable payload)
  intro s x r s' hi hs hp
  refine ⟨hi.perform rfl hp, ?_⟩
  cases hp
  intro hleader
  obtain ⟨a, ha, hpayload⟩ := hs
  have hfresh : a.stale = false := (hi.held a ha).2 hleader
  refine ⟨a, by simp [hleader, ha], hpayload, ?_⟩
  simpa [Arrival.stale, hpayload] using hfresh

theorem broadcast_holds {payload : WsPayload} :
    logic.Holds (Ready payload) (op (.broadcast payload)) fun _ _ => True := by
  apply op_triple (ready_stable payload)
  intro s x r s' hi hs hp
  refine ⟨?_, trivial⟩
  cases hp
  obtain ⟨a, ha, hpayload, hleader⟩ := hs
  refine ⟨hi.queued, hi.undialed, fun b hb => (by cases hb), fun e he => ?_⟩
  cases List.mem_append.mp he with
  | inl hold => exact hi.forwarded e hold
  | inr hnew =>
      rw [List.mem_singleton.mp hnew]
      exact ⟨a, (hi.held a ha).1, ha, hpayload, hleader⟩

theorem forward_holds {payload : WsPayload} :
    logic.Holds (InHand payload) (forward payload) fun _ _ => True := by
  apply logic.bind isLeader_holds
  intro leader
  cases leader with
  | true => exact logic.pre (fun _ h => h rfl) broadcast_holds
  | false => exact logic.done fun _ _ _ => trivial

/-- Nothing but a payload is passed on. -/
theorem handleRead_quiet (stream : Nat) {read : Read}
    (h : ∀ frame, read = .frame frame → frame.payload = none) :
    (handleRead stream read).All fun o : Op => forwards o = false := by
  cases read with
  | frame frame =>
      cases frame with
      | text utf8 => cases h (.text utf8) rfl
      | binary bytes => cases h (.binary bytes) rfl
      | close => exact ⟨rfl, fun _ => trivial⟩
      | other => trivial
  | error | ended | elapsed => exact ⟨rfl, fun _ => trivial⟩

theorem handleRead_holds {stream : Nat} (read : Read) :
    logic.Holds (ReadInHand (.read read)) (handleRead stream read) fun _ _ => True := by
  have hforward : ∀ frame payload, frame.payload = some payload →
      logic.Holds (ReadInHand (.read (.frame frame)))
        ((forward payload).bind fun _ => .done (some stream)) fun _ _ => True := by
    intro frame payload hp
    apply logic.bind (logic.pre (fun s h => h frame payload rfl hp) forward_holds)
    exact fun _ => logic.done fun _ _ h => h
  have hquiet : (∀ frame, read = .frame frame → frame.payload = none) →
      logic.Holds (ReadInHand (.read read)) (handleRead stream read) fun _ _ => True :=
    fun h => logic.pre (fun _ _ => trivial)
      (logic.all (fun o ho => op_holds ho) (handleRead_quiet stream h))
  cases read with
  | frame frame =>
      cases frame with
      | text utf8 => exact hforward (.text utf8) _ rfl
      | binary bytes => exact hforward (.binary bytes) _ rfl
      | close | other => exact hquiet fun frame h => by cases h; rfl
  | error | ended | elapsed => exact hquiet fun frame h => by cases h

theorem connect_quiet (url : String) (reconnectDelay : Nat) (upstream : Option Nat) :
    (connect url reconnectDelay upstream).All fun o : Op => forwards o = false := by
  cases upstream with
  | some stream => trivial
  | none =>
      refine ⟨rfl, fun leader => ?_⟩
      cases leader with
      | false => exact ⟨rfl, fun _ => trivial⟩
      | true =>
          refine ⟨rfl, fun dialed => ?_⟩
          cases dialed with
          | connected stream => exact ⟨rfl, fun _ => trivial⟩
          | refused error | elapsed => exact ⟨rfl, fun _ => ⟨rfl, fun _ => trivial⟩⟩

theorem listen_holds (stream : Nat) :
    logic.Holds (fun _ => True) (listen stream) fun _ _ => True := by
  apply logic.bind (op_holds rfl)
  intro leader
  cases leader with
  | false => exact logic.bind (op_holds rfl) fun _ => logic.done fun _ _ h => h
  | true =>
      apply logic.bind select_holds
      intro selected
      cases selected with
      | shutdownChanged =>
          apply logic.bind (logic.pre (fun _ _ => trivial) (op_holds rfl))
          intro down
          cases down <;> exact logic.done fun _ _ h => h
      | read read => exact logic.bind (handleRead_holds read) fun _ => logic.done fun _ _ h => h

theorem upstreamRound_holds (url : String) (reconnectDelay : Nat) (upstream : Option Nat) :
    logic.Holds (fun _ => True) (upstreamRound url reconnectDelay upstream) fun _ _ => True := by
  apply logic.bind (op_holds rfl)
  intro down
  cases down with
  | true => exact logic.done fun _ _ h => h
  | false =>
      apply logic.bind
        (logic.all (fun o ho => op_holds ho) (connect_quiet url reconnectDelay upstream))
      intro connected
      cases connected with
      | none => exact logic.done fun _ _ h => h
      | some stream => exact listen_holds stream

theorem runUpstreamListener_holds (c : ListenerCall) :
    logic.Holds (fun _ => True) (upstreamMachine.body c) fun _ _ => True := by
  apply logic.bind (R := fun _ _ => True)
  · refine logic.loop (I := fun _ _ => True) (fun upstream => ?_) (fun _ _ _ h => h) c.rounds
      c.initialUpstream
    refine logic.post (upstreamRound_holds c.url c.reconnectDelay upstream) fun r s h => ?_
    cases r <;> exact h
  · intro ended
    cases ended with
    | none => exact logic.done fun _ _ h => h
    | some upstream =>
        cases upstream with
        | none => exact logic.done fun _ _ h => h
        | some stream => exact logic.bind (op_holds rfl) fun _ => logic.done fun _ _ h => h

/-- A clean state has no message of a follower period anywhere. -/
theorem Sound.clean {s : UpstreamState} (hs : Sound s) (h : clean s = true) :
    (∀ stream, ∀ a ∈ (s.connections stream).queue, a.stale = false) ∧
      ∀ a, s.hand = some a → a.stale = false := by
  simp only [Upstream.clean, Bool.and_eq_true, List.all_eq_true, Option.all_eq_true,
    List.mem_range, Bool.not_eq_true'] at h
  refine ⟨fun stream a ha => ?_, h.2⟩
  by_cases hd : stream < s.dialed
  · exact h.1 stream hd a ha
  · rw [(hs.undialed stream (by omega)).1] at ha
    cases ha

theorem Known.of_leader {s : UpstreamState} {leader : Bool} {a : Arrival} (h : Known s a)
    (hleader : leader = true → a.stale = false) : Known { s with leader := leader } a :=
  ⟨h.1, hleader⟩

theorem Sound.setLeader {s : UpstreamState} (hs : Sound s) {leader : Bool}
    (h : leader = true → Upstream.clean s = true) : Sound { s with leader := leader } := by
  refine ⟨fun stream a ha => ?_, hs.undialed, fun a ha => ?_, hs.forwarded⟩
  · exact (hs.queued stream a ha).of_leader fun hl => (hs.clean (h hl)).1 stream a ha
  · exact (hs.held a ha).of_leader fun hl => (hs.clean (h hl)).2 a ha

/-- An arrival is one of the period it falls in. -/
theorem Sound.arrive {s : UpstreamState} (hs : Sound s) {stream : Nat} {frame : Frame}
    (halive : (s.connections stream).alive = true) :
    Sound { s.setConnection stream
        ⟨(s.connections stream).queue ++ [⟨stream, frame, s.leader⟩], true⟩ with
      arrived := s.arrived ++ [⟨stream, frame, s.leader⟩] } := by
  have hold : ∀ a, Known s a → Known { s with
      arrived := s.arrived ++ [⟨stream, frame, s.leader⟩] } a :=
    fun a h => ⟨List.mem_append_left _ h.1, h.2⟩
  have hgrown : Sound { s with arrived := s.arrived ++ [⟨stream, frame, s.leader⟩] } := by
    refine ⟨fun other a ha => hold a (hs.queued other a ha), hs.undialed,
      fun a ha => hold a (hs.held a ha), fun e he => ?_⟩
    obtain ⟨a, ha, hrest⟩ := hs.forwarded e he
    exact ⟨a, List.mem_append_left _ ha, hrest⟩
  apply hgrown.setConnection
  · intro a ha
    cases List.mem_append.mp ha with
    | inl hqueued => exact hold a (hs.queued stream a hqueued)
    | inr hnew =>
        rw [List.mem_singleton.mp hnew]
        exact ⟨by simp, fun hl => by simp [Arrival.stale, show s.leader = true from hl]⟩
  · intro hd
    have hdead := (hs.undialed stream hd).2
    rw [halive] at hdead
    cases hdead

theorem Sound.world {s s' : UpstreamState} {e : World} (hs : Sound s)
    (h : s.world e = some s') (hπ : cleanWorld s e = true) : Sound s' ∧ s'.hand = s.hand := by
  cases e with
  | arrive stream frame =>
      simp only [UpstreamState.world] at h
      split at h
      · next halive =>
          cases h
          exact ⟨hs.arrive halive, rfl⟩
      · cases h
  | disconnect stream =>
      cases h
      refine ⟨hs.setConnection (fun a ha => hs.queued stream a ha) fun hd => ?_, rfl⟩
      exact ⟨(hs.undialed stream hd).1, rfl⟩
  | setLeader leader =>
      cases h
      refine ⟨hs.setLeader fun hl => ?_, rfl⟩
      subst hl
      exact hπ
  | shutdown =>
      cases h
      exact ⟨⟨hs.queued, hs.undialed, hs.held, hs.forwarded⟩, rfl⟩

theorem verified : upstreamMachine.Verified startsClean outline := by
  apply Machine.verified_of_triples coherent
  · intro s i call a
    rfl
  · intro s i call s' hi _ he _
    cases he
    exact ⟨⟨hi, fun _ _ => rfl⟩, trivial⟩
  · intro s i call _
    exact runUpstreamListener_holds call
  · intro s e s' hi he hπ
    obtain ⟨hs', hhand⟩ := hi.world he hπ
    exact ⟨hs', fun _ => hhand⟩

theorem new_sound (leader : Bool) : Sound (.new leader) where
  queued _ _ h := by cases h
  undialed stream h := by
    have h : 1 ≤ stream := h
    exact ⟨rfl, by simp [UpstreamState.new]; omega⟩
  held _ h := by cases h
  forwarded _ h := by cases h

/-- In every run in which the node becomes the leader only with no message of its
follower period unread or in the hand of the listener, every payload passed to
`Hub::broadcast` is that of a message that arrived while the node was the leader. -/
theorem follower_messages_not_forwarded (leader : Bool)
    (c : Config Unit Listener UpstreamState ListenerCall (Option Unit))
    (hr : upstreamMachine.Reaches startsClean (.quiet (.new leader)) c) :
    ∀ e ∈ c.state.forwarded, FromLeader c.state.arrived e := by
  have hup := verified.reaches
    (Machine.conforms_quiet (UpstreamState.new leader) (new_sound leader) fun _ => trivial) hr
  exact hup.1.forwarded

def flashblock : Frame := .text [1]

def listenerCall : ListenerCall := ⟨"ws://rollup-boost", 5000, 2, some 0⟩

/-- A follower reads nothing, becomes the leader and passes on what arrives then. -/
def leaderRun : List (Event Unit ListenerCall Choice World) :=
  [.call () listenerCall, .env (.setLeader true), .env (.arrive 0 flashblock),
    .step () .none, .step () .none, .step () .read, .step () .none, .step () .none]

def hasForwarded (leader : Bool)
    (c : Config Unit Listener UpstreamState ListenerCall (Option Unit)) : Bool :=
  decide (c.state.forwarded = [(⟨[1]⟩, some ⟨0, flashblock, leader⟩)])

theorem leader_message_forwarded :
    ∃ c, upstreamMachine.Reaches startsClean (.quiet (.new false)) c ∧
      hasForwarded true c = true ∧
      ∀ e ∈ c.state.forwarded, FromLeader c.state.arrived e := by
  have hrun : ∃ c, upstreamMachine.Reaches startsClean (.quiet (.new false)) c ∧
      hasForwarded true c = true :=
    Machine.reaches_of_permitted leaderRun (by decide +kernel)
  obtain ⟨c, hr, hc⟩ := hrun
  exact ⟨c, hr, hc, follower_messages_not_forwarded false c hr⟩

/-- The message arrives while the node is a follower with its initial connection
open, and waits in the connection until the node is the leader. -/
def bufferedRun : List (Event Unit ListenerCall Choice World) :=
  [.call () listenerCall, .env (.arrive 0 flashblock), .step () .none, .step () .none,
    .step () .none, .env (.setLeader true), .step () .none, .step () .none, .step () .read,
    .step () .none, .step () .none]

theorem follower_message_forwarded :
    ∃ c, upstreamMachine.Reaches .any (.quiet (.new false)) c ∧
      c.state.forwarded = [(⟨[1]⟩, some ⟨0, flashblock, false⟩)] := by
  have hrun : ∃ c, upstreamMachine.Reaches .any (.quiet (.new false)) c ∧
      hasForwarded false c = true :=
    Machine.reaches_of_permitted bufferedRun (by decide +kernel)
  obtain ⟨c, hr, hc⟩ := hrun
  exact ⟨c, hr, of_decide_eq_true hc⟩

end ConductorRs.Flashblocks.Upstream
