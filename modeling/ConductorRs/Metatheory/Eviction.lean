import ConductorRs.Core.HubMachine

/-!
The handler of a client that the hub has removed.

The receive branch of the handler finds the channel closed once the sender is gone from
the map and the queue is drained. A history keeps for every thread whether this has
happened in its call, whether the socket was served after it and how many operations
have followed. As long as only events that end the loop reach such a handler it leaves:
it takes one of them, writes at most one ping, which fails, and gives its client up.
-/
namespace ConductorRs.Flashblocks.Eviction
open Concurrency

/-- One call: whether its channel was found closed, and what followed. -/
structure Trace where
  observed : Bool
  served : Bool
  further : Nat
deriving DecidableEq

def Trace.new : Trace := ⟨false, false, 0⟩

/-- The frames after which the handler goes on. -/
def acceptedFrame : Incoming → Bool
  | .pong | .other => true
  | .close | .error | .ended => false

def closes : (o : Op) → o.Reply → Bool
  | .select _ _ _, .closed => true
  | _, _ => false

/-- The socket is served by a write that succeeds and by a frame that is accepted. -/
def serves : (o : Op) → o.Reply → Bool
  | .select _ _ _, .incoming incoming => acceptedFrame incoming
  | .send _, ok => ok
  | _, _ => false

def Trace.after (t : Trace) (o : Op) (r : o.Reply) : Trace :=
  if t.observed then { t with served := t.served || serves o r, further := t.further + 1 }
  else { t with observed := closes o r }

def watch {Tid : Type} [DecidableEq Tid] : Watch Tid (Tid → Trace) where
  begin h i _ := Function.update h i .new
  after _ _ h i o r := Function.update h i ((h i).after o r)
  client _ h _ := h

section
variable {Tid : Type}

abbrev Sys (Tid : Type) := Watched Tid (Tid → Trace)

def initial : Sys Tid := ⟨.new, fun _ => .new⟩

/-- The handler has found its channel closed and then served its socket. -/
def GoesOn (s : Sys Tid) (i : Tid) : Prop :=
  (s.hist i).observed = true ∧ (s.hist i).served = true

/-- The events that end the loop of a handler: no frame that is accepted and no write
that succeeds is among them. -/
def endsLoop : Op → Choice → Bool
  | .select _ _ _, .incoming incoming => !acceptedFrame incoming
  | .send _, .sent ok => !ok
  | _, _ => true

/-- Only events that end its loop reach a handler that has found its channel closed. -/
def closedEnds : Policy Tid Downstream (Sys Tid) HubCall Choice ClientEvent where
  call _ _ _ := True
  step s i o x := (s.hist i).observed = true → endsLoop o x = true
  env _ _ := True

instance (s : Sys Tid) (i : Tid) (call : HubCall) : Decidable (closedEnds.call s i call) :=
  inferInstanceAs (Decidable True)

instance (s : Sys Tid) (i : Tid) (o : Op) (x : Choice) : Decidable (closedEnds.step s i o x) :=
  inferInstanceAs (Decidable (_ → _))

instance (s : Sys Tid) (e : ClientEvent) : Decidable (closedEnds.env s e) :=
  inferInstanceAs (Decidable True)

/-- A handler that found its channel closed has not served its socket since, and has
performed at most so many operations. -/
def Leaves (n : Nat) (t : Trace) : Prop :=
  t.observed = true → t.served = false ∧ t.further ≤ n

theorem Leaves.mono {n m : Nat} (h : n ≤ m) {t : Trace} (ht : Leaves n t) : Leaves m t :=
  fun hobserved => ⟨(ht hobserved).1, Nat.le_trans (ht hobserved).2 h⟩

theorem leaves_new (n : Nat) : Leaves n .new := nofun

/-- The first operation of a round, with the receive branch. -/
def beginsRound : Op → Bool
  | .select _ recv _ => recv
  | _ => false

def outline : Outline Tid Downstream (Sys Tid) where
  inv s := ∀ i, Leaves 8 (s.hist i)
  rely i s s' := s'.hist i = s.hist i
  idle _ _ := True
  check i s o := (s.hist i).observed = true → beginsRound o = false

theorem coherent : (outline : Outline Tid Downstream (Sys Tid)).Coherent where
  refl _ _ := rfl
  trans _ _ _ _ h h' := h'.trans h
  idle _ _ _ _ _ _ := trivial

/-- An assertion about the thread's own call. -/
def Own (i : Tid) (A : Trace → Prop) (s : Sys Tid) : Prop := A (s.hist i)

theorem Own.stable {i : Tid} {A : Trace → Prop} : outline.Stable i (Own i A) := by
  intro s s' h hr _
  rw [Own, hr]
  exact h

section
variable [DecidableEq Tid] {i : Tid}

abbrev machine (Tid : Type) [DecidableEq Tid] :
    Machine Tid Downstream (Sys Tid) HubCall HubOut Choice ClientEvent :=
  hubMachine watch

abbrev logic (i : Tid) : Logic Downstream (Sys Tid) :=
  (machine Tid).logic closedEnds outline i

/-- A select without the receive branch does not find the channel closed. -/
def Offered : (o : Op) → o.Reply → Prop
  | .select _ false _, .closed => False
  | _, _ => True

theorem perform_offered {hub hub' : HubState Tid} {o : Op} {x : Choice} {r : o.Reply}
    (h : hub.perform i o x = some (r, hub')) : Offered o r := by
  cases o with
  | select rx recv awaitingPong =>
      cases recv with
      | true => cases r <;> trivial
      | false =>
          cases x with
          | deadline =>
              simp only [HubState.perform, HubState.performSelect] at h
              split at h <;> cases h
              trivial
          | ping | incoming incoming => cases h; trivial
          | recv | none | sent ok => cases h
  | _ => trivial

theorem serves_of_endsLoop {hub hub' : HubState Tid} {o : Op} {x : Choice} {r : o.Reply}
    (h : hub.perform i o x = some (r, hub')) (hx : endsLoop o x = true) : serves o r = false := by
  cases o with
  | select rx recv awaitingPong =>
      cases r with
      | incoming incoming =>
          cases x with
          | incoming arrived =>
              cases h
              exact Bool.not_eq_true' _ |>.mp hx
          | recv =>
              simp only [HubState.perform, HubState.performSelect] at h
              split at h
              · split at h <;> cases h
              · cases h
          | deadline =>
              simp only [HubState.perform, HubState.performSelect] at h
              split at h <;> cases h
          | none | ping | sent ok => cases h
      | _ => rfl
  | send message =>
      cases x with
      | sent ok =>
          cases h
          exact Bool.not_eq_true' _ |>.mp hx
      | _ => cases h
  | _ => rfl

theorem op_holds {o : Op} {A : Trace → Prop} {Q : o.Reply → Trace → Prop}
    (hcheck : ∀ t, A t → t.observed = true → beginsRound o = false)
    (h : ∀ t r, A t → Offered o r → (t.observed = true → serves o r = false) →
      Leaves 8 (t.after o r) ∧ Q r (t.after o r)) :
    (logic i).Holds (Own i A) (op o) fun r => Own i (Q r) := by
  refine hub_triple_op Own.stable fun s hi hs => ⟨hcheck _ hs, fun x r hub hp hπ => ?_⟩
  obtain ⟨hleaves, hq⟩ := h (s.hist i) r hs (perform_offered hp)
    fun hobserved => serves_of_endsLoop hp (hπ hobserved)
  refine ⟨⟨fun j => ?_, fun j hj => Function.update_of_ne hj ..⟩, ?_⟩
  · by_cases hj : j = i
    · subst hj
      simpa [watch] using hleaves
    · simpa [watch, hj] using hi j
  · simpa [Own, watch] using hq

theorem closes_internal {o : Op} (ho : o.internal = true) (r : o.Reply) : closes o r = false := by
  cases o with
  | select rx recv awaitingPong => cases ho
  | _ => rfl

/-- The functions of the hub find no channel closed. -/
theorem internal_holds {α : Type} {t : Task Downstream α} (ht : Internal t) :
    (logic i).Holds (Own i (· = .new)) t fun _ => Own i (· = .new) := by
  refine (logic i).all (fun o ho => op_holds (fun _ h ho => ?_) fun t r h _ _ => ?_) ht
  · rw [h] at ho
    cases ho
  · have hnew : t.after o r = .new := by simp [h, Trace.after, Trace.new, closes_internal ho]
    exact ⟨hnew ▸ leaves_new 8, hnew⟩

/-- One operation more on the way out. -/
theorem leaving_holds {n : Nat} (hn : n < 8) {o : Op} (ho : ∀ r, closes o r = false)
    (hround : beginsRound o = false) :
    (logic i).Holds (Own i (Leaves n)) (op o) fun _ => Own i (Leaves (n + 1)) := by
  refine op_holds (fun _ _ _ => hround) fun t r h _ hserves => ?_
  have hleaves : Leaves (n + 1) (t.after o r) := by
    intro hobserved
    cases hb : t.observed with
    | false => simp [Trace.after, hb, ho r] at hobserved
    | true =>
        obtain ⟨hserved, hfurther⟩ := h hb
        simp [Trace.after, hb, hserved, hserves hb, hfurther]
  exact ⟨hleaves.mono hn, hleaves⟩

theorem unregister_holds (clientId : Nat) :
    (logic i).Holds (Own i (Leaves 2)) (Hub.unregister clientId) fun _ => Own i (Leaves 7) := by
  refine (logic i).bind (leaving_holds (by decide) (fun _ => rfl) rfl) fun _ => ?_
  refine (logic i).bind (leaving_holds (by decide) (fun _ => rfl) rfl) fun _ => ?_
  refine (logic i).bind (R := fun _ => Own i (Leaves 6)) ?_ fun _ =>
    leaving_holds (by decide) (fun _ => rfl) rfl
  refine (logic i).bind (leaving_holds (by decide) (fun _ => rfl) rfl) fun _ => ?_
  exact leaving_holds (by decide) (fun _ => rfl) rfl

/-- Where the loop stands after a round: it goes on only with its channel open. -/
def RoundEnds (i : Tid) : Bool ⊕ Unit → Sys Tid → Prop :=
  Sum.elim (fun _ => Own i (· = .new)) fun _ => Own i (Leaves 2)

/-- A write after `n` operations. If the channel was found closed it does not succeed. -/
theorem write_holds {n : Nat} (hn : n < 2) {message : DownstreamMessage} {awaitingPong : Bool}
    {A : Trace → Prop} (hA : ∀ t, A t → Leaves n t ∧ (t.observed = false → t = .new)) :
    (logic i).Holds (Own i A)
      ((op (.send message)).bind fun ok : Bool =>
        if ok then (.done (.inl awaitingPong)) else .done (.inr ())) (RoundEnds i) := by
  refine (logic i).bind (op_holds (Q := fun ok t => Leaves 2 t ∧ (ok = true → t = .new))
    (fun _ _ _ => rfl) fun t ok h _ hserves => ?_) fun ok => ?_
  · obtain ⟨hleaves, hnew⟩ := hA t h
    cases hb : t.observed with
    | false =>
        have hafter : t.after (.send message) ok = .new := by
          simp [hnew hb, Trace.after, Trace.new, closes]
        rw [hafter]
        exact ⟨leaves_new 8, leaves_new 2, fun _ => rfl⟩
    | true =>
        obtain ⟨hserved, hfurther⟩ := hleaves hb
        have hok : ok = false := hserves hb
        have hafter : Leaves 2 (t.after (.send message) ok) := by
          intro _
          simp only [Trace.after, hb, if_true, hserved, hserves hb]
          exact ⟨rfl, by omega⟩
        refine ⟨hafter.mono (by decide), hafter, fun htrue => ?_⟩
        rw [hok] at htrue
        cases htrue
  · cases ok with
    | true => exact (logic i).done fun _ _ h => h.2 rfl
    | false => exact (logic i).done fun _ _ h => h.1

theorem handleSelected_open (awaitingPong : Bool) (selected : Selected)
    (hopen : selected ≠ .closed) :
    (logic i).Holds (Own i (· = .new)) (handleSelected awaitingPong selected) (RoundEnds i) := by
  have hwrite : ∀ t : Trace, t = .new → Leaves 1 t ∧ (t.observed = false → t = .new) :=
    fun t h => ⟨h ▸ leaves_new 1, fun _ => h⟩
  have hleave : ∀ s : Sys Tid, Own i (· = .new) s → Own i (Leaves 2) s := by
    intro s h
    have h : s.hist i = .new := h
    rw [Own, h]
    exact leaves_new 2
  cases selected with
  | payload payload => exact write_holds (by decide) hwrite
  | closed => exact absurd rfl hopen
  | ping => exact write_holds (by decide) hwrite
  | pongDeadline => exact (logic i).done fun s _ h => hleave s h
  | incoming incoming =>
      cases incoming with
      | pong | other => exact (logic i).done fun _ _ h => h
      | close | error | ended => exact (logic i).done fun s _ h => hleave s h

/-- What is left to a handler that has found its channel closed. -/
def Ending (selected : Selected) (t : Trace) : Prop :=
  t = ⟨true, false, 1⟩ ∧ selected ≠ .closed ∧
    ∀ incoming, selected = .incoming incoming → acceptedFrame incoming = false

theorem handleSelected_closed (awaitingPong : Bool) (selected : Selected) :
    (logic i).Holds (Own i (Ending selected)) (handleSelected awaitingPong selected)
      (RoundEnds i) := by
  have hwrite : ∀ t, Ending selected t → Leaves 1 t ∧ (t.observed = false → t = .new) := by
    rintro _ ⟨rfl, _⟩
    exact ⟨fun _ => ⟨rfl, Nat.le_refl 1⟩, nofun⟩
  have hleave : ∀ s : Sys Tid, Own i (Ending selected) s → Own i (Leaves 2) s := by
    rintro s ⟨h, _⟩
    rw [Own, h]
    exact fun _ => ⟨rfl, by decide⟩
  cases selected with
  | payload payload | ping => exact write_holds (by decide) hwrite
  | closed => exact (logic i).done fun _ _ h => absurd rfl h.2.1
  | pongDeadline => exact (logic i).done fun s _ h => hleave s h
  | incoming incoming =>
      cases incoming with
      | pong | other =>
          refine (logic i).done fun s _ h => ?_
          have hrefused := h.2.2 _ rfl
          cases hrefused
      | close | error | ended => exact (logic i).done fun s _ h => hleave s h

theorem downstreamRound_holds (rx : Nat) (awaitingPong : Bool) :
    (logic i).Holds (Own i (· = .new)) (downstreamRound rx awaitingPong) (RoundEnds i) := by
  have hselect : (logic i).Holds (Own i (· = .new)) (op (.select rx true awaitingPong))
      fun selected => Own i (· = ⟨closes (.select rx true awaitingPong) selected, false, 0⟩) := by
    refine op_holds (fun _ h ho => ?_) fun t r h _ _ => ?_
    · rw [h] at ho
      cases ho
    · have hafter : t.after (.select rx true awaitingPong) r =
          ⟨closes (.select rx true awaitingPong) r, false, 0⟩ := by
        simp [h, Trace.after, Trace.new]
      exact ⟨fun _ => by simp [hafter], hafter⟩
  have hrest : (logic i).Holds (Own i (· = ⟨true, false, 0⟩)) (op (.select rx false awaitingPong))
      fun selected => Own i (Ending selected) := by
    refine op_holds (fun _ _ _ => rfl) fun t r h hoffered hserves => ?_
    subst h
    have hafter : Trace.after ⟨true, false, 0⟩ (.select rx false awaitingPong) r =
        ⟨true, false, 1⟩ := by simp [Trace.after, hserves rfl]
    refine ⟨fun _ => by simp [hafter], hafter, ?_, ?_⟩
    · rintro rfl
      exact hoffered
    · rintro incoming rfl
      exact hserves rfl
  refine (logic i).bind hselect fun selected => ?_
  cases selected with
  | closed => exact (logic i).bind hrest fun selected => handleSelected_closed awaitingPong selected
  | payload payload => exact handleSelected_open awaitingPong (.payload payload) nofun
  | ping => exact handleSelected_open awaitingPong .ping nofun
  | pongDeadline => exact handleSelected_open awaitingPong .pongDeadline nofun
  | incoming incoming => exact handleSelected_open awaitingPong (.incoming incoming) nofun

/-- What a call that has run to its end leaves. -/
def Left (out : HubOut) (t : Trace) : Prop :=
  Leaves 8 t ∧ (t.observed = true → out = .returned)

theorem left_new (out : HubOut) : Left out .new := ⟨leaves_new 8, nofun⟩

theorem handleDownstream_holds (rounds : Nat) :
    (logic i).Holds (Own i (· = .new)) (handleDownstreamWithTiming rounds)
      fun left => Own i (Left (.ofHandler left)) := by
  refine (logic i).bind (internal_holds Hub.register_internal) fun client => ?_
  refine (logic i).bind
    (R := fun left => left.elim (Own i (· = .new)) fun _ => Own i (Leaves 2)) ?_ fun left => ?_
  · refine (logic i).loop (I := fun _ => Own i (· = .new)) (fun awaitingPong => ?_)
      (fun _ _ _ h => h) rounds false
    exact downstreamRound_holds client.2 awaitingPong
  · cases left with
    | none =>
        refine (logic i).done fun s _ h => ?_
        have h : s.hist i = .new := h
        rw [Own, h]
        exact left_new _
    | some _ =>
        refine (logic i).bind (unregister_holds client.1) fun _ => ?_
        refine (logic i).bind (leaving_holds (by decide) (fun _ => rfl) rfl) fun _ => ?_
        exact (logic i).done fun _ _ h => ⟨h, fun _ => rfl⟩

theorem body_holds (i : Tid) (call : HubCall) :
    (logic i).Holds (Own i (· = .new)) (hubBody call) fun out => Own i (Left out) := by
  have hinternal : ∀ {α : Type} {t : Task Downstream α} (out : α → HubOut), Internal t →
      (logic i).Holds (Own i (· = .new)) (t.bind fun a => .done (out a))
        fun out => Own i (Left out) := by
    intro α t out ht
    refine (logic i).bind (internal_holds ht) fun a => (logic i).done fun s _ h => ?_
    have h : s.hist i = .new := h
    rw [Own, h]
    exact left_new _
  cases call with
  | register => exact hinternal (fun client => .registered client.1 client.2) Hub.register_internal
  | unregister clientId => exact hinternal (fun _ => .returned) (Hub.unregister_internal clientId)
  | broadcast payload => exact hinternal (fun _ => .returned) (Hub.broadcast_internal payload)
  | handleDownstream rounds =>
      exact (logic i).bind (handleDownstream_holds rounds) fun _ => (logic i).done fun _ _ h => h

theorem meets :
    (machine Tid).Meets closedEnds outline fun i _ out => Own i (Left out) := by
  refine Machine.meets_of_calls coherent (A := fun i _ => Own i (· = .new))
    (fun i _ _ => Own.stable) ?_ body_holds ?_ ?_
  · intro s i call s' hi _ he _
    cases he
    refine ⟨⟨fun j => ?_, fun j hj => Function.update_of_ne hj ..⟩, Function.update_self ..⟩
    by_cases hj : j = i
    · subst hj
      simpa [watch] using leaves_new 8
    · simpa [watch, hj] using hi j
  · intro s i call out hi _
    exact ⟨⟨hi, fun _ _ => rfl⟩, trivial⟩
  · intro s e s' hi he _
    obtain ⟨hub, _, rfl⟩ := Option.map_eq_some_iff.mp he
    exact ⟨hi, fun _ => rfl⟩

/-- In every run in which only events that end its loop reach a handler that has found
its channel closed, such a handler leaves: it does not serve its socket and begins no
round any more, it performs at most eight operations, and its call returns. -/
theorem evicted_leaves (c : Config Tid Downstream (Sys Tid) HubCall HubOut)
    (hr : (machine Tid).Reaches closedEnds (.quiet initial) c) (i : Tid)
    (hclosed : (c.state.hist i).observed = true) :
    ¬GoesOn c.state i ∧ (c.state.hist i).further ≤ 8 ∧
      (∀ rx awaitingPong, c.pending i ≠ some (.select rx true awaitingPong)) ∧
      ∀ call out, c.tasks i = some (call, .done out) → out = .returned := by
  have hup := meets.reaches
    (Machine.upholds_quiet initial (fun _ => leaves_new 8) fun _ => trivial) hr
  obtain ⟨hserved, hfurther⟩ := hup.1 i hclosed
  refine ⟨fun h => ?_, hfurther, fun rx awaitingPong hpending => ?_, fun call out ht => ?_⟩
  · rw [h.2] at hserved
    cases hserved
  · have hcheck := hup.check coherent hpending hclosed
    cases hcheck
  · exact (hup.returned ht).2 hclosed

end
end

/-- The queue of the client is filled, the next broadcast removes the client, and
its handler writes everything that is left and finds the channel closed. -/
def evictionRun : List (Event Bool HubCall Choice ClientEvent) :=
  [.call false (.handleDownstream 300)] ++ steps false 7 ++
    (List.replicate 256 (broadcasts 6)).flatten ++ broadcasts 7 ++
    (List.replicate 256 [.step false .recv, .step false (.sent true)]).flatten ++
    [.step false .recv]

/-- The handler has found its channel closed after a removal, and has returned. -/
def hasLeft (c : Config Bool Downstream (Sys Bool) HubCall HubOut) : Bool :=
  decide ((c.state.hist false).observed = true) && decide (c.state.hub.clients.entries = []) &&
    match c.tasks false with
    | some (_, .done .returned) => true
    | _ => false

theorem evicted_client_leaves :
    ∃ c, (machine Bool).Reaches closedEnds (.quiet initial) c ∧ hasLeft c = true ∧
      ¬GoesOn c.state false ∧ (c.state.hist false).further ≤ 8 := by
  have hrun : ∃ c, (machine Bool).Reaches closedEnds (.quiet initial) c ∧ hasLeft c = true :=
    Machine.reaches_of_permitted
      (evictionRun ++ [.step false .ping, .step false (.sent false)] ++ steps false 6)
      (by decide +kernel)
  obtain ⟨c, hr, hc⟩ := hrun
  have hclosed : (c.state.hist false).observed = true := by
    simp only [hasLeft, Bool.and_eq_true, decide_eq_true_eq] at hc
    exact hc.1.1
  obtain ⟨hgoes, hfurther, _⟩ := evicted_leaves c hr false hclosed
  exact ⟨c, hr, hc, hgoes, hfurther⟩

/-- The handler is in its loop, without a client in the map. -/
def isStranded (c : Config Bool Downstream (Sys Bool) HubCall HubOut) : Bool :=
  decide (c.pending false = some (.select 0 true true)) &&
    decide (c.state.hub.clients.entries = []) && (c.state.hist false).observed &&
    (c.state.hist false).served

theorem evicted_client_is_pinged :
    ∃ c, (machine Bool).Reaches .any (.quiet initial) c ∧
      c.pending false = some (.select 0 true true) ∧ c.state.hub.clients.entries = [] ∧
      GoesOn c.state false := by
  have hrun : ∃ c, (machine Bool).Reaches .any (.quiet initial) c ∧ isStranded c = true :=
    Machine.reaches_of_permitted
      (evictionRun ++ [.step false .ping, .step false (.sent true)]) (by decide +kernel)
  obtain ⟨c, hr, hc⟩ := hrun
  simp only [isStranded, Bool.and_eq_true, decide_eq_true_eq] at hc
  exact ⟨c, hr, hc.1.1.1, hc.1.1.2, hc.1.2, hc.2⟩

end ConductorRs.Flashblocks.Eviction
