import ConductorRs.Metatheory.HubStreamsSteps

/-!
The calls of a hub keep the streams of its clients: one triple for each
operation, one for each call, and what they say of every run.
-/
namespace ConductorRs.Flashblocks.Streams
open Concurrency Collections

section
variable {Tid : Type} {i : Tid}

/-- The operations that consume. -/
def consuming : Op → Bool
  | .select _ _ _ | .send _ | .dropReceiver _ => true
  | _ => false

/-- What entering a call establishes. -/
structure Entered (i : Tid) (call : HubCall) (s : Sys Tid) : Prop where
  free : Free i s
  payload : ∀ payload, call = .broadcast payload → s.hist.payload i = some payload
  owes : s.hist.owes i = duties call

/-- What a call that has run to its end knows: a broadcast of its round, a registration
of its client, and a call that has returned has done what it owes. -/
structure Promise (i : Tid) (call : HubCall) (out : HubOut) (s : Sys Tid) : Prop where
  free : Free i s
  round : ∀ payload, call = .broadcast payload → (s.hist.rounds i).Exact
  own : ∀ clientId rx, out = .registered clientId rx → s.hist.own i = (clientId, rx)
  owes : out ≠ .running → s.hist.owes i = []

theorem promise_stable (i : Tid) (call : HubCall) (out : HubOut) :
    outline.Stable i (Promise i call out) := by
  intro s s' h hr hi
  refine ⟨free_stable s s' h.free hr hi, ?_, ?_, ?_⟩
  · rw [hr.1.round]
    exact h.round
  · rw [hr.1.own]
    exact h.own
  · rw [hr.1.owes]
    exact h.owes

theorem leave_call {s : Sys Tid} {out : HubOut} (hi : outline.inv s) :
    outline.Grants i s ⟨s.hub.leave out, s.hist⟩ := by
  have hk : Kept s ⟨s.hub.leave out, s.hist⟩ := by
    cases out <;> exact ⟨rfl, rfl, rfl, rfl, rfl, fun _ _ _ h => ⟨h, rfl⟩⟩
  refine grants_of_kept hi ?_ hk ?_ fun j _ => ?_
  · cases out <;> exact hi.1.of_guarded rfl
  · cases out <;> rfl
  · cases out <;> exact ⟨Iff.rfl, rfl, rfl, fun _ h => h, rfl, rfl⟩

theorem initial_inv : outline.inv (initial : Sys Tid) := by
  refine ⟨⟨?_, ?_, fun _ _ => rfl, fun _ _ h => (by cases h), fun _ _ => ⟨rfl, rfl⟩,
    fun _ _ h => (by cases h)⟩, fun _ => ⟨?_, rfl, fun _ => Iff.rfl⟩⟩
  · intro e he
    cases he
  · intro e he
    cases he
  · intro e he
    cases he

theorem own_stable {ψ : Hist Tid → Prop} (hψ : Own i ψ) :
    outline.Stable i fun s => Free i s ∧ ψ s.hist :=
  fun s s' h hr hi => ⟨free_stable s s' h.1 hr hi, hψ s s' hr.1 h.2⟩

/-- The call owes the hub that this client is unregistered. -/
def Parting (i : Tid) (clientId : Nat) (owes : List Duty) (h : Hist Tid) : Prop :=
  Owing i (fun _ => True) (.unregister clientId :: owes) h ∨
    Owing i (fun own => own.1 = clientId) (.leave :: owes) h

theorem own_parting {clientId : Nat} {owes : List Duty} : Own i (Parting i clientId owes) :=
  fun s s' hp h => h.imp (own_owing s s' hp) (own_owing s s' hp)

theorem Parting.unregisters {clientId : Nat} {owes : List Duty} {h : Hist Tid}
    (hp : Parting i clientId owes h) :
    Unregisters clientId (h.view i) ∧ (h.view i).owes.tail = owes := by
  rcases hp with ⟨_, howes⟩ | ⟨hown, howes⟩
  · simp [Unregisters, Hist.view, howes, Duty.settle]
  · simp [Unregisters, Hist.view, howes, Duty.settle, hown]

theorem Entered.owing {call : HubCall} {s : Sys Tid} (h : Entered i call s) :
    Free i s ∧ Owing i (fun _ => True) (duties call) s.hist :=
  ⟨h.free, trivial, h.owes⟩

variable [DecidableEq Tid]

abbrev machine (Tid : Type) [DecidableEq Tid] :
    Machine Tid Downstream (Sys Tid) HubCall HubOut Choice ClientEvent :=
  hubMachine watch

abbrev logic (i : Tid) : Logic Downstream (Sys Tid) := (machine Tid).logic .any outline i

theorem perform_consumes {s : Sys Tid} {o : Op} {x : Choice} {r : o.Reply} {hub : HubState Tid}
    (ho : consuming o = true) (h : s.hub.perform i o x = some (r, hub)) :
    Consumes s ⟨hub, watch.after s.hub hub s.hist i o r⟩ := by
  cases o with
  | send message =>
      cases x <;> cases h
      exact Consumes.refl s
  | dropReceiver rx =>
      cases h
      exact consumes_dropReceiver s rx
  | select rx recv awaitingPong =>
      cases x with
      | recv =>
          simp only [HubState.perform, HubState.performSelect] at h
          split at h
          · split at h
            · next payload channel hrecv =>
                cases h
                exact consumes_recv hrecv
            · cases h
              exact Consumes.refl s
            · cases h
          · cases h
      | deadline =>
          simp only [HubState.perform, HubState.performSelect] at h
          split at h <;> cases h
          exact Consumes.refl s
      | ping | incoming f =>
          cases h
          exact Consumes.refl s
      | none | sent ok => cases h
  | _ => cases ho

theorem consuming_holds {ψ : Hist Tid → Prop} (hψ : Own i ψ) {o : Op} (ho : consuming o = true) :
    (logic i).Holds (fun s => Free i s ∧ ψ s.hist) (op o) fun _ s => Free i s ∧ ψ s.hist := by
  refine hub_triple_op (own_stable hψ) fun s hi hs => ⟨trivial, fun x r hub hp _ => ?_⟩
  have hc := perform_consumes ho hp
  refine ⟨grants_of_kept hi (hc.sound hi.1) hc.kept hc.owner fun j _ => hc.private j, ?_,
    hψ s _ (hc.private i) hs.2⟩
  rw [Free, hc.owner]
  exact hs.1

/-- The thread is given the id of its client. -/
theorem fetchAdd_holds {owes : List Duty} :
    (logic i).Holds (fun s => Free i s ∧ Owing i (fun _ => True) owes s.hist) (op .fetchAddNextId)
      fun clientId s => Free i s ∧ Owing i (fun own => own.1 = clientId) owes s.hist := by
  refine hub_triple_op (own_stable own_owing) fun s hi hs => ⟨trivial, fun x r hub hp _ => ?_⟩
  cases hp
  refine ⟨grants_of_kept hi (hi.1.of_guarded rfl)
    ⟨rfl, rfl, rfl, rfl, rfl, fun _ _ _ h => ⟨h, rfl⟩⟩ rfl
    fun j hj => ⟨Iff.rfl, rfl, rfl, fun _ h => h, ?_, rfl⟩, hs.1, ?_, hs.2.2⟩
  · simp [watch, Hist.after, hj]
  · simp [watch, Hist.after]

theorem lock_holds {ψ : Hist Tid → Prop} (hψ : Own i ψ) :
    (logic i).Holds (fun s => Free i s ∧ ψ s.hist) (op .lockClients)
      fun _ s => s.hub.owner = some i ∧ Full s ∧ Mapped s ∧ ψ s.hist := by
  refine hub_triple_op (own_stable hψ) fun s hi hs => ⟨trivial, fun x r hub hp _ => ?_⟩
  simp only [HubState.perform] at hp
  split at hp
  · next hnone =>
      cases hp
      obtain ⟨hfull, _, hmapped⟩ := hi.2 hnone
      refine ⟨⟨⟨hi.1.of_guarded rfl, fun h => by cases h⟩,
        fun j hj => ⟨⟨?_, rfl, rfl, fun _ h => h, rfl, rfl⟩, ?_⟩⟩, ?_⟩
      · simp [hnone, Ne.symm hj]
      · intro hj'
        rw [hnone] at hj'
        cases hj'
      · exact ⟨rfl, hfull, hmapped, hs.2⟩
  · cases hp

/-- What the holder saw last, and what the mutex was given back with. -/
structure Released (i : Tid) (φ : List (Nat × Nat) → View → Prop) (s : Sys Tid) : Prop where
  free : Free i s
  seen : ∃ clients v, φ clients v ∧ s.hist.rounds i = { v.round with after := clients } ∧
    s.hist.own i = v.own ∧ s.hist.owes i = v.owes.tail

/-- The mutex is given back with the streams complete, the clients counted and the
members in the map. -/
theorem unlock_holds {φ : List (Nat × Nat) → View → Prop}
    (hφ : ∀ clients v, φ clients v → Due clients v) :
    (logic i).Holds (fun s => Locked i φ s ∧ Counted s) (op .unlockClients)
      fun _ => Released i φ := by
  have hstable : outline.Stable i fun s => Locked i φ s ∧ Counted s :=
    fun s s' h hr hi => ⟨locked_stable s s' h.1 hr hi, h.2.kept (hr.2 h.1.1)⟩
  refine hub_triple_op hstable fun s hi hs => ⟨trivial, fun x r hub hp _ => ?_⟩
  obtain ⟨⟨hmine, hfull, hview⟩, hcount⟩ := hs
  simp only [HubState.perform, if_pos hmine] at hp
  cases hp
  refine ⟨⟨⟨?_, fun _ => ⟨hfull, hcount, hφ _ _ hview⟩⟩,
    fun j hj => ⟨⟨?_, ?_, rfl, fun _ h => h, rfl, ?_⟩, ?_⟩⟩, ?_, ?_⟩
  · exact hi.1.of_guarded rfl
  · simp [hmine, Ne.symm hj]
  · simp [watch, Hist.after, Hist.settle, hj]
  · simp [watch, Hist.after, Hist.settle, hj]
  · intro hj'
    rw [hmine] at hj'
    exact absurd (Option.some.inj hj').symm hj
  · simp [Free]
  · exact ⟨_, _, hview, by simp [watch, Hist.after, Hist.settle, Hist.view, entries],
      rfl, by simp [watch, Hist.after, Hist.settle, Hist.view]⟩

theorem recordCount_holds {φ : List (Nat × Nat) → View → Prop} :
    (logic i).Holds (Locked i φ) Hub.recordCount fun _ s => Locked i φ s ∧ Counted s := by
  refine (logic i).bind
    (R := fun n s => Locked i φ s ∧ n = (entries s).length) ?_ fun n => ?_
  · refine hub_triple_op locked_stable fun s hi hs => ⟨trivial, fun x r hub hp _ => ?_⟩
    cases hp
    exact ⟨grants_of_kept hi hi.1 (.refl s) rfl fun j _ => .refl j s, hs, rfl⟩
  · refine hub_triple_op (fun s s' h hr hi => ⟨locked_stable s s' h.1 hr hi, ?_⟩) ?_
    · rw [h.2, entries, entries, (hr.2 h.1.1).clients]
    · refine fun s hi hs => ⟨trivial, fun x r hub hp _ => ?_⟩
      cases hp
      obtain ⟨hlocked, hn⟩ := hs
      exact ⟨grants_of_holder hlocked.1 (hi.1.of_guarded rfl) rfl
        fun j _ => ⟨Iff.rfl, rfl, rfl, fun _ h => h, rfl, rfl⟩, hlocked, hn⟩

/-- The thread is given the channel of its client. -/
theorem channel_holds {clientId : Nat} {owes : List Duty} :
    (logic i).Holds (fun s => Free i s ∧ Owing i (fun own => own.1 = clientId) owes s.hist)
      (op .channel) fun tx s => Free i s ∧ (s.hist.fresh tx = some i ∧
        Owing i (fun own => own = (clientId, tx)) owes s.hist) := by
  refine hub_triple_op (own_stable own_owing) fun s hi hs => ⟨trivial, fun x r hub hp _ => ?_⟩
  cases hp
  obtain ⟨hsince, hfresh⟩ := hi.1.unallocated s.hub.allocated (Nat.le_refl _)
  have hnew : s.hist.taken s.hub.allocated = [] :=
    (List.append_eq_nil_iff.mp (hi.1.unheard _ hsince)).1
  have hne : ∀ rx k, s.hist.since rx = some k → rx ≠ s.hub.allocated := by
    rintro rx k hk rfl
    rw [hsince] at hk
    cases hk
  refine ⟨grants_of_kept hi ?_ ⟨rfl, rfl, rfl, rfl, rfl, ?_⟩ rfl
    fun j hj => ⟨Iff.rfl, rfl, rfl, ?_, ?_, rfl⟩, hs.1, ?_, ?_, hs.2.2⟩
  · refine ⟨hi.1.distinct, hi.1.registered, fun rx hrx => ?_, fun rx k hk => ?_,
      fun rx hrx => ?_, fun rx j hj => ?_⟩
    · by_cases h : rx = s.hub.allocated
      · subst h
        simp [received, watch, Hist.after, HubState.setChannel, Channel.new, hnew]
      · simpa [received, watch, Hist.after, HubState.setChannel, h] using hi.1.unheard rx hrx
    · have h := hne rx k hk
      simpa [received, watch, Hist.after, HubState.setChannel, h] using hi.1.stream rx k hk
    · have hrx : s.hub.allocated + 1 ≤ rx := hrx
      have h : rx ≠ s.hub.allocated := by omega
      simpa [watch, Hist.after, h] using hi.1.unallocated rx (by omega)
    · by_cases h : rx = s.hub.allocated
      · subst h
        exact hsince
      · simp only [watch, Hist.after, Function.update_of_ne h] at hj
        exact hi.1.fresh rx j hj
  · intro rx k hk hl
    have h := hne rx k hk
    simpa [listening, received, watch, Hist.after, HubState.setChannel, h] using hl
  · intro rx hrx
    have h : rx ≠ s.hub.allocated := by
      rintro rfl
      rw [hfresh] at hrx
      cases hrx
    simpa [watch, Hist.after, h] using hrx
  · simp [watch, Hist.after, hj]
  · simp [watch, Hist.after]
  · simp [watch, Hist.after, hs.2.1]

/-- A registration that has put its client into the map. -/
def Joined (client : Nat × Nat) (owes : List Duty) (clients : List (Nat × Nat)) (v : View) :
    Prop :=
  Due clients v ∧ v.own = client ∧ v.owes.tail = owes

theorem insert_holds {clientId tx : Nat} {owes : List Duty} :
    (logic i).Holds (fun s => s.hub.owner = some i ∧ Full s ∧ Mapped s ∧
        (s.hist.fresh tx = some i ∧
          Owing i (fun own => own = (clientId, tx)) (.register :: owes) s.hist))
      (op (.insertClient clientId tx)) fun _ => Locked i (Joined (clientId, tx) owes) := by
  refine hub_triple_op (fun s s' h hr _ => ?_) fun s hi hs => ⟨trivial, fun x r hub hp _ => ?_⟩
  · obtain ⟨hmine, hfull, hmapped, hown⟩ := h
    have hk := hr.2 hmine
    exact ⟨hr.1.owner.mpr hmine, hfull.kept hk, hmapped.kept hk,
      own_fresh own_owing tx s s' hr.1 hown⟩
  · cases hp
    obtain ⟨hmine, hfull, hmapped, hfresh, hown, howes⟩ := hs
    refine ⟨grants_of_holder hmine (hi.1.insert hfresh) rfl
      fun j hj => ⟨Iff.rfl, rfl, rfl, fun rx hrx => ?_, rfl, rfl⟩, hmine,
      full_insert hi.1 hfull hfresh, ?_, hown, ?_⟩
    · have hne : rx ≠ tx := by
        rintro rfl
        rw [hfresh] at hrx
        exact hj (Option.some.inj hrx).symm
      simpa [watch, Hist.after, hne] using hrx
    · exact hmapped.insert hown (congrArg List.head? howes) rfl
    · exact congrArg List.tail howes

theorem remove_holds {A B : Sys Tid → Prop} (hA : outline.Stable i A) {clientId : Nat}
    (hmine : ∀ s, A s → s.hub.owner = some i) (h : ∀ s, A s → B (erased s clientId)) :
    (logic i).Holds A (op (.removeClient clientId)) fun _ => B := by
  refine hub_triple_op hA fun s hi hs => ⟨trivial, fun x r hub hp _ => ?_⟩
  cases hp
  exact ⟨grants_of_holder (hmine s hs) (hi.1.erase clientId) rfl
    fun j _ => ⟨Iff.rfl, rfl, rfl, fun _ h => h, rfl, rfl⟩, h s hs⟩

/-- The log grows before the first client is offered the payload. -/
theorem iter_holds {payload : WsPayload} :
    (logic i).Holds
      (fun s => s.hub.owner = some i ∧ Full s ∧ Mapped s ∧ (s.hist.payload i = some payload ∧
        Owing i (fun _ => True) [.broadcast] s.hist))
      (op .iterClients) fun clients => Offering i payload [] clients [] := by
  refine hub_triple_op (fun s s' h hr _ => ?_) fun s hi hs => ⟨trivial, fun x r hub hp _ => ?_⟩
  · obtain ⟨hmine, hfull, hmapped, hown⟩ := h
    have hk := hr.2 hmine
    exact ⟨hr.1.owner.mpr hmine, hfull.kept hk, hmapped.kept hk,
      own_payload own_owing payload s s' hr.1 hown⟩
  · cases hp
    obtain ⟨hmine, hfull, hmapped, hpayload, _, howes⟩ := hs
    have hlog : (watch.after s.hub s.hub s.hist i .iterClients s.hub.clients.entries).log =
        s.hist.log ++ [payload] := by
      simp [watch, Hist.after, hpayload]
    refine ⟨grants_of_holder hmine ?_ rfl
      fun j hj => ⟨Iff.rfl, ?_, rfl, fun _ h => h, rfl, rfl⟩, ?_⟩
    · refine ⟨hi.1.distinct, hi.1.registered, hi.1.unheard, fun rx k hk => ?_,
        hi.1.unallocated, hi.1.fresh⟩
      obtain ⟨hle, hp⟩ := hi.1.stream rx k hk
      simp only [hlog, List.length_append, List.drop_append_of_le_length hle]
      exact ⟨by omega, hp.trans (List.prefix_append _ _)⟩
    · simp [watch, Hist.after, hj]
    · refine ⟨hmine, rfl, ?_, ?_, by simp, by simp, ?_, by simp, fun e he k hk hl => ?_, hmapped,
        howes⟩
      · simp [watch, Hist.after, entries]
      · simp [watch, Hist.after]
      · simp [watch, Hist.after]
      · obtain ⟨hle, _⟩ := hi.1.stream e.2 k hk
        simp only [hlog, List.drop_append_of_le_length hle]
        exact congrArg (· ++ [payload]) (hfull e he k hk hl)

/-- One offer moves a client from the rest to those who were sent the payload. -/
theorem trySend_holds {payload : WsPayload} {sent rest : List (Nat × Nat)} {e : Nat × Nat}
    {dropped : List Nat} :
    (logic i).Holds (Offering i payload sent (e :: rest) dropped) (op (.trySend e.2 payload))
      fun ok => Offering i payload (sent ++ [e]) rest
        (if ok then dropped else dropped ++ [e.1]) := by
  refine hub_triple_op offering_stable fun s hi hs => ⟨trivial, fun x r hub hp _ => ?_⟩
  cases hp
  have hin : e ∈ entries s := by rw [hs.split]; simp
  have hapart := hi.1.apart hs.split
  refine ⟨grants_of_holder hs.owner (hi.1.offeredTo hin (hs.awaits e List.mem_cons_self)) rfl
    fun j hj => ⟨Iff.rfl, by simp [watch, Hist.after, hj], rfl, fun _ h => h, rfl, rfl⟩, ?_⟩
  change Offering i payload (sent ++ [e]) rest _ (offeredTo i s e.2 payload)
  cases hrefuses : (s.hub.channels e.2).refuses with
  | true =>
      rw [Channel.trySend_of_refuses hrefuses]
      exact hs.refuse hapart hrefuses
  | false =>
      rw [(Channel.trySend_of_accepts hrefuses).1]
      exact hs.accept hapart hrefuses

/-- The mutex is given back after the clients have been counted. -/
theorem leave_holds {φ : List (Nat × Nat) → View → Prop}
    (hφ : ∀ clients v, φ clients v → Due clients v) :
    (logic i).Holds (Locked i φ) (Hub.recordCount.bind fun _ => op .unlockClients)
      fun _ => Released i φ :=
  (logic i).bind recordCount_holds fun _ => unlock_holds hφ

theorem register_holds {owes : List Duty} :
    (logic i).Holds (fun s => Free i s ∧ Owing i (fun _ => True) (.register :: owes) s.hist)
      Hub.register fun client s => Free i s ∧ Owing i (fun own => own = client) owes s.hist := by
  refine (logic i).bind fetchAdd_holds fun clientId => ?_
  refine (logic i).bind channel_holds fun tx => ?_
  refine (logic i).bind (lock_holds (own_fresh own_owing tx)) fun _ => ?_
  refine (logic i).bind insert_holds fun _ => ?_
  refine (logic i).bind recordCount_holds fun _ => ?_
  refine (logic i).bind (unlock_holds fun _ _ h => h.1) fun _ => ?_
  refine (logic i).done fun s _ h => ⟨h.free, ?_⟩
  obtain ⟨clients, v, ⟨_, hown, howes⟩, _, hown', howes'⟩ := h.seen
  exact ⟨hown'.trans hown, howes'.trans howes⟩

theorem unregister_holds {clientId : Nat} {owes : List Duty} :
    (logic i).Holds (fun s => Free i s ∧ Parting i clientId owes s.hist)
      (Hub.unregister clientId)
      fun _ s => Free i s ∧ Owing i (fun _ => True) owes s.hist := by
  refine (logic i).bind (lock_holds own_parting) fun _ => ?_
  refine (logic i).bind
    (R := fun _ => Locked i fun clients v => Due clients v ∧ v.owes.tail = owes) ?_ fun _ => ?_
  · refine remove_holds (fun s s' h hr _ => ?_) (fun s h => h.1) fun s h => ?_
    · obtain ⟨hmine, hfull, hmapped, hparting⟩ := h
      have hk := hr.2 hmine
      exact ⟨hr.1.owner.mpr hmine, hfull.kept hk, hmapped.kept hk,
        own_parting s s' hr.1 hparting⟩
    · obtain ⟨hmine, hfull, hmapped, hparting⟩ := h
      obtain ⟨hunregisters, howes⟩ := hparting.unregisters
      refine ⟨hmine, fun e he => ?_, hmapped.erase hunregisters, howes⟩
      rw [entries_erased] at he
      exact hfull e (List.mem_of_mem_filter he)
  · refine (logic i).post (leave_holds fun _ _ h => h.1) fun _ s h => ⟨h.free, trivial, ?_⟩
    obtain ⟨clients, v, ⟨_, howes⟩, _, _, howes'⟩ := h.seen
    exact howes'.trans howes

theorem offer_holds {payload : WsPayload} (clients : List (Nat × Nat)) (sent : List (Nat × Nat))
    (dropped : List Nat) :
    (logic i).Holds (Offering i payload sent clients dropped) (Hub.offer payload clients dropped)
      fun dropped s => ∃ sent, Offering i payload sent [] dropped s := by
  induction clients generalizing sent dropped with
  | nil => exact (logic i).done fun s _ h => ⟨sent, h⟩
  | cons e rest ih =>
      obtain ⟨clientId, tx⟩ := e
      apply (logic i).bind trySend_holds
      intro ok
      cases ok with
      | true => exact ih (sent ++ [(clientId, tx)]) dropped
      | false => exact ih (sent ++ [(clientId, tx)]) (dropped ++ [clientId])

theorem drop_holds {dropped : List Nat} (left gone : List Nat) :
    (logic i).Holds (Dropping i dropped gone) (Hub.drop left)
      fun _ => Dropping i dropped (gone ++ left) := by
  induction left generalizing gone with
  | nil =>
      rw [List.append_nil]
      exact (logic i).done fun _ _ h => h
  | cons clientId left ih =>
      apply (logic i).bind (remove_holds dropping_stable (fun s h => h.owner) fun s h => h.erase)
      intro _
      rw [show gone ++ clientId :: left = gone ++ [clientId] ++ left by simp]
      exact ih (gone ++ [clientId])

theorem broadcast_holds (payload : WsPayload) :
    (logic i).Holds (fun s => Free i s ∧ (s.hist.payload i = some payload ∧
        Owing i (fun _ => True) [.broadcast] s.hist))
      (Hub.broadcast payload)
      fun _ s => Free i s ∧ (s.hist.rounds i).Exact ∧ s.hist.owes i = [] := by
  refine (logic i).bind (lock_holds (own_payload own_owing payload)) fun _ => ?_
  refine (logic i).bind iter_holds fun clients => ?_
  refine (logic i).bind (offer_holds clients [] []) fun dropped => ?_
  refine (logic i).bind (R := fun _ => Dropping i dropped dropped) ?_ fun _ => ?_
  · refine (logic i).pre (fun s h => ?_) (drop_holds dropped [])
    obtain ⟨sent, h⟩ := h
    exact h.dropping
  · refine (logic i).pre (fun s h => h.settled) ?_
    refine (logic i).post (leave_holds fun _ _ h => h.2.2.1) fun _ s h => ⟨h.free, ?_⟩
    obtain ⟨clients, v, ⟨hoffered, hkept, _, howes⟩, hround, _, howes'⟩ := h.seen
    refine ⟨?_, by rw [howes', howes]; rfl⟩
    rw [hround]
    exact ⟨hoffered, hkept⟩

theorem handleSelected_consuming (awaitingPong : Bool) (selected : Selected) :
    (handleSelected awaitingPong selected).All fun o : Op => consuming o = true := by
  cases selected with
  | payload payload | ping => exact ⟨rfl, fun ok => by cases ok <;> trivial⟩
  | closed | pongDeadline => trivial
  | incoming incoming => cases incoming <;> trivial

theorem downstreamRound_consuming (rx : Nat) (awaitingPong : Bool) :
    (downstreamRound rx awaitingPong).All fun o : Op => consuming o = true := by
  refine ⟨rfl, fun selected => ?_⟩
  cases selected with
  | closed => exact ⟨rfl, fun selected => handleSelected_consuming awaitingPong selected⟩
  | payload payload => exact handleSelected_consuming awaitingPong (.payload payload)
  | ping => exact handleSelected_consuming awaitingPong .ping
  | pongDeadline => exact handleSelected_consuming awaitingPong .pongDeadline
  | incoming incoming => exact handleSelected_consuming awaitingPong (.incoming incoming)

theorem handleDownstream_holds (rounds : Nat) :
    (logic i).Holds (fun s => Free i s ∧ Owing i (fun _ => True) [.register, .leave] s.hist)
      (handleDownstreamWithTiming rounds)
      fun left s => Free i s ∧ (left = some () → s.hist.owes i = []) := by
  refine (logic i).bind register_holds fun client => ?_
  have hround : ∀ awaitingPong, (logic i).Holds
      (fun s => Free i s ∧ Owing i (fun own => own = client) [.leave] s.hist)
      (downstreamRound client.2 awaitingPong)
      fun _ s => Free i s ∧ Owing i (fun own => own = client) [.leave] s.hist :=
    fun awaitingPong => (logic i).all (fun o ho => consuming_holds own_owing ho)
      (downstreamRound_consuming client.2 awaitingPong)
  refine (logic i).bind
    (R := fun _ s => Free i s ∧ Owing i (fun own => own = client) [.leave] s.hist) ?_ fun left => ?_
  · refine (logic i).loop (I := fun _ s => Free i s ∧ Owing i (fun own => own = client) [.leave]
      s.hist) (fun awaitingPong => ?_) (fun _ _ _ h => h) rounds false
    refine (logic i).post (hround awaitingPong) fun r _ h => ?_
    cases r <;> exact h
  · cases left with
    | none => exact (logic i).done fun _ _ h => ⟨h.1, fun hn => by cases hn⟩
    | some _ =>
        have hpart : ∀ s : Sys Tid,
            Free i s ∧ Owing i (fun own => own = client) [.leave] s.hist →
            Free i s ∧ Parting i client.1 [] s.hist :=
          fun _ h => ⟨h.1, .inr ⟨congrArg Prod.fst h.2.1, h.2.2⟩⟩
        refine (logic i).bind ((logic i).pre hpart unregister_holds) fun _ => ?_
        refine (logic i).bind (consuming_holds own_owing rfl) fun _ => ?_
        exact (logic i).done fun _ _ h => ⟨h.1, fun _ => h.2.2⟩

theorem body_holds (i : Tid) (call : HubCall) :
    (logic i).Holds (Entered i call) (hubBody call) (Promise i call) := by
  cases call with
  | register =>
      refine (logic i).bind ((logic i).pre (fun _ h => h.owing) register_holds) fun client => ?_
      refine (logic i).done fun _ _ h => ⟨h.1, nofun, fun clientId rx hout => ?_, fun _ => h.2.2⟩
      cases hout
      exact h.2.1
  | unregister clientId =>
      refine (logic i).bind ((logic i).pre (fun _ h => ⟨h.free, .inl h.owing.2⟩)
        unregister_holds) fun _ => ?_
      exact (logic i).done fun _ _ h => ⟨h.1, nofun, nofun, fun _ => h.2.2⟩
  | broadcast payload =>
      refine (logic i).bind ((logic i).pre (fun _ h => ⟨h.free, h.payload payload rfl, h.owing.2⟩)
        (broadcast_holds payload)) fun _ => ?_
      exact (logic i).done fun _ _ h => ⟨h.1, fun _ _ => h.2.1, nofun, fun _ => h.2.2⟩
  | handleDownstream rounds =>
      refine (logic i).bind ((logic i).pre (fun _ h => h.owing) (handleDownstream_holds rounds))
        fun left => ?_
      cases left with
      | none => exact (logic i).done fun _ _ h => ⟨h.1, nofun, nofun, fun hr => absurd rfl hr⟩
      | some _ => exact (logic i).done fun _ _ h => ⟨h.1, nofun, nofun, fun _ => h.2 rfl⟩

theorem client_consumes {s : Sys Tid} {e : ClientEvent} {hub : HubState Tid}
    (h : s.hub.client e = some hub) : Consumes s ⟨hub, watch.client s.hub s.hist e⟩ := by
  cases e with
  | recv rx =>
      simp only [HubState.client] at h
      split at h
      · split at h
        · next payload channel hrecv =>
            cases h
            have hhead : (s.hub.channels rx).queue.head?.toList = [payload] := by
              simp [(Channel.recv_some hrecv).1]
            simp only [watch, Hist.client, hhead]
            exact consumes_recv hrecv
        · cases h
      · cases h
  | dropReceiver rx =>
      simp only [HubState.client] at h
      split at h <;> cases h
      exact consumes_dropReceiver s rx

theorem enter_holds {s : Sys Tid} {call : HubCall} (hi : outline.inv s) (hidle : Free i s) :
    outline.Grants i s ⟨s.hub, watch.begin s.hist i call⟩ ∧
      Entered i call ⟨s.hub, watch.begin s.hist i call⟩ := by
  refine ⟨grants_of_kept hi (hi.1.of_guarded rfl)
    ⟨rfl, rfl, rfl, rfl, rfl, fun _ _ _ h => ⟨h, rfl⟩⟩ rfl
    fun j hj => ⟨Iff.rfl, rfl, ?_, fun _ h => h, rfl, ?_⟩, hidle, ?_, ?_⟩
  · cases call with
    | broadcast payload => simp [watch, Hist.begin, hj]
    | _ => rfl
  · simp [watch, Hist.begin, hj]
  · rintro payload rfl
    simp [watch, Hist.begin]
  · simp [watch, Hist.begin]

theorem meets : (machine Tid).Meets .any outline Promise := by
  refine Machine.meets_of_calls coherent promise_stable ?_ body_holds ?_ ?_
  · intro s i call s' hi hidle he _
    cases he
    exact enter_holds hi hidle
  · intro s i call out hi h
    refine ⟨leave_call hi, ?_⟩
    cases out <;> exact h.free
  · intro s e s' hi he _
    obtain ⟨hub, hclient, rfl⟩ := Option.map_eq_some_iff.mp he
    have hc := client_consumes hclient
    exact ⟨inv_of_kept hi (hc.sound hi.1) hc.kept hc.owner,
      fun j => ⟨hc.private j, fun _ => hc.kept⟩⟩

theorem upholds_of_reaches {c : Config Tid Downstream (Sys Tid) HubCall HubOut}
    (hr : (machine Tid).Reaches .any (.quiet initial) c) :
    (machine Tid).Upholds .any outline Promise c :=
  meets.reaches (Machine.upholds_quiet initial initial_inv fun _ h => by cases h) hr

/-- In every run: what a client takes is a prefix of what was broadcast after its
registration; a broadcast removes exactly the clients whose queue was full or
whose receiver was gone when it came to them; while the mutex is free every
listening client has been sent everything, whoever else was removed, the recorded count
is the number of clients, and the clients in the map are those that were registered and
have neither been unregistered nor refused a payload. A call that has returned has
registered, unregistered or removed whom it had to; what it registered is what it
returns. -/
theorem subscriber_streams (c : Config Tid Downstream (Sys Tid) HubCall HubOut)
    (hr : (machine Tid).Reaches .any (.quiet initial) c) :
    (∀ rx k, c.state.hist.since rx = some k →
      c.state.hist.taken rx <+: c.state.hist.log.drop k) ∧
    (∀ i payload out, c.tasks i = some (.broadcast payload, .done out) →
      (c.state.hist.rounds i).Exact) ∧
    (c.state.hub.owner = none → ∀ e ∈ entries c.state, ∀ k, c.state.hist.since e.2 = some k →
      listening c.state e.2 = true → received c.state e.2 = c.state.hist.log.drop k) ∧
    (c.state.hub.owner = none → c.state.hub.count = (entries c.state).length) ∧
    (c.state.hub.owner = none → ∀ e, e ∈ entries c.state ↔ e ∈ c.state.hist.members) ∧
    ∀ i call out, c.tasks i = some (call, .done out) →
      (out ≠ .running → c.state.hist.owes i = []) ∧
      ∀ clientId rx, out = .registered clientId rx → c.state.hist.own i = (clientId, rx) := by
  have hup := upholds_of_reaches hr
  refine ⟨fun rx k hk => ?_, fun i payload out ht => ?_, fun hnone => ?_, fun hnone => ?_,
    fun hnone => ?_, fun i call out ht => ⟨?_, ?_⟩⟩
  · exact (List.prefix_append _ _).trans (hup.1.1.stream rx k hk).2
  · exact (hup.returned ht).round payload rfl
  · exact (hup.1.2 hnone).1
  · exact (hup.1.2 hnone).2.1
  · exact (hup.1.2 hnone).2.2
  · exact (hup.returned ht).owes
  · exact (hup.returned ht).own

end

/-- A client registers, a broadcast runs to its end and the client takes the
payload. -/
def deliveryRun : List (Event Bool HubCall Choice ClientEvent) :=
  [.call false .register] ++ steps false 7 ++ [.ret false] ++
    [.call true (.broadcast flashblock)] ++ steps true 6 ++ [.env (.recv 0)]

def delivered (c : Config Bool Downstream (Sys Bool) HubCall HubOut) : Bool :=
  decide (c.state.hist.since 0 = some 0) && decide (c.state.hist.taken 0 = [flashblock]) &&
    decide (c.state.hub.owner = none) && decide (c.state.hub.count = 1) &&
    decide ((1, 0) ∈ entries c.state)

theorem delivered_stream :
    ∃ c, (machine Bool).Reaches .any (.quiet initial) c ∧ delivered c = true ∧
      c.state.hist.taken 0 <+: c.state.hist.log ∧
      c.state.hub.count = (entries c.state).length ∧ (1, 0) ∈ c.state.hist.members := by
  have hrun : ∃ c, (machine Bool).Reaches .any (.quiet initial) c ∧ delivered c = true :=
    Machine.reaches_of_permitted deliveryRun (by decide +kernel)
  obtain ⟨c, hr, hc⟩ := hrun
  obtain ⟨hstream, _, _, hcount, hmembers, _⟩ := subscriber_streams c hr
  have hfacts := hc
  simp only [delivered, Bool.and_eq_true, decide_eq_true_eq] at hfacts
  obtain ⟨⟨⟨⟨hsince, _⟩, howner⟩, _⟩, hentry⟩ := hfacts
  exact ⟨c, hr, hc, hstream 0 0 hsince, hcount howner, (hmembers howner (1, 0)).mp hentry⟩

end ConductorRs.Flashblocks.Streams
