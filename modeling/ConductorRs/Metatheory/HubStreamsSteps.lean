import ConductorRs.Metatheory.HubStreams

/-!
How the state behind the streams moves.

Consuming keeps every stream of a listening client. Everything else is done by
the holder of the mutex: a registration starts an empty stream at the end of the
log, and a broadcast extends the log first and then each stream in turn, so that
a client it has not reached yet lacks exactly the last payload.
-/
namespace ConductorRs.Flashblocks.Streams
open Concurrency Collections

section
variable {Tid : Type} {i : Tid}

/-- What consumers and the operations that touch nothing guarded do. -/
structure Consumes (s s' : Sys Tid) : Prop where
  kept : Kept s s'
  less : ∀ rx, received s' rx <+: received s rx
  allocated : s'.hub.allocated = s.hub.allocated
  fresh : s'.hist.fresh = s.hist.fresh
  owner : s'.hub.owner = s.hub.owner
  rounds : s'.hist.rounds = s.hist.rounds
  payload : s'.hist.payload = s.hist.payload
  own : s'.hist.own = s.hist.own
  owes : s'.hist.owes = s.hist.owes

theorem Consumes.private {s s' : Sys Tid} (h : Consumes s s') (j : Tid) : Private j s s' where
  owner := by rw [h.owner]
  round := by rw [h.rounds]
  payload := by rw [h.payload]
  fresh rx hf := by rw [h.fresh]; exact hf
  own := by rw [h.own]
  owes := by rw [h.owes]

theorem Consumes.sound {s s' : Sys Tid} (h : Consumes s s') (hs : Sound s) : Sound s' :=
  hs.consume h.kept h.less h.allocated h.fresh

theorem Consumes.refl (s : Sys Tid) : Consumes s s :=
  ⟨.refl s, fun _ => List.prefix_rfl, rfl, rfl, rfl, rfl, rfl, rfl, rfl⟩

theorem received_recv {s : Sys Tid} {rx : Nat} {payload : WsPayload} {channel : ClientChannel}
    {connected : Bool} (h : (s.hub.channels rx).recv connected = some (some payload, channel))
    (rx' : Nat) :
    received ⟨s.hub.setChannel rx channel,
      { s.hist with taken := Function.update s.hist.taken rx (s.hist.taken rx ++ [payload]) }⟩ rx' =
        received s rx' := by
  obtain ⟨hq, _⟩ := Channel.recv_some h
  by_cases hrx : rx' = rx
  · subst hrx
    simp [received, HubState.setChannel, hq]
  · simp [received, HubState.setChannel, hrx]

theorem consumes_recv {s : Sys Tid} {rx : Nat} {payload : WsPayload} {channel : ClientChannel}
    {connected : Bool} (h : (s.hub.channels rx).recv connected = some (some payload, channel)) :
    Consumes s ⟨s.hub.setChannel rx channel,
      { s.hist with taken := Function.update s.hist.taken rx (s.hist.taken rx ++ [payload]) }⟩ := by
  have hsame := received_recv h
  refine ⟨⟨rfl, rfl, rfl, rfl, rfl, fun rx' k _ hl => ⟨?_, hsame rx'⟩⟩, fun rx' => ?_, rfl, rfl,
    rfl, rfl, rfl, rfl, rfl⟩
  · obtain ⟨_, hr⟩ := Channel.recv_some h
    by_cases hrx : rx' = rx
    · subst hrx
      simpa [listening, HubState.setChannel, hr] using hl
    · simpa [listening, HubState.setChannel, hrx] using hl
  · rw [hsame]

theorem consumes_dropReceiver (s : Sys Tid) (rx : Nat) :
    Consumes s ⟨s.hub.setChannel rx (s.hub.channels rx).dropReceiver, s.hist⟩ := by
  refine ⟨⟨rfl, rfl, rfl, rfl, rfl, fun rx' k _ hl => ?_⟩, fun rx' => ?_, rfl, rfl, rfl, rfl, rfl,
    rfl, rfl⟩
  · by_cases hrx : rx' = rx
    · subst hrx
      simp [listening, HubState.setChannel, Channel.dropReceiver] at hl
    · simpa [listening, received, HubState.setChannel, hrx] using hl
  · by_cases hrx : rx' = rx
    · subst hrx
      simp [received, HubState.setChannel, Channel.dropReceiver]
    · simp [received, HubState.setChannel, hrx]

def Free (i : Tid) (s : Sys Tid) : Prop := s.hub.owner ≠ some i

theorem free_stable : outline.Stable i (Free i) :=
  fun _ _ h hr hi => coherent.idle i h hr hi

/-- What only the thread itself moves. -/
def Own (i : Tid) (ψ : Hist Tid → Prop) : Prop :=
  ∀ s s' : Sys Tid, Private i s s' → ψ s.hist → ψ s'.hist

/-- The client the thread was given and what it owes. -/
def Owing (i : Tid) (φ : Nat × Nat → Prop) (owes : List Duty) (h : Hist Tid) : Prop :=
  φ (h.own i) ∧ h.owes i = owes

theorem own_owing {φ : Nat × Nat → Prop} {owes : List Duty} : Own i (Owing i φ owes) := by
  intro s s' hp h
  rw [Owing, hp.own, hp.owes]
  exact h

theorem own_fresh {ψ : Hist Tid → Prop} (hψ : Own i ψ) (tx : Nat) :
    Own i fun h => h.fresh tx = some i ∧ ψ h :=
  fun s s' hp h => ⟨hp.fresh tx h.1, hψ s s' hp h.2⟩

theorem own_payload {ψ : Hist Tid → Prop} (hψ : Own i ψ) (payload : WsPayload) :
    Own i fun h => h.payload i = some payload ∧ ψ h :=
  fun s s' hp h => ⟨hp.payload.trans h.1, hψ s s' hp h.2⟩

/-- What the holder of the mutex knows of its own call and of the members. -/
structure View where
  round : Round
  own : Nat × Nat
  owes : List Duty
  members : List (Nat × Nat)

def Hist.view (h : Hist Tid) (i : Tid) : View := ⟨h.rounds i, h.own i, h.owes i, h.members⟩

theorem view_kept {s s' : Sys Tid} (hk : Kept s s') (hp : Private i s s') :
    s'.hist.view i = s.hist.view i := by
  simp only [Hist.view, hp.round, hp.own, hp.owes, hk.members]

/-- The clients are what the members are going to be. -/
def Due (clients : List (Nat × Nat)) (v : View) : Prop :=
  ∀ e, e ∈ clients ↔ e ∈ v.owes.head?.elim v.members
    (Duty.settle v.own v.round.refused v.members)

/-- The mutex is held and every stream is complete; `φ` is about the clients and
what the holder sees. -/
def Locked (i : Tid) (φ : List (Nat × Nat) → View → Prop) (s : Sys Tid) : Prop :=
  s.hub.owner = some i ∧ Full s ∧ φ (entries s) (s.hist.view i)

theorem locked_stable {φ : List (Nat × Nat) → View → Prop} :
    outline.Stable i (Locked i φ) := by
  intro s s' h hr _
  have hk := hr.2 h.1
  refine ⟨hr.1.owner.mpr h.1, h.2.1.kept hk, ?_⟩
  rw [entries, hk.clients, view_kept hk hr.1]
  exact h.2.2

/-- The hub with a client more, whose stream begins here. -/
def inserted (s : Sys Tid) (clientId tx : Nat) : Sys Tid :=
  ⟨{ s.hub with clients := s.hub.clients.insert clientId tx },
    { s.hist with
      since := Function.update s.hist.since tx (some s.hist.log.length)
      fresh := Function.update s.hist.fresh tx none }⟩

theorem received_inserted (s : Sys Tid) (clientId tx rx : Nat) :
    received (inserted s clientId tx) rx = received s rx := rfl

/-- The stream of a new client is empty, and so is the log after its registration. -/
theorem Sound.insert {s : Sys Tid} (h : Sound s) {clientId tx : Nat}
    (hfresh : s.hist.fresh tx = some i) :
    Sound (inserted s clientId tx) := by
  have hsince := h.fresh tx i hfresh
  have hnot : ∀ e ∈ entries s, e.2 ≠ tx := by
    intro e he heq
    obtain ⟨k, hk⟩ := h.registered e he
    rw [heq, hsince] at hk
    cases hk
  refine ⟨fun e he e' he' heq => ?_, fun e he => ?_, fun rx hrx => ?_, fun rx k hk => ?_,
    fun rx hrx => ?_, fun rx j hj => ?_⟩
  · cases BTreeMap.mem_insertEntry he with
    | inl hnew =>
        cases BTreeMap.mem_insertEntry he' with
        | inl hnew' => rw [hnew, hnew']
        | inr hold' => exact absurd (by rw [← heq, hnew]) (hnot e' hold')
    | inr hold =>
        cases BTreeMap.mem_insertEntry he' with
        | inl hnew' => exact absurd (by rw [heq, hnew']) (hnot e hold)
        | inr hold' => exact h.distinct e hold e' hold' heq
  · cases BTreeMap.mem_insertEntry he with
    | inl hnew => exact ⟨_, by rw [hnew]; exact Function.update_self ..⟩
    | inr hold =>
        obtain ⟨k, hk⟩ := h.registered e hold
        exact ⟨k, by simpa [inserted, hnot e hold] using hk⟩
  · by_cases hne : rx = tx
    · simp [inserted, hne] at hrx
    · exact h.unheard rx (by simpa [inserted, hne] using hrx)
  · by_cases hne : rx = tx
    · subst hne
      simp only [inserted, Function.update_self, Option.some.injEq] at hk
      subst hk
      rw [received_inserted, h.unheard rx hsince]
      exact ⟨Nat.le_refl _, List.nil_prefix⟩
    · exact h.stream rx k (by simpa [inserted, hne] using hk)
  · obtain ⟨hs, hf⟩ := h.unallocated rx hrx
    have hne : rx ≠ tx := by
      rintro rfl
      rw [hf] at hfresh
      cases hfresh
    exact ⟨by simpa [inserted, hne] using hs, by simpa [inserted, hne] using hf⟩
  · by_cases hne : rx = tx
    · simp [inserted, hne] at hj
    · simp only [inserted, Function.update_of_ne hne] at hj ⊢
      exact h.fresh rx j hj

theorem full_insert {s : Sys Tid} (h : Sound s) (hfull : Full s) {clientId tx : Nat}
    (hfresh : s.hist.fresh tx = some i) :
    Full (inserted s clientId tx) := by
  intro e he k hk hl
  by_cases hne : e.2 = tx
  · simp only [inserted, hne, Function.update_self, Option.some.injEq] at hk
    subst hk
    rw [received_inserted, hne, h.unheard tx (h.fresh tx i hfresh)]
    exact List.drop_length.symm
  · cases BTreeMap.mem_insertEntry he with
    | inl hnew => exact absurd (by rw [hnew]) hne
    | inr hold => exact hfull e hold k (by simpa [inserted, hne] using hk) hl

/-- The hub without a client. -/
def erased (s : Sys Tid) (clientId : Nat) : Sys Tid :=
  ⟨{ s.hub with clients := s.hub.clients.erase clientId }, s.hist⟩

theorem entries_erased (s : Sys Tid) (clientId : Nat) :
    entries (erased s clientId) = (entries s).filter fun e => decide (e.1 ≠ clientId) := rfl

theorem Sound.erase {s : Sys Tid} (h : Sound s) (clientId : Nat) : Sound (erased s clientId) := by
  have hsub : ∀ e ∈ entries (erased s clientId), e ∈ entries s := by
    intro e he
    rw [entries_erased] at he
    exact List.mem_of_mem_filter he
  exact ⟨fun e he e' he' => h.distinct e (hsub e he) e' (hsub e' he'),
    fun e he => h.registered e (hsub e he), h.unheard, h.stream, h.unallocated, h.fresh⟩

/-- An unregistration: what it owes takes the client with this id away. -/
def Unregisters (clientId : Nat) (v : View) : Prop :=
  v.owes.head?.elim v.members (Duty.settle v.own v.round.refused v.members) =
    v.members.filter fun e => decide (e.1 ≠ clientId)

theorem Mapped.erase {s : Sys Tid} (h : Mapped s) {clientId : Nat}
    (hv : Unregisters clientId (s.hist.view i)) :
    Due (entries (erased s clientId)) (s.hist.view i) := by
  intro e
  rw [hv, entries_erased, List.mem_filter, List.mem_filter, h e]
  rfl

/-- A registration: the thread's own client comes in, in the place of one with its id. -/
theorem Mapped.insert {s : Sys Tid} (h : Mapped s) {clientId tx : Nat} {v : View}
    (hown : v.own = (clientId, tx)) (howes : v.owes.head? = some .register)
    (hmembers : v.members = s.hist.members) : Due (entries (inserted s clientId tx)) v := by
  intro e
  rw [howes, Option.elim_some, Duty.settle, hown, hmembers, List.mem_cons, List.mem_filter,
    ← h e, decide_eq_true_iff]
  exact BTreeMap.mem_insert

/-- A broadcast that has offered the payload to the clients in `sent`. -/
structure Offering (i : Tid) (payload : WsPayload) (sent rest : List (Nat × Nat))
    (dropped : List Nat) (s : Sys Tid) : Prop where
  owner : s.hub.owner = some i
  split : entries s = sent ++ rest
  before : (s.hist.rounds i).before = entries s
  offered : (s.hist.rounds i).offered = sent.map Prod.snd
  agree : ∀ e ∈ sent, e.1 ∈ dropped ↔ e.2 ∈ (s.hist.rounds i).refused
  known : ∀ clientId ∈ dropped, clientId ∈ sent.map Prod.fst
  refused : ∀ tx ∈ (s.hist.rounds i).refused, tx ∈ sent.map Prod.snd
  heard : ∀ e ∈ sent, e.1 ∉ dropped → Heard s e.2
  awaits : ∀ e ∈ rest, Awaits payload s e.2
  mapped : Mapped s
  owes : s.hist.owes i = [.broadcast]

theorem offering_stable {payload : WsPayload} {sent rest : List (Nat × Nat)} {dropped : List Nat} :
    outline.Stable i (Offering i payload sent rest dropped) := by
  intro s s' h hr _
  have hk := hr.2 h.owner
  have hentries : entries s' = entries s := by rw [entries, hk.clients]; rfl
  refine ⟨hr.1.owner.mpr h.owner, ?_, ?_, ?_, ?_, h.known, ?_, fun e he hd => ?_, fun e he => ?_,
    h.mapped.kept hk, hr.1.owes.trans h.owes⟩
  · rw [hentries]
    exact h.split
  · rw [hr.1.round, hentries]
    exact h.before
  · rw [hr.1.round]
    exact h.offered
  · rw [hr.1.round]
    exact h.agree
  · rw [hr.1.round]
    exact h.refused
  · exact (h.heard e he hd).kept hk
  · exact (h.awaits e he).kept hk

/-- The client in the middle of the map shares neither id nor channel. -/
theorem Sound.apart {s : Sys Tid} (h : Sound s) {sent rest : List (Nat × Nat)} {e : Nat × Nat}
    (hsplit : entries s = sent ++ e :: rest) :
    ∀ e' ∈ sent ++ rest, e'.1 ≠ e.1 ∧ e'.2 ≠ e.2 := by
  have hsorted : (sent ++ e :: rest).Pairwise fun a b => a.1 < b.1 := by
    rw [← hsplit]
    exact s.hub.clients.sorted
  intro e' he'
  have hkey : e'.1 ≠ e.1 := by
    obtain ⟨_, hrest, hcross⟩ := List.pairwise_append.mp hsorted
    cases List.mem_append.mp he' with
    | inl hsent => exact Nat.ne_of_lt (hcross e' hsent e List.mem_cons_self)
    | inr hmem => exact Nat.ne_of_gt ((List.pairwise_cons.mp hrest).1 e' hmem)
  refine ⟨hkey, fun htx => hkey ?_⟩
  have hin : e' ∈ entries s := by
    rw [hsplit]
    cases List.mem_append.mp he' with
    | inl hsent => exact List.mem_append_left _ hsent
    | inr hmem => exact List.mem_append_right _ (List.mem_cons_of_mem e hmem)
  rw [h.distinct e' hin e (by rw [hsplit]; simp) htx]

/-- A client that has not been offered the payload is not among those to drop. -/
theorem Offering.next_apart {payload : WsPayload} {sent rest : List (Nat × Nat)}
    {e : Nat × Nat} {dropped : List Nat} {s : Sys Tid}
    (h : Offering i payload sent (e :: rest) dropped s)
    (hapart : ∀ e' ∈ sent ++ rest, e'.1 ≠ e.1 ∧ e'.2 ≠ e.2) :
    e.1 ∉ dropped ∧ e.2 ∉ (s.hist.rounds i).refused := by
  constructor
  · intro hmem
    obtain ⟨e', he', heq⟩ := List.mem_map.mp (h.known e.1 hmem)
    exact (hapart e' (List.mem_append_left _ he')).1 heq
  · intro hmem
    obtain ⟨e', he', heq⟩ := List.mem_map.mp (h.refused e.2 hmem)
    exact (hapart e' (List.mem_append_left _ he')).2 heq

/-- A broadcast that has removed the clients in `gone`. -/
structure Dropping (i : Tid) (dropped gone : List Nat) (s : Sys Tid) : Prop where
  owner : s.hub.owner = some i
  offered : (s.hist.rounds i).offered = (s.hist.rounds i).before.map Prod.snd
  agree : ∀ e ∈ (s.hist.rounds i).before, e.1 ∈ dropped ↔ e.2 ∈ (s.hist.rounds i).refused
  left : entries s = (s.hist.rounds i).before.filter fun e => decide (e.1 ∉ gone)
  heard : ∀ e ∈ entries s, e.1 ∉ dropped → Heard s e.2
  mapped : ∀ e, e ∈ (s.hist.rounds i).before ↔ e ∈ s.hist.members
  owes : s.hist.owes i = [.broadcast]

theorem dropping_stable {dropped gone : List Nat} : outline.Stable i (Dropping i dropped gone) := by
  intro s s' h hr _
  have hk := hr.2 h.owner
  have hentries : entries s' = entries s := by rw [entries, hk.clients]; rfl
  refine ⟨hr.1.owner.mpr h.owner, ?_, ?_, ?_, fun e he hd => ?_, ?_, hr.1.owes.trans h.owes⟩
  · rw [hr.1.round]
    exact h.offered
  · rw [hr.1.round]
    exact h.agree
  · rw [hr.1.round, hentries]
    exact h.left
  · rw [hentries] at he
    exact (h.heard e he hd).kept hk
  · rw [hr.1.round, hk.members]
    exact h.mapped

theorem Offering.dropping {payload : WsPayload} {sent : List (Nat × Nat)} {dropped : List Nat}
    {s : Sys Tid} (h : Offering i payload sent [] dropped s) : Dropping i dropped [] s := by
  have hsent : entries s = sent := by simpa using h.split
  have hbefore : (s.hist.rounds i).before = sent := h.before.trans hsent
  refine ⟨h.owner, by rw [hbefore]; exact h.offered, by rw [hbefore]; exact h.agree, ?_, ?_, ?_,
    h.owes⟩
  · simp [hbefore, hsent]
  · rw [hsent]
    exact h.heard
  · rw [h.before]
    exact h.mapped

theorem Dropping.erase {dropped gone : List Nat} {clientId : Nat} {s : Sys Tid}
    (h : Dropping i dropped gone s) :
    Dropping i dropped (gone ++ [clientId]) (erased s clientId) := by
  refine ⟨h.owner, h.offered, h.agree, ?_, fun e he hd => ?_, h.mapped, h.owes⟩
  · rw [entries_erased, h.left, List.filter_filter]
    apply List.filter_congr
    intro e _
    simp only [List.mem_append, List.mem_singleton, not_or, ne_eq, Bool.decide_and]
    rw [Bool.and_comm]
  · rw [entries_erased] at he
    exact h.heard e (List.mem_of_mem_filter he) hd

/-- What is left of the clients when the mutex is given back. -/
def Settled (clients : List (Nat × Nat)) (v : View) : Prop :=
  v.round.offered = v.round.before.map Prod.snd ∧ clients = v.round.kept ∧
    Due clients v ∧ v.owes = [.broadcast]

theorem Dropping.settled {dropped : List Nat} {s : Sys Tid} (h : Dropping i dropped dropped s) :
    Locked i Settled s := by
  have hkept : entries s = (s.hist.rounds i).kept := by
    rw [h.left, Round.kept]
    apply List.filter_congr
    intro e he
    simp only [h.agree e he]
  refine ⟨h.owner, fun e he => h.heard e he ?_, h.offered, hkept, fun e => ?_, h.owes⟩
  · rw [h.left] at he
    simpa using (List.mem_filter.mp he).2
  · simp only [Hist.view, h.owes, List.head?_cons, Option.elim_some, Duty.settle, hkept,
      Round.kept, List.mem_filter, h.mapped e]

end

section
variable {Tid : Type} [DecidableEq Tid] {i : Tid}

/-- The hub after an offer. -/
def offeredTo (i : Tid) (s : Sys Tid) (tx : Nat) (payload : WsPayload) : Sys Tid :=
  ⟨s.hub.setChannel tx ((s.hub.channels tx).trySend payload).2,
    { s.hist with
      rounds := Function.update s.hist.rounds i
        ((s.hist.rounds i).offer tx (s.hub.channels tx).refuses) }⟩

theorem offeredTo_of_refuses {s : Sys Tid} {tx : Nat} {payload : WsPayload}
    (h : (s.hub.channels tx).refuses = true) :
    offeredTo i s tx payload =
      ⟨s.hub, { s.hist with
        rounds := Function.update s.hist.rounds i ((s.hist.rounds i).offer tx true) }⟩ := by
  simp [offeredTo, Channel.trySend_of_refuses h, HubState.setChannel, h]

theorem received_offeredTo {s : Sys Tid} {tx : Nat} (payload : WsPayload)
    (h : (s.hub.channels tx).refuses = false) :
    received (offeredTo i s tx payload) tx = received s tx ++ [payload] ∧
      listening s tx = true := by
  obtain ⟨_, hqueue, _, hreceiver⟩ := Channel.trySend_of_accepts (a := payload) h
  exact ⟨by simp [received, offeredTo, HubState.setChannel, hqueue], hreceiver⟩

theorem stream_offeredTo (s : Sys Tid) {tx rx : Nat} (payload : WsPayload) (h : rx ≠ tx) :
    received (offeredTo i s tx payload) rx = received s rx ∧
      listening (offeredTo i s tx payload) rx = listening s rx := by
  simp [received, listening, offeredTo, HubState.setChannel, h]

theorem Heard.offeredTo {s : Sys Tid} {tx rx : Nat} {payload : WsPayload} (h : Heard s rx)
    (hne : rx ≠ tx) : Heard (offeredTo i s tx payload) rx := by
  obtain ⟨hr, hl⟩ := stream_offeredTo (i := i) s payload hne
  intro k hk hlisten
  rw [hr]
  exact h k hk (hl ▸ hlisten)

theorem Awaits.offeredTo {s : Sys Tid} {tx rx : Nat} {payload : WsPayload}
    (h : Awaits payload s rx) (hne : rx ≠ tx) :
    Awaits payload (offeredTo i s tx payload) rx := by
  obtain ⟨hr, hl⟩ := stream_offeredTo (i := i) s payload hne
  intro k hk hlisten
  rw [hr]
  exact h k hk (hl ▸ hlisten)

theorem Sound.offeredTo {s : Sys Tid} (h : Sound s) {e : Nat × Nat} (he : e ∈ entries s)
    {payload : WsPayload} (hawaits : Awaits payload s e.2) :
    Sound (offeredTo i s e.2 payload) := by
  cases hrefuses : (s.hub.channels e.2).refuses with
  | true =>
      rw [offeredTo_of_refuses hrefuses]
      exact h.of_guarded rfl
  | false =>
      obtain ⟨hsent, hl⟩ := received_offeredTo (i := i) payload hrefuses
      obtain ⟨k₀, hk₀⟩ := h.registered e he
      refine ⟨h.distinct, h.registered, fun rx hrx => ?_, fun rx k hk => ?_, h.unallocated,
        h.fresh⟩
      · have hne : rx ≠ e.2 := by
          rintro rfl
          have hnone : s.hist.since e.2 = none := hrx
          rw [hk₀] at hnone
          cases hnone
        rw [(stream_offeredTo s payload hne).1]
        exact h.unheard rx hrx
      · obtain ⟨hle, hp⟩ := h.stream rx k hk
        refine ⟨hle, ?_⟩
        by_cases hne : rx = e.2
        · subst hne
          rw [hsent, hawaits k hk hl]
          exact List.prefix_rfl
        · rw [(stream_offeredTo s payload hne).1]
          exact hp

theorem offeredTo_round (s : Sys Tid) (tx : Nat) (payload : WsPayload) :
    (offeredTo i s tx payload).hist.rounds i =
      (s.hist.rounds i).offer tx (s.hub.channels tx).refuses := by
  simp [offeredTo]

section
variable {payload : WsPayload} {sent rest : List (Nat × Nat)} {e : Nat × Nat}
variable {dropped : List Nat} {s : Sys Tid}

/-- The clients that are still to be offered the payload are not touched. -/
theorem Offering.awaits_rest (h : Offering i payload sent (e :: rest) dropped s)
    (hapart : ∀ e' ∈ sent ++ rest, e'.1 ≠ e.1 ∧ e'.2 ≠ e.2) :
    ∀ e' ∈ rest, Awaits payload (offeredTo i s e.2 payload) e'.2 := by
  intro e' he'
  exact (h.awaits e' (List.mem_cons_of_mem e he')).offeredTo
    (hapart e' (List.mem_append_right _ he')).2

/-- A refused offer puts the client among those to drop. -/
theorem Offering.refuse (h : Offering i payload sent (e :: rest) dropped s)
    (hapart : ∀ e' ∈ sent ++ rest, e'.1 ≠ e.1 ∧ e'.2 ≠ e.2)
    (hrefuses : (s.hub.channels e.2).refuses = true) :
    Offering i payload (sent ++ [e]) rest (dropped ++ [e.1]) (offeredTo i s e.2 payload) := by
  have hround : (offeredTo i s e.2 payload).hist.rounds i = (s.hist.rounds i).offer e.2 true := by
    rw [offeredTo_round, hrefuses]
  have hsent : ∀ e' ∈ sent, e'.1 ≠ e.1 ∧ e'.2 ≠ e.2 :=
    fun e' he' => hapart e' (List.mem_append_left _ he')
  refine ⟨h.owner, by rw [← List.append_cons]; exact h.split, ?_, ?_, ?_, ?_, ?_, ?_,
    h.awaits_rest hapart, h.mapped, h.owes⟩
  · rw [hround]
    exact h.before
  · simp [hround, Round.offer, h.offered]
  · intro e' he'
    simp only [hround, Round.offer, if_true, List.mem_append, List.mem_singleton] at he' ⊢
    cases he' with
    | inl hmem =>
        simp only [(hsent e' hmem).1, (hsent e' hmem).2, or_false]
        exact h.agree e' hmem
    | inr heq => simp [heq]
  · intro clientId hmem
    rw [List.map_append]
    cases List.mem_append.mp hmem with
    | inl hmem => exact List.mem_append_left _ (h.known clientId hmem)
    | inr heq => exact List.mem_append_right _ (by simpa using heq)
  · intro tx hmem
    simp only [hround, Round.offer, if_true, List.mem_append] at hmem
    rw [List.map_append]
    cases hmem with
    | inl hmem => exact List.mem_append_left _ (h.refused tx hmem)
    | inr heq => exact List.mem_append_right _ (by simpa using heq)
  · intro e' he' hd
    simp only [List.mem_append, List.mem_singleton, not_or] at he' hd
    cases he' with
    | inl hmem => exact (h.heard e' hmem hd.1).offeredTo (hsent e' hmem).2
    | inr heq => exact absurd (by rw [heq]) hd.2

/-- An accepted offer completes the stream of the client. -/
theorem Offering.accept (h : Offering i payload sent (e :: rest) dropped s)
    (hapart : ∀ e' ∈ sent ++ rest, e'.1 ≠ e.1 ∧ e'.2 ≠ e.2)
    (hrefuses : (s.hub.channels e.2).refuses = false) :
    Offering i payload (sent ++ [e]) rest dropped (offeredTo i s e.2 payload) := by
  have hround : (offeredTo i s e.2 payload).hist.rounds i = (s.hist.rounds i).offer e.2 false := by
    rw [offeredTo_round, hrefuses]
  have hnew := h.next_apart hapart
  refine ⟨h.owner, by rw [← List.append_cons]; exact h.split, ?_, ?_, ?_, ?_, ?_, ?_,
    h.awaits_rest hapart, h.mapped, h.owes⟩
  · rw [hround]
    exact h.before
  · simp [hround, Round.offer, h.offered]
  · intro e' he'
    rw [hround]
    cases List.mem_append.mp he' with
    | inl hmem => exact h.agree e' hmem
    | inr heq =>
        rw [List.mem_singleton.mp heq]
        exact ⟨fun hd => absurd hd hnew.1, fun hr => absurd hr hnew.2⟩
  · intro clientId hmem
    rw [List.map_append]
    exact List.mem_append_left _ (h.known clientId hmem)
  · intro tx hmem
    rw [hround] at hmem
    rw [List.map_append]
    exact List.mem_append_left _ (h.refused tx hmem)
  · intro e' he' hd
    cases List.mem_append.mp he' with
    | inl hmem =>
        exact (h.heard e' hmem hd).offeredTo (hapart e' (List.mem_append_left _ hmem)).2
    | inr heq =>
        obtain ⟨hreceived, hl⟩ := received_offeredTo (i := i) payload hrefuses
        rw [List.mem_singleton.mp heq]
        intro k hk _
        rw [hreceived]
        exact h.awaits e List.mem_cons_self k hk hl

end

end
end ConductorRs.Flashblocks.Streams
