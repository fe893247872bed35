import ConductorRs.Metatheory.Control
import ConductorRs.Metatheory.RpcExecution

/-!
The requests of the server, judged in an arbitrary logic.

Besides three entry points of the conductor a request performs only reads, calls
that pass through to consensus and the operations of the server. `Serving` asks for
triples for exactly these pieces; every payload then keeps the assertion.
-/
namespace ConductorRs.Rpc
open Concurrency

/-- What a request performs on the conductor outside its entry points. -/
def Asked : Conductor.Op → Prop
  | .load flag => flag = .paused ∨ flag = .stopped
  | .cloneHealthy => True
  | .consensus .leader | .consensus .membership => True
  | .consensus .transferLeader | .consensus (.transferLeaderTo _ _) => True
  | _ => False

structure Serving {State : Type} (L : Logic Server State) (A : State → Prop) : Prop where
  server : ∀ o, L.Holds A (server o) fun _ => A
  asked : ∀ o, Asked o → L.Holds A (conductor (Conductor.op o)) fun _ => A
  pause : L.Holds A (conductor Conductor.pause) fun _ => A
  resume : L.Holds A (conductor Conductor.resume) fun _ => A
  stop : L.Holds A (conductor Conductor.stop) fun _ => A

namespace Serving
variable {State : Type} {L : Logic Server State} {A : State → Prop} (S : Serving L A)

theorem keep_done {α : Type} (a : α) : L.Holds A (.done a) fun _ => A :=
  L.done fun _ _ h => h

/-- A step that cannot fail, followed by a computation on its result. -/
theorem keep_map {α β : Type} {t : Task Server α} (ht : L.Holds A t fun _ => A) (f : α → β) :
    L.Holds A (t >>= fun a => pure (f a)) fun _ => A :=
  L.bind ht fun a => keep_done (f a)

theorem keep_check {α : Type} (r : Except RpcError α) {f : α → Handler Value}
    (hf : ∀ a, L.Holds A (f a).run fun _ => A) :
    L.Holds A (Handler.check r >>= f).run fun _ => A :=
  L.bindPure (fun a _ => hf a) fun _ _ _ h => h

theorem keep_query (params : Value) {t : Task Server Value} (ht : L.Holds A t fun _ => A) :
    L.Holds A (query params t).run fun _ => A :=
  keep_check _ fun _ => L.lift ht fun _ _ h => h

theorem keep_attempt {t : Task Server Conductor.Outcome} (ht : L.Holds A t fun _ => A) :
    L.Holds A (Handler.attempt t).run fun _ => A :=
  keep_map ht _

theorem keep_command (params : Value) {t : Task Server Conductor.Outcome}
    (ht : L.Holds A t fun _ => A) : L.Holds A (command params t).run fun _ => A :=
  keep_check _ fun _ => keep_attempt ht

theorem keep_passOn {t : Task Server (Except ConsensusError Unit)}
    (ht : L.Holds A t fun _ => A) : L.Holds A (Handler.attempt (passOn t)).run fun _ => A :=
  keep_attempt (keep_map ht _)

include S

theorem leader_holds : L.Holds A leader fun _ => A := by
  refine L.bind (S.server .loadLeaderOverride) fun overridden => ?_
  cases overridden with
  | true => exact keep_done true
  | false => exact S.asked (.consensus .leader) trivial

theorem leaderWithId_holds : L.Holds A leaderWithId fun _ => A := by
  refine L.bind (S.server .loadLeaderOverride) fun overridden => ?_
  cases overridden with
  | true => exact keep_done _
  | false => exact S.server .leaderWithId

theorem active_holds : L.Holds A (conductor Conductor.active) fun _ => A := by
  refine L.bind (S.asked (.load .paused) (.inl rfl)) fun paused => ?_
  cases paused with
  | true => exact keep_done false
  | false => exact L.bind (S.asked (.load .stopped) (.inr rfl)) fun stopped => keep_done _

theorem transferLeader_holds : L.Holds A (conductor Conductor.transferLeader) fun _ => A := by
  exact L.bind (S.asked (.consensus .transferLeader) trivial) fun r => keep_done _

theorem proxyToBackend_holds (proxy : Bool) (target : ProxyTarget) (method : String)
    (params : Value) : L.Holds A (proxyToBackend proxy target method params).run fun _ => A := by
  unfold proxyToBackend
  cases proxy with
  | false => exact keep_done _
  | true => exact keep_map (S.server (.backend target method (normalizeProxyParams params))) _

theorem proxyToLeader_holds (proxy : Bool) (target : ProxyTarget) (method : String)
    (params : Value) : L.Holds A (proxyToLeader proxy target method params).run fun _ => A := by
  unfold proxyToLeader
  refine L.bindExcept (S.proxyToBackend_holds proxy target method params) (fun response => ?_)
    fun _ _ _ h => h
  refine L.bindLift S.leader_holds fun isLeader => ?_
  cases isLeader with
  | true => exact keep_done _
  | false => exact keep_done _

theorem clusterMembership_holds : L.Holds A clusterMembership.run fun _ => A :=
  keep_map (S.asked (.consensus .membership) trivial) _

/-- Every method, known or not. -/
theorem dispatch_holds (proxy : Bool) (request : Request) :
    L.Holds A (dispatch proxy request).run fun _ => A := by
  unfold dispatch
  by_cases hversion : request.jsonrpc ≠ some "2.0"
  · rw [if_pos hversion]
    exact keep_done (Except.error (invalidRequest "jsonrpc must be 2.0"))
  · rw [if_neg hversion]
    by_cases hproxy : (!proxy && isProxyMethod request.method) = true
    · rw [if_pos hproxy]
      exact keep_done (Except.error methodNotFound)
    · rw [if_neg hproxy]
      split
      · exact keep_query _ (keep_done _)
      · exact keep_query _ (keep_done _)
      · exact keep_query _ (keep_map S.leader_holds _)
      · exact keep_query _ (keep_map S.leaderWithId_holds _)
      · exact keep_query _ (keep_map (S.server .loadLeaderOverride) _)
      · refine keep_check _ fun overrideLeader => ?_
        exact L.bindLift (S.server (.storeLeaderOverride overrideLeader)) fun _ => keep_done _
      · exact keep_query _ (keep_map (S.asked (.load .paused) (.inl rfl)) _)
      · exact keep_command _ S.pause
      · exact keep_command _ S.resume
      · exact keep_query _ (keep_map (S.asked (.load .stopped) (.inr rfl)) _)
      · exact keep_command _ S.stop
      · exact keep_query _ (keep_map S.active_holds _)
      · exact keep_query _ (keep_map (S.asked .cloneHealthy trivial) _)
      · refine keep_check _ fun _ => ?_
        exact L.bindExcept S.clusterMembership_holds (fun _ => keep_done _) fun _ _ _ h => h
      · exact keep_command _ S.transferLeader_holds
      · refine keep_check _ fun target => ?_
        exact keep_passOn (S.asked (.consensus (.transferLeaderTo target.1 target.2)) trivial)
      · exact keep_check _ fun _ => keep_passOn (S.server _)
      · exact keep_check _ fun _ => keep_passOn (S.server _)
      · exact keep_check _ fun _ => keep_passOn (S.server _)
      · exact keep_check _ fun _ => keep_passOn (S.server _)
      · exact keep_check _ fun _ => keep_passOn (S.server _)
      · exact keep_check _ fun _ => S.proxyToLeader_holds proxy _ _ _
      · exact keep_check _ fun _ => S.proxyToBackend_holds proxy _ _ _
      · exact keep_check _ fun _ => S.proxyToLeader_holds proxy _ _ _
      · exact keep_check _ fun _ => S.proxyToLeader_holds proxy _ _ _
      · exact keep_check _ fun _ => S.proxyToLeader_holds proxy _ _ _
      · exact keep_check _ fun _ => S.proxyToLeader_holds proxy _ _ _
      · exact keep_done _

theorem handleRequestValue_holds (proxy : Bool) (value : Value) :
    L.Holds A (handleRequestValue proxy value) fun _ => A := by
  unfold handleRequestValue
  split
  · exact keep_done _
  · next request _ =>
      refine L.bind (S.dispatch_holds proxy request) fun response => ?_
      split
      · exact keep_map (S.server (.recordNotification request.method)) fun _ => none
      · exact L.bind (S.server _) fun _ => keep_done _

/-- A payload is its requests, one after the other. -/
theorem handlePayload_holds (proxy : Bool) (payload : Value) :
    L.Holds A (handlePayload proxy payload) fun _ => A := by
  rw [handlePayload_eq]
  refine L.bind (R := fun _ => A) ?_ fun outs => keep_done _
  induction requestsOf payload with
  | nil => exact keep_done _
  | cons request requests ih =>
      refine L.bind (S.handleRequestValue_holds proxy request) fun out => ?_
      exact L.bind ih fun outs => keep_done _

end Serving
end ConductorRs.Rpc
