import ConductorRs.Collections.FirstMax
import ConductorRs.Concurrency.Answers
import ConductorRs.Core.LeaderTransfer

/-!
The target of a default transfer is the most caught-up peer.

The loop keeps the first peer with the greatest matched index among the servers
it has passed. It compares the indexes after the matched ones, so a peer without
progress never wins over no peer at all.
-/
namespace ConductorRs.RaftConsensus
open Concurrency Collections

variable {localId : String} {matchedIndexes : MatchedIndexes}

/-- The matched index of a server; the leader may not know one. -/
def matchedIndex (matchedIndexes : MatchedIndexes) (server : ServerInfo) : Option Nat :=
  (matchedIndexes.get? server.id).join

/-- A voter other than the local one, with a known matched index. -/
def isCandidate (localId : String) (matchedIndexes : MatchedIndexes) (server : ServerInfo) :
    Bool :=
  decide (server.suffrage = .voter) && decide (server.id ≠ localId) &&
    (matchedIndex matchedIndexes server).isSome

/-- The index the loop compares. -/
def nextIndex (matchedIndexes : MatchedIndexes) (server : ServerInfo) : Nat :=
  ((matchedIndex matchedIndexes server).map saturatingSucc).getD 0

theorem saturatingSucc_pos (index : Nat) : 0 < saturatingSucc index := by
  simp only [saturatingSucc, UInt64.size]
  omega

theorem saturatingSucc_of_lt {index : Nat} (h : index < UInt64.size - 1) :
    saturatingSucc index = index + 1 := by
  simp only [saturatingSucc, UInt64.size] at h ⊢
  omega

theorem nextIndex_pos {server : ServerInfo}
    (h : isCandidate localId matchedIndexes server = true) :
    0 < nextIndex matchedIndexes server := by
  simp only [isCandidate, Bool.and_eq_true] at h
  obtain ⟨index, hindex⟩ := Option.isSome_iff_exists.mp h.2
  simp [nextIndex, hindex, saturatingSucc_pos]

/-- A server that is no candidate is passed over. -/
theorem consider_of_not_candidate {search : TargetSearch} {server : ServerInfo}
    (h : isCandidate localId matchedIndexes server = false) :
    search.consider localId matchedIndexes server = search := by
  simp only [TargetSearch.consider]
  by_cases hskip : server.id = localId ∨ server.suffrage ≠ .voter
  · rw [if_pos hskip]
  · rw [if_neg hskip]
    obtain ⟨hid, hvoter⟩ := not_or.mp hskip
    simp only [isCandidate, not_not.mp hvoter, ne_eq, hid, not_false_eq_true, decide_true,
      Bool.and_true, Bool.true_and, matchedIndex] at h
    cases hget : matchedIndexes.get? server.id with
    | none => rfl
    | some index =>
        cases index with
        | none => simp
        | some index => simp [hget] at h

theorem consider_of_candidate {search : TargetSearch} {server : ServerInfo}
    (h : isCandidate localId matchedIndexes server = true) :
    search.consider localId matchedIndexes server =
      if search.current < nextIndex matchedIndexes server then
        ⟨some server, nextIndex matchedIndexes server⟩
      else search := by
  simp only [isCandidate, Bool.and_eq_true, decide_eq_true_eq] at h
  obtain ⟨⟨hvoter, hid⟩, hsome⟩ := h
  simp only [TargetSearch.consider, if_neg (not_or.mpr ⟨hid, not_not.mpr hvoter⟩)]
  obtain ⟨index, hindex⟩ := Option.isSome_iff_exists.mp hsome
  simp only [matchedIndex] at hindex
  have hget : matchedIndexes.get? server.id = some (some index) :=
    Option.join_eq_some_iff.mp hindex
  simp [hget, nextIndex, matchedIndex]

/-- What the loop knows after the servers it has passed. -/
structure SearchInv (localId : String) (matchedIndexes : MatchedIndexes)
    (servers : List ServerInfo) (search : TargetSearch) : Prop where
  pick : FirstMax (nextIndex matchedIndexes)
    (servers.filter (isCandidate localId matchedIndexes)) search.pick
  current : search.current = (search.pick.map (nextIndex matchedIndexes)).getD 0

theorem SearchInv.consider {servers : List ServerInfo} {search : TargetSearch}
    (h : SearchInv localId matchedIndexes servers search) (server : ServerInfo) :
    SearchInv localId matchedIndexes (servers ++ [server])
      (search.consider localId matchedIndexes server) := by
  obtain ⟨hpick, hcurrent⟩ := h
  cases hcand : isCandidate localId matchedIndexes server with
  | false =>
      rw [consider_of_not_candidate hcand]
      refine ⟨?_, hcurrent⟩
      simpa [List.filter_append, hcand] using hpick
  | true =>
      have hfilter : (servers ++ [server]).filter (isCandidate localId matchedIndexes) =
          servers.filter (isCandidate localId matchedIndexes) ++ [server] := by
        simp [List.filter_append, hcand]
      rw [consider_of_candidate hcand]
      by_cases hlt : search.current < nextIndex matchedIndexes server
      · rw [if_pos hlt]
        refine ⟨?_, rfl⟩
        rw [hfilter]
        apply hpick.replace
        intro best hbest
        rw [hcurrent, hbest] at hlt
        exact hlt
      · rw [if_neg hlt]
        refine ⟨?_, hcurrent⟩
        rw [hfilter]
        -- a first candidate always wins, so there is a pick already
        cases hbest : search.pick with
        | none =>
            rw [hbest] at hcurrent
            rw [hcurrent] at hlt
            exact absurd (nextIndex_pos hcand) hlt
        | some best =>
            rw [hbest] at hpick hcurrent
            apply hpick.keep
            rw [← show search.current = nextIndex matchedIndexes best from hcurrent]
            exact Nat.le_of_not_lt hlt

theorem search_inv (localId : String) (matchedIndexes : MatchedIndexes)
    (servers : List ServerInfo) :
    SearchInv localId matchedIndexes servers
      (servers.foldl (TargetSearch.consider localId matchedIndexes) .start) := by
  induction servers using List.reverseRecOn with
  | nil => exact ⟨rfl, rfl⟩
  | append_singleton servers server ih =>
      rw [List.foldl_append]
      exact ih.consider server

/-- The index after a matched one orders the candidates as the matched one does. -/
theorem nextIndex_eq {server : ServerInfo} {index : Nat}
    (hbound : ∀ id index, matchedIndexes.get? id = some (some index) → index < UInt64.size - 1)
    (h : matchedIndex matchedIndexes server = some index) :
    nextIndex matchedIndexes server = index + 1 := by
  have hlt := hbound server.id index (Option.join_eq_some_iff.mp h)
  simp [nextIndex, h, saturatingSucc_of_lt hlt]

theorem defaultTransferTarget_ok {membership : ClusterMembership} {target : ServerInfo}
    (h : defaultTransferTarget membership localId matchedIndexes = .ok target) :
    FirstMax (nextIndex matchedIndexes)
      (membership.servers.filter (isCandidate localId matchedIndexes)) (some target) := by
  have hinv := (search_inv localId matchedIndexes membership.servers).pick
  simp only [defaultTransferTarget] at h
  split at h
  · next server hserver =>
      cases h
      rw [hserver] at hinv
      exact hinv
  · cases h

theorem defaultTransferTarget_error {membership : ClusterMembership} {err : ConsensusError}
    (h : defaultTransferTarget membership localId matchedIndexes = .error err) :
    membership.servers.filter (isCandidate localId matchedIndexes) = [] := by
  have hinv := (search_inv localId matchedIndexes membership.servers).pick
  simp only [defaultTransferTarget] at h
  split at h
  · cases h
  · next hnone =>
      rw [hnone] at hinv
      exact hinv

/-- The first maximum is the first element with its key. -/
theorem find_firstMax {target : ServerInfo} {servers : List ServerInfo}
    (h : FirstMax (nextIndex matchedIndexes)
      (servers.filter (isCandidate localId matchedIndexes)) (some target)) :
    servers.find? (fun server => isCandidate localId matchedIndexes server &&
      decide (matchedIndex matchedIndexes server = matchedIndex matchedIndexes target)) =
        some target := by
  obtain ⟨before, after, hsplit, hbefore, _⟩ := h
  have hfind := congrArg (List.find? fun server =>
    decide (matchedIndex matchedIndexes server = matchedIndex matchedIndexes target)) hsplit
  simp only [List.find?_filter, Bool.decide_and, Bool.decide_eq_true] at hfind
  rw [hfind, List.find?_append]
  have hnone : before.find? (fun server =>
      decide (matchedIndex matchedIndexes server = matchedIndex matchedIndexes target)) = none := by
    rw [List.find?_eq_none]
    intro server hserver hsame
    have hlt := hbefore server hserver
    simp only [nextIndex, of_decide_eq_true hsame] at hlt
    exact absurd hlt (Nat.lt_irrefl _)
  simp [hnone]

theorem default_target_most_caught_up (membership : ClusterMembership) (localId : String)
    (matchedIndexes : MatchedIndexes)
    (hbound : ∀ id index, matchedIndexes.get? id = some (some index) → index < UInt64.size - 1) :
    ((∃ target, defaultTransferTarget membership localId matchedIndexes = .ok target) ↔
      ∃ server ∈ membership.servers, isCandidate localId matchedIndexes server = true) ∧
    ∀ target, defaultTransferTarget membership localId matchedIndexes = .ok target →
      target ∈ membership.servers ∧ isCandidate localId matchedIndexes target = true ∧
      (∀ server ∈ membership.servers, isCandidate localId matchedIndexes server = true →
        ∀ index ∈ matchedIndex matchedIndexes server,
          ∃ best ∈ matchedIndex matchedIndexes target, index ≤ best) ∧
      membership.servers.find? (fun server => isCandidate localId matchedIndexes server &&
        decide (matchedIndex matchedIndexes server = matchedIndex matchedIndexes target)) =
          some target := by
  refine ⟨⟨?_, ?_⟩, fun target htarget => ?_⟩
  · rintro ⟨target, htarget⟩
    exact ⟨target, List.mem_filter.mp (defaultTransferTarget_ok htarget).mem⟩
  · rintro ⟨server, hserver, hcand⟩
    cases hresult : defaultTransferTarget membership localId matchedIndexes with
    | ok target => exact ⟨target, rfl⟩
    | error err =>
        have hmem := List.mem_filter.mpr ⟨hserver, hcand⟩
        rw [defaultTransferTarget_error hresult] at hmem
        cases hmem
  · have hmax := defaultTransferTarget_ok htarget
    obtain ⟨hmem, hcand⟩ := List.mem_filter.mp hmax.mem
    refine ⟨hmem, hcand, fun server hserver hother index hindex => ?_, find_firstMax hmax⟩
    obtain ⟨best, hbest⟩ : ∃ best, matchedIndex matchedIndexes target = some best := by
      simp only [isCandidate, Bool.and_eq_true] at hcand
      exact Option.isSome_iff_exists.mp hcand.2
    refine ⟨best, hbest, ?_⟩
    have hle := hmax.le (List.mem_filter.mpr ⟨hserver, hother⟩)
    rw [nextIndex_eq hbound hindex, nextIndex_eq hbound hbest] at hle
    exact Nat.le_of_succ_le_succ hle

/-- Two voters are tied, one has no progress, one server is no voter. -/
def tiedCluster : ClusterMembership where
  servers := [⟨"a", "a:1", .voter⟩, ⟨"b", "b:1", .voter⟩, ⟨"c", "c:1", .nonvoter⟩,
    ⟨"d", "d:1", .voter⟩, ⟨"e", "e:1", .voter⟩]
  version := 3

def tiedProgress : MatchedIndexes :=
  ((((BTreeMap.empty.insert "a" (some 9)).insert "b" none).insert "c" (some 8)).insert
    "d" (some 0)).insert "e" (some 0)

theorem tied_target_is_first :
    defaultTransferTarget tiedCluster "a" tiedProgress = .ok ⟨"d", "d:1", .voter⟩ ∧
      tiedCluster.servers.find? (fun server => isCandidate "a" tiedProgress server &&
        decide (matchedIndex tiedProgress server = some 0)) = some ⟨"d", "d:1", .voter⟩ := by
  have hbound : ∀ id index, tiedProgress.get? id = some (some index) →
      index < UInt64.size - 1 := by
    intro id index h
    have hall : ∀ e ∈ tiedProgress.entries, ∀ index ∈ e.2, index < UInt64.size - 1 := by decide
    exact hall _ (BTreeMap.mem_of_get? h) index rfl
  have htarget : defaultTransferTarget tiedCluster "a" tiedProgress =
      .ok ⟨"d", "d:1", .voter⟩ := by rfl
  obtain ⟨_, _, _, hfirst⟩ := (default_target_most_caught_up tiedCluster "a" tiedProgress
    hbound).2 _ htarget
  exact ⟨htarget, hfirst⟩

section
variable {answer : (o : TransferOp) → o.Reply}

theorem find_target {servers : List ServerInfo} {target : ServerInfo}
    (hids : (servers.map ServerInfo.id).Nodup) (h : target ∈ servers) :
    servers.find? (fun server => decide (server.id = target.id)) = some target := by
  induction servers with
  | nil => cases h
  | cons server rest ih =>
      obtain ⟨hfirst, hrest⟩ := List.nodup_cons.mp hids
      rcases List.mem_cons.mp h with rfl | hmem
      · simp
      · have hne : server.id ≠ target.id := by
          intro heq
          exact hfirst (heq ▸ List.mem_map_of_mem hmem)
        rw [List.find?_cons, decide_eq_false hne]
        exact ih hrest hmem

theorem transferLeaderTo_member {target : ServerInfo}
    (hids : ((answer .snapshot).servers.map ServerInfo.id).Nodup)
    (htarget : target ∈ (answer .snapshot).servers) :
    (transferLeaderTo target.id target.addr).result (E := TransferOps) answer =
        (answer (.triggerTransfer target.id)).mapError .raft ∧
      (transferLeaderTo target.id target.addr).trace (E := TransferOps) answer =
        [.snapshot, .triggerTransfer target.id] := by
  have hfind := find_target hids htarget
  constructor
  · refine (Task.result_bind (E := TransferOps) answer (transfer .snapshot) _).trans ?_
    simp only [transfer, Task.call, Task.result, hfind, ne_eq, not_true_eq_false, if_false]
    rfl
  · refine (Task.trace_bind (E := TransferOps) answer (transfer .snapshot) _).trans ?_
    simp only [transfer, Task.call, Task.result, hfind, ne_eq, not_true_eq_false, if_false]
    rfl

/-- A leader asks the raft core for the default target, once, and returns what it
says. -/
theorem transferLeader_asks_target {target : ServerInfo}
    (hids : ((answer .snapshot).servers.map ServerInfo.id).Nodup) (hleader : answer .leader = true)
    (htarget : defaultTransferTarget (answer .snapshot) localId
      ((answer .replication).getD .empty) = .ok target) :
    (transferLeader localId).result (E := TransferOps) answer =
        (answer (.triggerTransfer target.id)).mapError .raft ∧
      (transferLeader localId).trace (E := TransferOps) answer =
        [.leader, .replication, .snapshot, .snapshot, .triggerTransfer target.id] := by
  obtain ⟨hresult, htrace⟩ := transferLeaderTo_member hids
    (List.mem_filter.mp (defaultTransferTarget_ok htarget).mem).1
  constructor
  · refine (Task.result_bind (E := TransferOps) answer (transfer .leader) _).trans ?_
    simp only [transfer, Task.call, Task.result, hleader]
    refine (Task.result_bind (E := TransferOps) answer (transfer .replication) _).trans ?_
    refine (Task.result_bind (E := TransferOps) answer (transfer .snapshot) _).trans ?_
    simp only [transfer, Task.call, Task.result, htarget]
    exact hresult
  · refine (Task.trace_bind (E := TransferOps) answer (transfer .leader) _).trans ?_
    simp only [transfer, Task.call, Task.result, hleader]
    refine congrArg (TransferOp.leader :: ·) ?_
    refine (Task.trace_bind (E := TransferOps) answer (transfer .replication) _).trans ?_
    refine congrArg (TransferOp.replication :: ·) ?_
    refine (Task.trace_bind (E := TransferOps) answer (transfer .snapshot) _).trans ?_
    simp only [transfer, Task.call, Task.result, htarget, htrace]
    rfl

end

end ConductorRs.RaftConsensus
