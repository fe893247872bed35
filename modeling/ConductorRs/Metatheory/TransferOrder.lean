import ConductorRs.Concurrency.Answers
import ConductorRs.Core.ConductorMemory

/-!
The order of a round-robin transfer.

The other voters are tried in the order of their ids, from the local one on and
around. A target stops the search when it takes the leadership over or says that
a transfer is in progress; the default transfer is for the case that none does.
-/
namespace ConductorRs.Conductor
open Concurrency Collections

/-- The other voters in ascending order of their ids, starting after the local
one and wrapping around. -/
structure CyclicOrder (localId : String) (servers order : List ServerInfo) : Prop where
  mem : ∀ server, server ∈ order ↔
    server ∈ servers ∧ server.suffrage = .voter ∧ server.id ≠ localId
  nodup : order.Nodup
  ascending : ∃ above below, order = above ++ below ∧
    above.Pairwise (fun a b => a.id < b.id) ∧ below.Pairwise (fun a b => a.id < b.id) ∧
    (∀ server ∈ above, localId < server.id) ∧ ∀ server ∈ below, server.id < localId

def transferTo (target : ServerInfo) : Op := .consensus (.transferLeaderTo target.id target.addr)

/-- The outcome ends the search. -/
def accepted : Except ConsensusError Unit → Bool
  | .ok _ => true
  | .error err => err.isLeadershipTransferInProgress

def accepts (oracle : Oracle) (target : ServerInfo) : Bool := accepted (oracle (transferTo target))

def isTransfer : Op → Bool
  | .consensus .transferLeader | .consensus (.transferLeaderTo _ _) => true
  | _ => false

/-- A transfer that goes along the given order. -/
structure Follows (oracle : Oracle) (order : List ServerInfo) : Prop where
  alone : order = [] →
    (transferLeaderRoundRobin.trace oracle).filter isTransfer = [] ∧
      transferLeaderRoundRobin.result oracle = .ok ()
  accepted : ∀ tried target rest, order = tried ++ target :: rest →
    (∀ t ∈ tried, accepts oracle t = false) → accepts oracle target = true →
      (transferLeaderRoundRobin.trace oracle).filter isTransfer =
          (tried ++ [target]).map transferTo ∧
        transferLeaderRoundRobin.result oracle = .ok ()
  refused : order ≠ [] → (∀ t ∈ order, accepts oracle t = false) →
    (transferLeaderRoundRobin.trace oracle).filter isTransfer =
        order.map transferTo ++ [.consensus .transferLeader] ∧
      transferLeaderRoundRobin.result oracle =
        (oracle (.consensus .transferLeader)).mapError .consensus

section
variable {α : Type}

theorem filterMap_range' (l : List α) (first n : Nat) :
    (List.range' first n).filterMap (fun i => l[i]?) = (l.drop first).take n := by
  induction n generalizing first with
  | zero => simp
  | succ n ih =>
      rw [List.range'_succ, List.filterMap_cons, ih]
      cases hfirst : l[first]? with
      | none =>
          have hle := List.getElem?_eq_none_iff.mp hfirst
          simp [List.drop_eq_nil_of_le hle, List.drop_eq_nil_of_le (Nat.le_succ_of_le hle)]
      | some a =>
          obtain ⟨hlt, rfl⟩ := List.getElem?_eq_some_iff.mp hfirst
          rw [List.drop_eq_getElem_cons hlt, List.take_succ_cons]

end

/-- The offsets up to the end of the list, then those that wrap around. -/
theorem rotation_eq {voters : List ServerInfo} {current : Nat} (h : current < voters.length) :
    rotation voters current = voters.drop (current + 1) ++ voters.take current := by
  have hoffsets : List.range' 1 (voters.length - 1) =
      List.range' 1 (voters.length - 1 - current) ++
        List.range' (voters.length - current) current := by
    have hstart : voters.length - current = 1 + (voters.length - 1 - current) := by omega
    rw [hstart, List.range'_append_1]
    congr 1
    omega
  have hafter : (List.range' 1 (voters.length - 1 - current)).filterMap
      (fun offset => voters[(current + offset) % voters.length]?) = voters.drop (current + 1) := by
    have hplain : (List.range' 1 (voters.length - 1 - current)).filterMap
        (fun offset => voters[(current + offset) % voters.length]?) =
          ((List.range' 1 (voters.length - 1 - current)).map (current + ·)).filterMap
            fun i => voters[i]? := by
      rw [List.filterMap_map]
      apply List.filterMap_congr
      intro offset hoffset
      obtain ⟨hlo, hhi⟩ := List.mem_range'_1.mp hoffset
      simp only [Function.comp_apply,
        Nat.mod_eq_of_lt (show current + offset < voters.length by omega)]
    rw [hplain, List.map_add_range', filterMap_range']
    exact List.take_of_length_le (by rw [List.length_drop]; omega)
  have hbefore : (List.range' (voters.length - current) current).filterMap
      (fun offset => voters[(current + offset) % voters.length]?) = voters.take current := by
    have hplain : (List.range' (voters.length - current) current).filterMap
        (fun offset => voters[(current + offset) % voters.length]?) =
          (List.range' 0 current).filterMap fun i => voters[i]? := by
      have hshift : List.range' (voters.length - current) current =
          (List.range' 0 current).map (voters.length - current + ·) := by
        rw [List.map_add_range', Nat.add_zero]
      rw [hshift, List.filterMap_map]
      apply List.filterMap_congr
      intro i hi
      obtain ⟨_, hhi⟩ := List.mem_range'_1.mp hi
      have hwrap : current + (voters.length - current + i) = i + voters.length := by omega
      simp only [Function.comp_apply, hwrap, Nat.add_mod_right,
        Nat.mod_eq_of_lt (show i < voters.length by omega)]
    rw [hplain, filterMap_range', List.drop_zero]
  rw [rotation, hoffsets, List.filterMap_append, hafter, hbefore]

theorem sorted_ids (servers : List ServerInfo) :
    (servers.mergeSort idLe).Pairwise fun a b => a.id ≤ b.id := by
  have hsorted : (servers.mergeSort idLe).Pairwise fun a b => idLe a b = true := by
    apply List.pairwise_mergeSort
    · intro a b c hab hbc
      simp only [idLe, decide_eq_true_eq] at hab hbc ⊢
      exact le_trans hab hbc
    · intro a b
      simp only [idLe, Bool.or_eq_true, decide_eq_true_eq]
      exact le_total a.id b.id
  exact hsorted.imp fun h => of_decide_eq_true h

theorem strictly_sorted_ids (servers : List ServerInfo)
    (hids : (servers.map ServerInfo.id).Nodup) :
    (servers.mergeSort idLe).Pairwise fun a b => a.id < b.id := by
  have hdistinct : (servers.mergeSort idLe).Pairwise fun a b => a.id ≠ b.id := by
    have hnodup := ((List.mergeSort_perm servers idLe).map ServerInfo.id).nodup_iff.mpr hids
    exact List.pairwise_map.mp hnodup
  exact ((sorted_ids servers).and hdistinct).imp fun h => lt_of_le_of_ne h.1 h.2

/-- Leaving one server out of a sorted list splits it at that server. -/
theorem CyclicOrder.of_sorted {servers : List ServerInfo} {server : ServerInfo}
    {below above : List ServerInfo}
    (hmem : ∀ s, s ∈ below ++ server :: above ↔ s ∈ servers ∧ s.suffrage = .voter)
    (hsorted : (below ++ server :: above).Pairwise fun a b => a.id < b.id) :
    CyclicOrder server.id servers (above ++ below) := by
  obtain ⟨hbelow, hrest, hcross⟩ := List.pairwise_append.mp hsorted
  obtain ⟨hserver, habove⟩ := List.pairwise_cons.mp hrest
  have hlow : ∀ s ∈ below, s.id < server.id := fun s hs => hcross s hs server List.mem_cons_self
  refine ⟨fun s => ⟨fun hs => ?_, fun hs => ?_⟩, ?_, above, below, rfl, habove, hbelow, hserver,
    hlow⟩
  · rcases List.mem_append.mp hs with hs | hs
    · have hin := (hmem s).mp (by simp [hs])
      exact ⟨hin.1, hin.2, (hserver s hs).ne'⟩
    · have hin := (hmem s).mp (by simp [hs])
      exact ⟨hin.1, hin.2, (hlow s hs).ne⟩
  · have hin := (hmem s).mpr ⟨hs.1, hs.2.1⟩
    rcases List.mem_append.mp hin with hin | hin
    · exact List.mem_append_right above hin
    · rcases List.mem_cons.mp hin with rfl | hin
      · exact absurd rfl hs.2.2
      · exact List.mem_append_left below hin
  · have hdistinct : ∀ {l : List ServerInfo}, l.Pairwise (fun a b => a.id < b.id) → l.Nodup :=
      fun h => h.imp fun hlt heq => absurd (congrArg ServerInfo.id heq) hlt.ne
    refine List.nodup_append.mpr ⟨hdistinct habove, hdistinct hbelow, fun a ha b hb heq => ?_⟩
    subst heq
    exact lt_asymm (hserver a ha) (hlow a hb)

section
variable (oracle : Oracle)

/-- One target: the search goes on when its outcome is not accepted. -/
theorem tryTargets_cons_eq (target : ServerInfo) (rest : List ServerInfo) :
    tryTargets (target :: rest) = .perform (transferTo target) fun outcome =>
      if accepted outcome then .done true else tryTargets rest := by
  refine congrArg (Task.perform (E := Shared) (transferTo target)) (funext fun outcome => ?_)
  cases outcome with
  | ok u => rfl
  | error err => rfl

theorem tryTargets_cons (target : ServerInfo) (rest : List ServerInfo) :
    (tryTargets (target :: rest)).result oracle =
        (accepts oracle target || (tryTargets rest).result oracle) ∧
      (tryTargets (target :: rest)).trace oracle =
        transferTo target ::
          if accepts oracle target then [] else (tryTargets rest).trace oracle := by
  rw [tryTargets_cons_eq]
  by_cases haccepts : accepted (oracle (transferTo target)) = true
  · simp [Task.result, Task.trace, accepts, haccepts]
  · simp [Task.result, Task.trace, accepts, haccepts]

/-- The targets are tried up to the first that accepts. -/
theorem tryTargets_accepted {tried : List ServerInfo} {target : ServerInfo}
    (rest : List ServerInfo) (htried : ∀ t ∈ tried, accepts oracle t = false)
    (htarget : accepts oracle target = true) :
    (tryTargets (tried ++ target :: rest)).result oracle = true ∧
      (tryTargets (tried ++ target :: rest)).trace oracle = (tried ++ [target]).map transferTo := by
  induction tried with
  | nil =>
      obtain ⟨hresult, htrace⟩ := tryTargets_cons oracle target rest
      rw [List.nil_append, hresult, htrace, htarget]
      exact ⟨rfl, rfl⟩
  | cons first tried ih =>
      obtain ⟨hresult, htrace⟩ := tryTargets_cons oracle first (tried ++ target :: rest)
      obtain ⟨ihresult, ihtrace⟩ := ih fun t ht => htried t (List.mem_cons_of_mem first ht)
      rw [List.cons_append, hresult, htrace, htried first List.mem_cons_self, ihresult, ihtrace]
      exact ⟨rfl, rfl⟩

theorem tryTargets_refused {targets : List ServerInfo}
    (h : ∀ t ∈ targets, accepts oracle t = false) :
    (tryTargets targets).result oracle = false ∧
      (tryTargets targets).trace oracle = targets.map transferTo := by
  induction targets with
  | nil => exact ⟨rfl, rfl⟩
  | cons target rest ih =>
      obtain ⟨hresult, htrace⟩ := tryTargets_cons oracle target rest
      obtain ⟨ihresult, ihtrace⟩ := ih fun t ht => h t (List.mem_cons_of_mem target ht)
      rw [hresult, htrace, h target List.mem_cons_self, ihresult, ihtrace]
      exact ⟨rfl, rfl⟩

end

section
variable {oracle : Oracle} {servers : List ServerInfo} {version : Nat}

/-- The membership, as the transfer asks for it. -/
theorem membership_result
    (hmembership : oracle (.consensus .membership) = .ok ⟨servers, version⟩) :
    ((op (.consensus .membership)).bind fun r =>
      .done (r.mapError ConductorError.consensus)).result oracle = .ok ⟨servers, version⟩ := by
  change (oracle (.consensus .membership)).mapError _ = _
  rw [hmembership]
  rfl

theorem roundRobin_alone (hmembership : oracle (.consensus .membership) = .ok ⟨servers, version⟩)
    (halone : (servers.filter fun server => decide (server.suffrage = .voter)).length ≤ 1) :
    transferLeaderRoundRobin.result oracle = .ok () ∧
      transferLeaderRoundRobin.trace oracle = [.consensus .membership] := by
  have hmember := membership_result hmembership
  constructor
  · refine (Task.result_bindExcept (E := Shared) oracle _ hmember).trans ?_
    simp only [if_pos halone]
    rfl
  · refine (Task.trace_bindExcept (E := Shared) oracle _ hmember).trans ?_
    simp only [if_pos halone]
    rfl

/-- With other voters, the transfer is a search among them, and the default
transfer when it fails. -/
theorem roundRobin_search {voters : List ServerInfo} {current : Nat} {search : Task Shared Bool}
    (hmembership : oracle (.consensus .membership) = .ok ⟨servers, version⟩)
    (hvoters : servers.filter (fun server => decide (server.suffrage = .voter)) = voters)
    (hothers : ¬ voters.length ≤ 1)
    (hcurrent : (voters.mergeSort idLe).findIdx?
      (fun server => decide (server.id = oracle (.consensus .serverId))) = some current)
    (hsearch : tryTargets (rotation (voters.mergeSort idLe) current) = search) :
    transferLeaderRoundRobin.result oracle =
        (if search.result oracle then .ok () else transferLeader.result oracle) ∧
      transferLeaderRoundRobin.trace oracle =
        Op.consensus .membership :: Op.consensus .serverId ::
          (search.trace oracle ++
            if search.result oracle then [] else transferLeader.trace oracle) := by
  have hmember := membership_result hmembership
  constructor
  · refine (Task.result_bindExcept (E := Shared) oracle _ hmember).trans ?_
    simp only [hvoters, if_neg hothers]
    refine (Task.result_bindLift (E := Shared) oracle (op (.consensus .serverId)) _).trans ?_
    simp only [op, Task.call, Task.result, hcurrent, hsearch]
    refine (Task.result_bindLift (E := Shared) oracle search _).trans ?_
    split <;> rfl
  · refine (Task.trace_bindExcept (E := Shared) oracle _ hmember).trans ?_
    simp only [hvoters, if_neg hothers]
    refine congrArg (Op.consensus .membership :: ·) ?_
    refine (Task.trace_bindLift (E := Shared) oracle (op (.consensus .serverId)) _).trans ?_
    refine congrArg (Op.consensus .serverId :: ·) ?_
    simp only [op, Task.call, Task.result, hcurrent, hsearch]
    refine (Task.trace_bindLift (E := Shared) oracle search _).trans ?_
    refine congrArg (search.trace oracle ++ ·) ?_
    split <;> rfl

/-- The local server splits the sorted voters. -/
theorem sorted_split {voters : List ServerInfo} {current : Nat} {localId : String}
    (hcurrent : (voters.mergeSort idLe).findIdx? (fun server => decide (server.id = localId)) =
      some current) :
    ∃ server, server.id = localId ∧ current < (voters.mergeSort idLe).length ∧
      voters.mergeSort idLe = (voters.mergeSort idLe).take current ++
        server :: (voters.mergeSort idLe).drop (current + 1) := by
  obtain ⟨hlt, hid, _⟩ := List.findIdx?_eq_some_iff_getElem.mp hcurrent
  refine ⟨_, of_decide_eq_true hid, hlt, ?_⟩
  rw [← List.drop_eq_getElem_cons hlt, List.take_append_drop]

theorem isTransfer_map (targets : List ServerInfo) :
    (targets.map transferTo).filter isTransfer = targets.map transferTo := by
  rw [List.filter_eq_self]
  intro o ho
  obtain ⟨target, _, rfl⟩ := List.mem_map.mp ho
  rfl

theorem Follows.of_split {voters : List ServerInfo} {current : Nat}
    (hmembership : oracle (.consensus .membership) = .ok ⟨servers, version⟩)
    (hvoters : servers.filter (fun server => decide (server.suffrage = .voter)) = voters)
    (hcurrent : (voters.mergeSort idLe).findIdx?
      (fun server => decide (server.id = oracle (.consensus .serverId))) = some current)
    (hlt : current < (voters.mergeSort idLe).length) :
    Follows oracle ((voters.mergeSort idLe).drop (current + 1) ++
      (voters.mergeSort idLe).take current) := by
  rw [← rotation_eq hlt]
  have hlength : (rotation (voters.mergeSort idLe) current).length = voters.length - 1 := by
    rw [rotation_eq hlt, List.length_append, List.length_drop, List.length_take]
    rw [List.length_mergeSort] at hlt ⊢
    omega
  have hothers : rotation (voters.mergeSort idLe) current ≠ [] → ¬ voters.length ≤ 1 := by
    intro hne hle
    exact hne (List.eq_nil_of_length_eq_zero (by omega))
  refine ⟨fun hnil => ?_, fun tried target rest horder htried htarget => ?_, fun hne hall => ?_⟩
  · have halone : voters.length ≤ 1 := by
      rw [hnil, List.length_nil] at hlength
      omega
    obtain ⟨hresult, htrace⟩ := roundRobin_alone hmembership (hvoters ▸ halone)
    rw [htrace]
    exact ⟨rfl, hresult⟩
  · obtain ⟨hresult, htrace⟩ := roundRobin_search hmembership hvoters
      (hothers (by rw [horder]; simp)) hcurrent rfl
    obtain ⟨hfound, hcalls⟩ := tryTargets_accepted oracle rest htried htarget
    rw [← horder] at hfound hcalls
    rw [hresult, htrace, hfound, hcalls, if_pos rfl, if_pos rfl, List.append_nil]
    exact ⟨isTransfer_map _, rfl⟩
  · obtain ⟨hresult, htrace⟩ := roundRobin_search hmembership hvoters (hothers hne) hcurrent rfl
    obtain ⟨hfound, hcalls⟩ := tryTargets_refused oracle hall
    rw [hresult, htrace, hfound, hcalls, if_neg Bool.false_ne_true, if_neg Bool.false_ne_true]
    refine ⟨?_, rfl⟩
    change (_ ++ transferLeader.trace oracle).filter isTransfer = _
    rw [List.filter_append, isTransfer_map]
    rfl

theorem round_robin_order (oracle : Oracle) (servers : List ServerInfo) (version : Nat)
    (hids : (servers.map ServerInfo.id).Nodup)
    (hlocal : ∃ server ∈ servers, server.id = oracle (.consensus .serverId) ∧
      server.suffrage = .voter)
    (hmembership : oracle (.consensus .membership) = .ok ⟨servers, version⟩) :
    ∃ order, CyclicOrder (oracle (.consensus .serverId)) servers order ∧ Follows oracle order := by
  obtain ⟨server, hserver, hid, hvoter⟩ := hlocal
  generalize hvoters : servers.filter (fun server => decide (server.suffrage = .voter)) = voters
  have hmem : ∀ s, s ∈ voters.mergeSort idLe ↔ s ∈ servers ∧ s.suffrage = .voter := by
    intro s
    rw [List.mem_mergeSort, ← hvoters, List.mem_filter, decide_eq_true_eq]
  have hsorted := strictly_sorted_ids voters
    (hvoters ▸ hids.sublist (List.filter_sublist.map _))
  obtain ⟨current, hcurrent⟩ : ∃ current, (voters.mergeSort idLe).findIdx?
      (fun s => decide (s.id = oracle (.consensus .serverId))) = some current := by
    rw [← Option.isSome_iff_exists, List.findIdx?_isSome, List.any_eq_true]
    exact ⟨server, (hmem server).mpr ⟨hserver, hvoter⟩, decide_eq_true hid⟩
  obtain ⟨found, hfound, hlt, hsplit⟩ := sorted_split hcurrent
  refine ⟨_, ?_, Follows.of_split hmembership hvoters hcurrent hlt⟩
  rw [hsplit] at hmem hsorted
  rw [← hfound]
  exact CyclicOrder.of_sorted hmem hsorted

/-- The next voter refuses, the one after it has a transfer in progress. -/
def busyOracle : Oracle
  | .consensus .serverId => "b"
  | .consensus .membership => .ok ⟨[⟨"c", "c:1", .voter⟩, ⟨"d", "d:1", .nonvoter⟩,
      ⟨"b", "b:1", .voter⟩, ⟨"a", "a:1", .voter⟩], 4⟩
  | .consensus (.transferLeaderTo "a" _) =>
      .error (.raft "leadership transfer already in progress")
  | o => Oracle.refuse o

theorem busy_transfer_ordered :
    ∃ order, CyclicOrder "b" [⟨"c", "c:1", .voter⟩, ⟨"d", "d:1", .nonvoter⟩,
      ⟨"b", "b:1", .voter⟩, ⟨"a", "a:1", .voter⟩] order ∧ Follows busyOracle order :=
  round_robin_order busyOracle _ 4 (by decide)
    ⟨⟨"b", "b:1", .voter⟩, by decide, rfl, rfl⟩ rfl

end
end ConductorRs.Conductor
