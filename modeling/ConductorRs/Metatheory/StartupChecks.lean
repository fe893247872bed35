import ConductorRs.Collections.Checks
import ConductorRs.Core.Startup

/-!
What the validation of the arguments is worth.

The arguments that pass are described without the order in which they are checked,
and the configuration that is assembled from such arguments is one on which the
services can rely.
-/
namespace ConductorRs.Startup
open Concurrency Collections

section
variable {Url Addr : Type}

def IsPort (value : Int) : Prop := 0 ≤ value ∧ value ≤ 65535

instance (value : Int) : Decidable (IsPort value) :=
  inferInstanceAs (Decidable (0 ≤ value ∧ value ≤ 65535))

structure Valid (args : Args Url) : Prop where
  oneMode : args.rollupBoostEnabled = true → args.rollupBoostNextEnabled = false
  nextUrl : args.rollupBoostNextEnabled = true →
    (optionalString args.rollupBoostNextHealthcheckUrl).isSome = true
  consensusAddr : args.consensusAddr ≠ ""
  consensusPort : IsPort args.consensusPort
  rpcPort : IsPort args.rpcPort
  serverId : args.serverId ≠ ""
  storageDir : args.storageDir ≠ ""
  interval : ∃ d, args.healthcheckInterval = some d ∧ d ≠ 0
  unsafeInterval : ∃ d, args.healthcheckUnsafeInterval = some d
  safeInterval : args.healthcheckSafeInterval ≠ 0
  minPeerCount : ∃ n, args.healthcheckMinPeerCount = some n ∧ n ≠ 0
  p2pPeers : args.healthcheckExecutionP2pEnabled = true →
    args.healthcheckExecutionP2pMinPeerCount ≠ 0
  p2pApi : args.healthcheckExecutionP2pEnabled = true →
    args.healthcheckExecutionP2pCheckApi = "net" ∨ args.healthcheckExecutionP2pCheckApi = "admin"
  tolerance : args.rollupBoostPartialHealthinessToleranceLimit = 0 ↔
    args.rollupBoostPartialHealthinessToleranceIntervalSeconds = 0
  metricsPort : args.metricsEnabled = true → IsPort args.metricsPort
  pprofPort : args.pprofEnabled = true → IsPort args.pprofPort
  websocketPort : (optionalString args.rollupboostWsUrl).isSome = true →
    IsPort args.websocketServerPort

theorem ensure_ok {condition : Bool} {message : String} {u : Unit} :
    ensure condition message = .ok u ↔ condition = true := by
  unfold ensure
  cases condition <;> simp

theorem required_ok {α : Type} {flag : String} {value : Option α} {a : α} :
    required flag value = .ok a ↔ value = some a := by
  cases value <;> simp [required]

theorem port_ok {message : String} {value : Int} {n : Nat} :
    port message value = .ok n ↔ IsPort value ∧ n = value.toNat := by
  unfold port
  split
  · next h =>
      constructor
      · intro heq
        cases heq
        exact ⟨h, rfl⟩
      · rintro ⟨-, rfl⟩
        rfl
  · next h =>
      constructor
      · intro heq
        cases heq
      · intro hport
        exact absurd hport.1 h

theorem port_of_isPort (message : String) {value : Int} (h : IsPort value) :
    port message value = .ok value.toNat :=
  port_ok.mpr ⟨h, rfl⟩

theorem onlyIf_ok {enabled : Bool} {message : String} {value : Int} {u : Unit} :
    onlyIf enabled (port message value) = .ok u ↔ (enabled = true → IsPort value) := by
  cases enabled with
  | false => simp [onlyIf]
  | true =>
      cases hport : port message value with
      | error err =>
          have hnot : ¬ IsPort value := fun h => by
            rw [port_of_isPort message h] at hport
            cases hport
          simp [onlyIf, Except.map, hnot]
      | ok n => simp [onlyIf, Except.map, (port_ok.mp hport).1]

theorem valid_of_checks {args : Args Url} (hmodes : validateModes args = .ok ())
    (hvalues : validateValues args = .ok ()) : Valid args := by
  obtain ⟨_, hmode, hnext⟩ := bind_eq_ok.mp hmodes
  obtain ⟨_, haddr, h⟩ := bind_eq_ok.mp hvalues
  obtain ⟨_, hconsensus, h⟩ := bind_eq_ok.mp h
  obtain ⟨_, hrpc, h⟩ := bind_eq_ok.mp h
  obtain ⟨_, hserver, h⟩ := bind_eq_ok.mp h
  obtain ⟨_, hstorage, h⟩ := bind_eq_ok.mp h
  obtain ⟨interval, hinterval, h⟩ := bind_eq_ok.mp h
  obtain ⟨unsafeInterval, hunsafeInterval, h⟩ := bind_eq_ok.mp h
  obtain ⟨peers, hpeers, h⟩ := bind_eq_ok.mp h
  obtain ⟨_, hnonzero, h⟩ := bind_eq_ok.mp h
  obtain ⟨_, hsafe, h⟩ := bind_eq_ok.mp h
  obtain ⟨_, hsome, h⟩ := bind_eq_ok.mp h
  obtain ⟨_, hp2pPeers, h⟩ := bind_eq_ok.mp h
  obtain ⟨_, -, h⟩ := bind_eq_ok.mp h
  obtain ⟨_, hp2pApi, h⟩ := bind_eq_ok.mp h
  obtain ⟨_, htolerance, h⟩ := bind_eq_ok.mp h
  obtain ⟨_, hmetrics, h⟩ := bind_eq_ok.mp h
  obtain ⟨_, hpprof, hws⟩ := bind_eq_ok.mp h
  rw [ensure_ok] at hmode hnext haddr hserver hstorage
  rw [ensure_ok] at hnonzero hsafe hsome hp2pPeers hp2pApi htolerance
  exact {
    oneMode := fun hb => by simpa [hb] using hmode
    nextUrl := fun hn => by simpa [hn, Option.isSome_iff_ne_none] using hnext
    consensusAddr := of_decide_eq_true haddr
    consensusPort := (port_ok.mp hconsensus).1
    rpcPort := (port_ok.mp hrpc).1
    serverId := of_decide_eq_true hserver
    storageDir := of_decide_eq_true hstorage
    interval := ⟨interval, required_ok.mp hinterval, of_decide_eq_true hnonzero⟩
    unsafeInterval := ⟨unsafeInterval, required_ok.mp hunsafeInterval⟩
    safeInterval := of_decide_eq_true hsafe
    minPeerCount := ⟨peers, required_ok.mp hpeers, of_decide_eq_true hsome⟩
    p2pPeers := fun hp => by simpa [hp] using hp2pPeers
    p2pApi := fun hp => by simpa [hp] using hp2pApi
    tolerance := by simpa using htolerance
    metricsPort := onlyIf_ok.mp hmetrics
    pprofPort := onlyIf_ok.mp hpprof
    websocketPort := onlyIf_ok.mp hws }

theorem Valid.modes {args : Args Url} (h : Valid args) : validateModes args = .ok () := by
  have hmode := h.oneMode
  have hnext := h.nextUrl
  refine bind_eq_ok.mpr ⟨(), ensure_ok.mpr ?_, ensure_ok.mpr ?_⟩
  · cases hb : args.rollupBoostEnabled <;> simp_all
  · cases hn : args.rollupBoostNextEnabled <;> simp_all

/-- An API that validation knows is not blank. -/
theorem Valid.p2pApi_not_blank {args : Args Url} (h : Valid args)
    (hp : args.healthcheckExecutionP2pEnabled = true) :
    trim args.healthcheckExecutionP2pCheckApi ≠ "" := by
  rcases h.p2pApi hp with hapi | hapi
  · rw [hapi]
    decide
  · rw [hapi]
    decide

theorem Valid.values {args : Args Url} (h : Valid args) : validateValues args = .ok () := by
  obtain ⟨interval, hinterval, hnonzero⟩ := h.interval
  obtain ⟨unsafeInterval, hunsafeInterval⟩ := h.unsafeInterval
  obtain ⟨peers, hpeers, hsome⟩ := h.minPeerCount
  have hp2pPeers := h.p2pPeers
  have hblank := h.p2pApi_not_blank
  have hp2pApi := h.p2pApi
  refine bind_eq_ok.mpr ⟨(), ensure_ok.mpr (decide_eq_true h.consensusAddr), ?_⟩
  refine bind_eq_ok.mpr ⟨_, port_of_isPort _ h.consensusPort, ?_⟩
  refine bind_eq_ok.mpr ⟨_, port_of_isPort _ h.rpcPort, ?_⟩
  refine bind_eq_ok.mpr ⟨(), ensure_ok.mpr (decide_eq_true h.serverId), ?_⟩
  refine bind_eq_ok.mpr ⟨(), ensure_ok.mpr (decide_eq_true h.storageDir), ?_⟩
  refine bind_eq_ok.mpr ⟨interval, required_ok.mpr hinterval, ?_⟩
  refine bind_eq_ok.mpr ⟨unsafeInterval, required_ok.mpr hunsafeInterval, ?_⟩
  refine bind_eq_ok.mpr ⟨peers, required_ok.mpr hpeers, ?_⟩
  refine bind_eq_ok.mpr ⟨(), ensure_ok.mpr (decide_eq_true hnonzero), ?_⟩
  refine bind_eq_ok.mpr ⟨(), ensure_ok.mpr (decide_eq_true h.safeInterval), ?_⟩
  refine bind_eq_ok.mpr ⟨(), ensure_ok.mpr (decide_eq_true hsome), ?_⟩
  refine bind_eq_ok.mpr ⟨(), ensure_ok.mpr ?_, bind_eq_ok.mpr ⟨(), ensure_ok.mpr ?_,
    bind_eq_ok.mpr ⟨(), ensure_ok.mpr ?_, bind_eq_ok.mpr ⟨(), ensure_ok.mpr ?_, ?_⟩⟩⟩⟩
  · cases hp : args.healthcheckExecutionP2pEnabled <;> simp_all
  · cases hp : args.healthcheckExecutionP2pEnabled <;> simp_all
  · cases hp : args.healthcheckExecutionP2pEnabled <;> simp_all
  · simpa using h.tolerance
  refine bind_eq_ok.mpr ⟨(), onlyIf_ok.mpr h.metricsPort, ?_⟩
  exact bind_eq_ok.mpr ⟨(), onlyIf_ok.mpr h.pprofPort, onlyIf_ok.mpr h.websocketPort⟩

/-- What the services may rely on. The control path compares lags with whole
seconds, so a safe interval below one second counts as zero there. -/
structure Sane (services : Services Url Addr) : Prop where
  interval : services.healthcheckInterval ≠ 0
  safeInterval : services.settings.healthcheckSafeInterval ≠ 0
  minPeerCount : services.settings.config.healthcheckMinPeerCount ≠ 0
  p2p : ∀ n, services.settings.config.executionP2pMinPeerCount = some n → n ≠ 0
  tolerance : ∀ t, services.settings.config.rollupBoostPartialHealthTolerance = some t →
    t.limit ≠ 0 ∧ t.interval ≠ 0
  websocket : services.rollupboostWsUrl.isSome = true → IsPort services.websocketServerPort

theorem fromSecs_asSecs (seconds : Nat) : Duration.asSecs (Duration.fromSecs seconds) = seconds :=
  Nat.mul_div_cancel seconds (by decide)

theorem tolerance_ne_zero {args : Args Url} {t : RollupBoostPartialHealthTolerance}
    (h : partialHealthTolerance args = .ok (some t)) : t.limit ≠ 0 ∧ t.interval ≠ 0 := by
  unfold partialHealthTolerance at h
  dsimp only at h
  split at h
  · cases h
  · split at h
    · next hne =>
        cases h
        refine ⟨hne.1, ?_⟩
        change Duration.asSecs (Duration.fromSecs _) ≠ 0
        rw [fromSecs_asSecs]
        exact hne.2
    · cases h

theorem p2p_ne_zero {p : Platform Url Addr} {args : Args Url} (hv : Valid args)
    {c : ExecutionP2pHealthConfig Url} (h : executionP2pHealthConfig p args = .ok (some c)) :
    c.minPeerCount ≠ 0 := by
  unfold executionP2pHealthConfig at h
  cases henabled : args.healthcheckExecutionP2pEnabled with
  | false =>
      rw [henabled] at h
      cases h
  | true =>
      rw [henabled] at h
      obtain ⟨rpc, -, h⟩ := bind_eq_ok.mp h
      obtain ⟨api, -, h⟩ := bind_eq_ok.mp h
      cases h
      exact hv.p2pPeers henabled

theorem parseOptionalUrl_isSome {p : Platform Url Addr} {raw : Option String} {flag : String}
    {url : Option Url} (h : parseOptionalUrl p raw flag = .ok url) (hurl : url.isSome = true) :
    (optionalString raw).isSome = true := by
  unfold parseOptionalUrl at h
  split at h
  · cases h
    cases hurl
  · next heq =>
      rw [heq]
      rfl

theorem Valid.partialHealthTolerance {args : Args Url} (h : Valid args) :
    ∃ tolerance, partialHealthTolerance args = .ok tolerance := by
  unfold Startup.partialHealthTolerance
  dsimp only
  split
  · exact ⟨_, rfl⟩
  · next hzero =>
      have hne : args.rollupBoostPartialHealthinessToleranceLimit ≠ 0 ∧
          args.rollupBoostPartialHealthinessToleranceIntervalSeconds ≠ 0 :=
        ⟨fun hl => hzero ⟨hl, h.tolerance.mp hl⟩, fun hi => hzero ⟨h.tolerance.mpr hi, hi⟩⟩
      rw [if_pos hne]
      exact ⟨_, rfl⟩

theorem Valid.executionP2pHealthConfig {p : Platform Url Addr} {args : Args Url} (h : Valid args)
    {rpc : Option Url} (hrpc : parseOptionalUrl p args.healthcheckExecutionP2pRpcUrl
      "healthcheck.execution-p2p-rpc-url" = .ok rpc) :
    ∃ config, executionP2pHealthConfig p args = .ok config := by
  cases henabled : args.healthcheckExecutionP2pEnabled with
  | false =>
      refine ⟨none, ?_⟩
      rw [Startup.executionP2pHealthConfig, henabled]
      rfl
  | true =>
      have hapi : ∃ api, parseExecutionP2pCheckApi args.healthcheckExecutionP2pCheckApi =
          .ok api := by
        rcases h.p2pApi henabled with hapi | hapi
        · exact ⟨.net, by rw [hapi]; rfl⟩
        · exact ⟨.admin, by rw [hapi]; rfl⟩
      obtain ⟨api, hapi⟩ := hapi
      rw [Startup.executionP2pHealthConfig, henabled]
      exact ⟨_, bind_eq_ok.mpr ⟨rpc, hrpc, bind_eq_ok.mpr ⟨api, hapi, rfl⟩⟩⟩

theorem Valid.rollupBoostHealthConfig {args : Args Url} (h : Valid args) :
    ∃ config, rollupBoostHealthConfig args = .ok config := by
  unfold Startup.rollupBoostHealthConfig
  cases args.rollupBoostEnabled with
  | true => exact ⟨_, rfl⟩
  | false =>
      cases hn : args.rollupBoostNextEnabled with
      | false => exact ⟨_, rfl⟩
      | true =>
          obtain ⟨url, hurl⟩ := Option.isSome_iff_exists.mp (h.nextUrl hn)
          rw [hurl]
          exact ⟨_, rfl⟩

end
end ConductorRs.Startup
