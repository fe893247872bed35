import Mathlib.Data.List.Forall2
import ConductorRs.Collections.Checks
import ConductorRs.Concurrency.Sequential
import ConductorRs.Core.RpcServer
import ConductorRs.Metatheory.Numerals

/-!
The parameters of each method as a grammar, stated apart from the decoders.

A decoder gives a result only for parameters of its grammar, in which a version or
the block number of a payload may also have a plus before its digits, and an error of
invalid parameters otherwise. Every method reads its parameters before it does
anything, so what does not fit even with a plus is answered without an operation.
-/
namespace ConductorRs.Rpc
open Concurrency Collections

/-- A number of 64 bits, or a text of one. -/
def Quantity (v : Value) : Prop := ∃ n, Denotes v n

/-- A quantity, or a text of one with a plus before its digits. -/
def PlusQuantity (v : Value) : Prop := ∃ n, Denotes v n ∨ PlusNumber v n

def HashText (s : String) : Prop :=
  ∃ hex, s.toList = '0' :: 'x' :: hex ∧ hex.length = 64 ∧ hex.all asciiHexDigit = true

/-- The member under the first of two names that is present. -/
def member (v : Value) (name other : String) : Option Value := (v.get name).or (v.get other)

/-- An envelope with a block number and a block hash. -/
def Payload (quantity : Value → Prop) (v : Value) : Prop :=
  ∃ execution number hash, member v "executionPayload" "execution_payload" = some execution ∧
    member execution "blockNumber" "block_number" = some number ∧ quantity number ∧
    member execution "blockHash" "block_hash" = some (.string hash) ∧ HashText hash

/-- A hexadecimal number without leading zeros, and its value. -/
def HexNumber (s : String) (n : Nat) : Prop :=
  ∃ hex, (s.toList = '0' :: 'x' :: hex ∨ s.toList = '0' :: 'X' :: hex) ∧ hex ≠ [] ∧
    (hex.head? = some '0' → hex = ['0']) ∧ hex.all asciiHexDigit = true ∧ digitsValue 16 0 hex = n

/-- The form of one parameter. -/
inductive Form where
  | flag
  | text
  | quantity
  | payload
  | tagOrNumber
  | number
  | size
deriving DecidableEq

/-- The grammar is taken over the values that count as quantities. -/
def Form.Matches (quantity : Value → Prop) : Form → Value → Prop
  | .flag, v => ∃ b, v = .bool b
  | .text, v => ∃ s, v = .string s
  | .quantity, v => quantity v
  | .payload, v => Payload quantity v
  | .tagOrNumber, v =>
      ∃ s, v = .string s ∧ (blockTag s = true ∨ ∃ n, HexNumber s n ∧ n ≤ i64Max)
  | .number, v => ∃ s n, v = .string s ∧ HexNumber s n ∧ n < UInt64.size
  | .size, v => ∃ s n, v = .string s ∧ HexNumber s n

/-- What may be given in place of an array. -/
def Lists (params : Value) (items : List Value) : Prop :=
  params = .array items ∨ params = .null ∧ items = []

def Conforms (quantity : Value → Prop) (forms : List Form) (params : Value) : Prop :=
  ∃ items, Lists params items ∧ List.Forall₂ (Form.Matches quantity) forms items

def grammar (method : String) : Option (List Form) :=
  match method with
  | "rpc_modules" | "health_status" | "conductor_leader" | "conductor_leaderWithID"
  | "conductor_leaderOverridden" | "conductor_paused" | "conductor_pause" | "conductor_resume"
  | "conductor_stopped" | "conductor_stop" | "conductor_active" | "conductor_sequencerHealthy"
  | "conductor_clusterMembership" | "conductor_transferLeader" | "optimism_syncStatus"
  | "optimism_rollupConfig" | "admin_sequencerActive" => some []
  | "conductor_overrideLeader" => some [.flag]
  | "conductor_transferLeaderToServer" => some [.text, .text]
  | "conductor_addServerAsVoter" | "conductor_addServerAsNonvoter" =>
      some [.text, .text, .quantity]
  | "conductor_removeServer" | "conductor_demoteVoter" => some [.text, .quantity]
  | "conductor_commitUnsafePayload" => some [.payload]
  | "eth_getBlockByNumber" => some [.tagOrNumber, .flag]
  | "miner_setMaxDASize" => some [.size, .size]
  | "optimism_outputAtBlock" => some [.number]
  | _ => none

/-- Parameters of the method's grammar; no method, no parameters. -/
def Fits (method : String) (params : Value) : Prop :=
  ∃ forms, grammar method = some forms ∧ Conforms Quantity forms params

/-- Parameters that fit but for a plus before the digits of a version or of the block
number of a payload. -/
def FitsWithPlus (method : String) (params : Value) : Prop :=
  ¬ Fits method params ∧ ∃ forms, grammar method = some forms ∧ Conforms PlusQuantity forms params

def Invalid (e : RpcError) : Prop := ∃ message, e = invalidParams message

/-- The decoder gives a result for parameters of these forms only. -/
def Decodes {α : Type} (forms : List Form) (decode : Value → Except RpcError α) : Prop :=
  ∀ params, Checked Invalid (fun _ => Conforms PlusQuantity forms params) (decode params)

theorem arrayParams_checked (params : Value) :
    Checked Invalid (Lists params) (arrayParams params) := by
  cases params with
  | array items => exact .inl rfl
  | null => exact .inr ⟨rfl, rfl⟩
  | _ => exact ⟨_, rfl⟩

theorem stringParam_checked (v : Value) (name : String) :
    Checked Invalid (fun _ => Form.text.Matches PlusQuantity v) (stringParam v name) := by
  cases v with
  | string s => exact ⟨s, rfl⟩
  | _ => exact ⟨_, rfl⟩

theorem versionParam_checked (v : Value) :
    Checked Invalid (fun _ => Form.quantity.Matches PlusQuantity v) (versionParam v) := by
  unfold versionParam
  cases h : parseQuantity v with
  | error e => exact ⟨_, rfl⟩
  | ok n => exact ⟨n, parseQuantity_eq_ok.mp h⟩

theorem hashText_of_parse {s : String} {hash : Hash} (h : Hash.parse s = .ok hash) :
    HashText s := by
  unfold Hash.parse at h
  split at h
  · cases h
  · rename_i hex hmark
    split at h
    · cases h
    · split at h
      · cases h
      · rename_i bytes hbytes
        split at h
        · rename_i size
          obtain ⟨hdigits, hlen⟩ := digits_of_decodeHexBytes hbytes
          exact ⟨hex, stripPrefix_eq_some.mp hmark, by omega, hdigits⟩
        · cases h

theorem payload_of_accessors {payload : PayloadEnvelope} {n : Nat} {hash : Hash}
    (hnumber : payload.blockNumber = .ok n) (hhash : payload.blockHash = .ok hash) :
    Payload PlusQuantity payload.raw := by
  obtain ⟨execution, hexecution, hnumber⟩ := bind_eq_ok.mp hnumber
  obtain ⟨execution', hexecution', hhash⟩ := bind_eq_ok.mp hhash
  rw [hexecution] at hexecution'
  cases hexecution'
  have hmember : member payload.raw "executionPayload" "execution_payload" = some execution := by
    unfold PayloadEnvelope.executionPayload at hexecution
    split at hexecution
    · rename_i value hvalue
      cases hexecution
      exact hvalue
    · cases hexecution
  split at hnumber
  · rename_i number hvalue
    split at hhash
    · rename_i raw hraw
      obtain ⟨v, hv, hstr⟩ := Option.bind_eq_some_iff.mp hraw
      have hv' : v = .string raw := by
        cases v with
        | string s =>
            cases hstr
            rfl
        | _ => cases hstr
      subst hv'
      exact ⟨execution, number, raw, hmember, hvalue, ⟨n, parseQuantity_eq_ok.mp hnumber⟩, hv,
        hashText_of_parse hhash⟩
    · cases hhash
  · cases hnumber

/-- The digits come back in lower case. -/
theorem canonicalHexDigits_checked (raw name : String) :
    Checked Invalid (fun digits => ∃ hex, digits = hex.map Char.toLower ∧
      HexNumber raw (digitsValue 16 0 hex) ∧ hex.all asciiHexDigit = true)
      (canonicalHexDigits raw name) := by
  unfold canonicalHexDigits
  split
  · exact ⟨_, rfl⟩
  · exact ⟨_, rfl⟩
  · exact ⟨_, rfl⟩
  · rename_i hex hnil hzero htext
    by_cases hdigits : hex.all asciiHexDigit = true
    · rw [if_pos hdigits]
      refine ⟨hex, rfl, ⟨hex, ?_, ?_, ?_, hdigits, rfl⟩, hdigits⟩
      · rcases Option.or_eq_some_iff.mp htext with hlower | ⟨_, hupper⟩
        · exact .inl (stripPrefix_eq_some.mp hlower)
        · exact .inr (stripPrefix_eq_some.mp hupper)
      · rintro rfl
        exact hnil rfl
      · intro hhead
        cases hex with
        | nil => cases hhead
        | cons c rest =>
            cases hhead
            cases rest with
            | nil => rfl
            | cons d rest => exact absurd rfl (hzero d rest)
    · rw [if_neg hdigits]
      exact ⟨_, rfl⟩

theorem canonicalHexQuantity_checked (raw name : String) :
    Checked Invalid (fun _ => ∃ n, HexNumber raw n) (canonicalHexQuantity raw name) := by
  refine (canonicalHexDigits_checked raw name).bind ?_
  rintro digits ⟨hex, _, hnumber, _⟩
  exact ⟨_, hnumber⟩

theorem decodeHexQuantity_checked (raw : String) :
    Checked Invalid (fun n => HexNumber raw n ∧ n < UInt64.size) (decodeHexQuantity raw) := by
  refine (canonicalHexDigits_checked raw "block number").bind ?_
  rintro digits ⟨hex, rfl, hnumber, hdigits⟩
  cases hn : u64FromStrRadix 16 (hex.map Char.toLower) with
  | none => exact ⟨_, rfl⟩
  | some n =>
      obtain ⟨hvalue, hlt⟩ := value_of_lower hdigits hn
      rw [hvalue] at hnumber
      exact ⟨hnumber, hlt⟩

/-- A decoder goes on from the items of the array. -/
theorem decodes_of_items {α : Type} {forms : List Form} {f : List Value → Except RpcError α}
    (h : ∀ items, Checked Invalid
      (fun _ => List.Forall₂ (Form.Matches PlusQuantity) forms items) (f items)) :
    Decodes forms fun params => arrayParams params >>= f := by
  intro params
  refine (arrayParams_checked params).bind ?_
  intro items hitems
  exact (h items).imp fun _ hforms => ⟨items, hitems, hforms⟩

theorem noParams_decodes : Decodes [] noParams := by
  refine decodes_of_items ?_
  intro items
  cases items with
  | nil => exact .nil
  | cons _ _ => exact ⟨_, rfl⟩

theorem boolParam_decodes : Decodes [.flag] boolParam := by
  refine decodes_of_items ?_
  intro items
  rcases items with _ | ⟨v, _ | ⟨_, _⟩⟩
  · exact ⟨_, rfl⟩
  · cases v with
    | bool b => exact .cons ⟨b, rfl⟩ .nil
    | _ => exact ⟨_, rfl⟩
  · cases v <;> exact ⟨_, rfl⟩

theorem stringStringParams_decodes : Decodes [.text, .text] stringStringParams := by
  refine decodes_of_items ?_
  intro items
  rcases items with _ | ⟨id, _ | ⟨addr, _ | ⟨_, _⟩⟩⟩
  · exact ⟨_, rfl⟩
  · exact ⟨_, rfl⟩
  · refine (stringParam_checked id "id").bind ?_
    intro _ hid
    refine (stringParam_checked addr "addr").bind ?_
    intro _ haddr
    exact .cons hid (.cons haddr .nil)
  · exact ⟨_, rfl⟩

theorem idVersionParams_decodes : Decodes [.text, .quantity] idVersionParams := by
  refine decodes_of_items ?_
  intro items
  rcases items with _ | ⟨id, _ | ⟨version, _ | ⟨_, _⟩⟩⟩
  · exact ⟨_, rfl⟩
  · exact ⟨_, rfl⟩
  · refine (stringParam_checked id "id").bind ?_
    intro _ hid
    refine (versionParam_checked version).bind ?_
    intro _ hversion
    exact .cons hid (.cons hversion .nil)
  · exact ⟨_, rfl⟩

theorem membershipChangeParams_decodes :
    Decodes [.text, .text, .quantity] membershipChangeParams := by
  refine decodes_of_items ?_
  intro items
  rcases items with _ | ⟨id, _ | ⟨addr, _ | ⟨version, _ | ⟨_, _⟩⟩⟩⟩
  · exact ⟨_, rfl⟩
  · exact ⟨_, rfl⟩
  · exact ⟨_, rfl⟩
  · refine (stringParam_checked id "id").bind ?_
    intro _ hid
    refine (stringParam_checked addr "addr").bind ?_
    intro _ haddr
    refine (versionParam_checked version).bind ?_
    intro _ hversion
    exact .cons hid (.cons haddr (.cons hversion .nil))
  · exact ⟨_, rfl⟩

theorem unsafePayloadParam_decodes : Decodes [.payload] unsafePayloadParam := by
  refine decodes_of_items ?_
  intro items
  rcases items with _ | ⟨raw, _ | ⟨_, _⟩⟩
  · exact ⟨_, rfl⟩
  · cases hnumber : (PayloadEnvelope.mk raw).blockNumber with
    | error err =>
        dsimp only
        rw [hnumber]
        exact ⟨_, rfl⟩
    | ok n =>
        cases hhash : (PayloadEnvelope.mk raw).blockHash with
        | error err =>
            dsimp only
            rw [hnumber, hhash]
            exact ⟨_, rfl⟩
        | ok hash =>
            dsimp only
            rw [hnumber, hhash]
            exact .cons (payload_of_accessors hnumber hhash) .nil
  · exact ⟨_, rfl⟩

theorem outputAtBlockProxyParams_decodes : Decodes [.number] outputAtBlockProxyParams := by
  refine decodes_of_items ?_
  intro items
  rcases items with _ | ⟨number, _ | ⟨_, _⟩⟩
  · exact ⟨_, rfl⟩
  · cases number with
    | string raw =>
        refine (decodeHexQuantity_checked raw).bind ?_
        rintro n ⟨hnumber, hlt⟩
        exact .cons ⟨raw, n, rfl, hnumber, hlt⟩ .nil
    | _ => exact ⟨_, rfl⟩
  · exact ⟨_, rfl⟩

theorem minerSetMaxDaSizeProxyParams_decodes :
    Decodes [.size, .size] minerSetMaxDaSizeProxyParams := by
  refine decodes_of_items ?_
  intro items
  rcases items with _ | ⟨tx, _ | ⟨block, _ | ⟨_, _⟩⟩⟩
  · exact ⟨_, rfl⟩
  · exact ⟨_, rfl⟩
  · cases tx with
    | string txSize =>
        cases block with
        | string blockSize =>
            refine (canonicalHexQuantity_checked txSize "max tx size").bind ?_
            rintro _ ⟨n, hn⟩
            refine (canonicalHexQuantity_checked blockSize "max block size").bind ?_
            rintro _ ⟨m, hm⟩
            exact .cons ⟨txSize, n, rfl, hn⟩ (.cons ⟨blockSize, m, rfl, hm⟩ .nil)
        | _ => exact ⟨_, rfl⟩
    | _ => exact ⟨_, rfl⟩
  · exact ⟨_, rfl⟩

/-- The block number is read before the program goes on. -/
theorem tagOrNumber_checked {α : Type} {Q : α → Prop} (raw : String)
    {k : String → Except RpcError α}
    (hk : ∀ block, Form.tagOrNumber.Matches PlusQuantity (.string raw) →
      Checked Invalid Q (k block)) :
    Checked Invalid Q
      (if blockTag raw = true then pure raw >>= k
      else decodeHexQuantity raw >>= fun block =>
        if block > i64Max then
          throw (invalidParams ("block number out of range " ++ raw)) >>= fun _ : Unit =>
            pure (hexQuantity block) >>= k
        else pure (hexQuantity block) >>= k) := by
  by_cases htag : blockTag raw = true
  · rw [if_pos htag]
    exact hk raw ⟨raw, rfl, .inl htag⟩
  · rw [if_neg htag]
    refine (decodeHexQuantity_checked raw).bind ?_
    rintro n ⟨hnumber, _⟩
    by_cases hmax : n > i64Max
    · rw [if_pos hmax]
      exact ⟨_, rfl⟩
    · rw [if_neg hmax]
      exact hk (hexQuantity n) ⟨raw, rfl, .inr ⟨n, hnumber, Nat.le_of_not_lt hmax⟩⟩

theorem ethGetBlockByNumberProxyParams_decodes :
    Decodes [.tagOrNumber, .flag] ethGetBlockByNumberProxyParams := by
  refine decodes_of_items ?_
  intro items
  rcases items with _ | ⟨number, _ | ⟨fullTx, _ | ⟨_, _⟩⟩⟩
  · exact ⟨_, rfl⟩
  · exact ⟨_, rfl⟩
  · cases number with
    | string raw =>
        refine tagOrNumber_checked raw ?_
        intro block hnumber
        cases fullTx with
        | bool full => exact .cons hnumber (.cons ⟨full, rfl⟩ .nil)
        | _ => exact ⟨_, rfl⟩
    | _ => exact ⟨_, rfl⟩
  · exact ⟨_, rfl⟩

/-- A method that reads its parameters first ends there when they do not fit, even with
a plus. -/
theorem refused_of_decodes {α : Type} {method : String} {params : Value} {forms : List Form}
    {decode : Value → Except RpcError α} (hdecode : Decodes forms decode)
    (hforms : grammar method = some forms) (hfits : ¬ Fits method params)
    (hplus : ¬ FitsWithPlus method params) (k : α → Handler Value) :
    ∃ message,
      (Handler.check (decode params) >>= k).run = .done (.error (invalidParams message)) := by
  have hconforms : ¬ Conforms PlusQuantity forms params :=
    fun h => hplus ⟨hfits, forms, hforms, h⟩
  obtain ⟨e, he, message, rfl⟩ := (hdecode params).error_of_not fun _ => hconforms
  exact ⟨message, by rw [he]; rfl⟩

/-- The method is unknown, or proxied while there is no proxy. -/
def Unserved (proxy : Bool) (method : String) : Prop :=
  grammar method = none ∨ proxy = false ∧ isProxyMethod method = true

theorem dispatch_unserved {proxy : Bool} {method : String} (params : Value)
    (h : Unserved proxy method) :
    (dispatch proxy ⟨some "2.0", method, params⟩).run = .done (.error methodNotFound) := by
  unfold dispatch
  simp only [ne_eq, not_true_eq_false, if_false]
  by_cases hproxy : (!proxy && isProxyMethod method) = true
  · rw [if_pos hproxy]
    rfl
  · rw [if_neg hproxy]
    have hnone : grammar method = none := by
      refine h.resolve_right ?_
      rintro ⟨rfl, hmethod⟩
      exact hproxy hmethod
    split
    case h_28 => rfl
    all_goals cases hnone

theorem dispatch_served {proxy : Bool} {method : String} {params : Value}
    (h : ¬ Unserved proxy method) (hparams : ¬ Fits method params)
    (hplus : ¬ FitsWithPlus method params) :
    ∃ message, (dispatch proxy ⟨some "2.0", method, params⟩).run =
      .done (.error (invalidParams message)) := by
  have hproxy : ¬ (!proxy && isProxyMethod method) = true := by
    intro hproxy
    rw [Bool.and_eq_true, Bool.not_eq_true'] at hproxy
    exact h (.inr hproxy)
  unfold dispatch
  simp only [ne_eq, not_true_eq_false, if_false, if_neg hproxy]
  split
  case h_28 =>
    refine absurd (.inl ?_) h
    unfold grammar
    split
    case h_28 => rfl
    all_goals contradiction
  all_goals first
    | exact refused_of_decodes noParams_decodes rfl hparams hplus _
    | exact refused_of_decodes boolParam_decodes rfl hparams hplus _
    | exact refused_of_decodes stringStringParams_decodes rfl hparams hplus _
    | exact refused_of_decodes membershipChangeParams_decodes rfl hparams hplus _
    | exact refused_of_decodes idVersionParams_decodes rfl hparams hplus _
    | exact refused_of_decodes unsafePayloadParam_decodes rfl hparams hplus _
    | exact refused_of_decodes ethGetBlockByNumberProxyParams_decodes rfl hparams hplus _
    | exact refused_of_decodes minerSetMaxDaSizeProxyParams_decodes rfl hparams hplus _
    | exact refused_of_decodes outputAtBlockProxyParams_decodes rfl hparams hplus _

/-- The request is answered with the error of invalid parameters, or of an unknown
method, and with no operation: whatever the operations do, the state is as it was. -/
def Refused (proxy : Bool) (request : Request) : Prop :=
  ∃ error, (dispatch proxy request).run = .done (.error error) ∧
    (Unserved proxy request.method → error.code = -32601) ∧
    (¬ Unserved proxy request.method → error.code = -32602) ∧
    ∀ (State Choice : Type)
      (perform : State → (op : Server.Op) → Choice → Option (Server.Reply op × State))
      (s s' : State) (answer : Except RpcError Value),
      Runs perform (dispatch proxy request).run s answer s' →
        answer = .error error ∧ s' = s

theorem refused_of_run {proxy : Bool} {request : Request} {error : RpcError}
    (hrun : (dispatch proxy request).run = .done (.error error))
    (hunserved : Unserved proxy request.method → error.code = -32601)
    (hserved : ¬ Unserved proxy request.method → error.code = -32602) :
    Refused proxy request := by
  refine ⟨error, hrun, hunserved, hserved, ?_⟩
  intro State Choice perform s s' answer h
  rw [hrun] at h
  exact runs_done.mp h

theorem refused_of_unfit {proxy : Bool} {method : String} {params : Value}
    (hparams : ¬ Fits method params) (hplus : ¬ FitsWithPlus method params) :
    Refused proxy ⟨some "2.0", method, params⟩ := by
  by_cases hserved : Unserved proxy method
  · exact refused_of_run (dispatch_unserved params hserved) (fun _ => rfl)
      fun h => absurd hserved h
  · obtain ⟨message, hrun⟩ := dispatch_served hserved hparams hplus
    exact refused_of_run hrun (fun h => absurd h hserved) fun _ => rfl

theorem arrayParams_of_lists {params : Value} {items : List Value} (h : Lists params items) :
    arrayParams params = .ok items := by
  rcases h with rfl | ⟨rfl, rfl⟩ <;> rfl

theorem stringParam_of_matches {quantity : Value → Prop} {v : Value}
    (h : Form.text.Matches quantity v) (name : String) : ∃ s, stringParam v name = .ok s := by
  obtain ⟨s, rfl⟩ := h
  exact ⟨s, rfl⟩

theorem versionParam_of_plusQuantity {v : Value} (h : PlusQuantity v) :
    ∃ n, versionParam v = .ok n := by
  obtain ⟨n, hn⟩ := h
  refine ⟨n, ?_⟩
  rw [versionParam, parseQuantity_eq_ok.mpr hn]
  rfl

theorem parse_of_hashText {s : String} (h : HashText s) : ∃ hash, Hash.parse s = .ok hash := by
  obtain ⟨hex, htext, hlength, hdigits⟩ := h
  obtain ⟨bytes, hbytes, hsize⟩ := decodeHexBytes_of_digits hdigits (by omega)
  have hmark : stripPrefix "0x" s = some hex := stripPrefix_eq_some.mpr htext
  have hlen : bytes.length = 32 := by omega
  refine ⟨⟨bytes, hlen⟩, ?_⟩
  simp only [Hash.parse, hmark, utf8ByteSize_hexDigits hdigits, hlength, ne_eq, not_true_eq_false,
    if_false, hbytes, hlen, dif_pos]

theorem accessors_of_payload {v : Value} (h : Payload PlusQuantity v) :
    ∃ n hash, (PayloadEnvelope.mk v).blockNumber = .ok n ∧
      (PayloadEnvelope.mk v).blockHash = .ok hash := by
  obtain ⟨execution, number, text, hexecution, hnumber, ⟨n, hn⟩, htext, hhash⟩ := h
  obtain ⟨hash, hparse⟩ := parse_of_hashText hhash
  unfold member at hexecution hnumber htext
  have hpayload : (PayloadEnvelope.mk v).executionPayload = .ok execution := by
    simp only [PayloadEnvelope.executionPayload, hexecution]
  refine ⟨n, hash, bind_eq_ok.mpr ⟨execution, hpayload, ?_⟩,
    bind_eq_ok.mpr ⟨execution, hpayload, ?_⟩⟩
  · simp only [hnumber]
    exact parseQuantity_eq_ok.mpr hn
  · simp only [htext]
    exact hparse

theorem idVersionParams_of_conforms {params : Value}
    (h : Conforms PlusQuantity [.text, .quantity] params) :
    ∃ r, idVersionParams params = .ok r := by
  obtain ⟨items, hitems, hmatches⟩ := h
  cases hmatches with
  | cons hid hmatches =>
  cases hmatches with
  | cons hversion hmatches =>
  cases hmatches
  obtain ⟨id, hid⟩ := stringParam_of_matches hid "id"
  obtain ⟨version, hversion⟩ := versionParam_of_plusQuantity hversion
  exact ⟨(id, version), bind_eq_ok.mpr ⟨_, arrayParams_of_lists hitems,
    bind_eq_ok.mpr ⟨id, hid, bind_eq_ok.mpr ⟨version, hversion, rfl⟩⟩⟩⟩

theorem membershipChangeParams_of_conforms {params : Value}
    (h : Conforms PlusQuantity [.text, .text, .quantity] params) :
    ∃ r, membershipChangeParams params = .ok r := by
  obtain ⟨items, hitems, hmatches⟩ := h
  cases hmatches with
  | cons hid hmatches =>
  cases hmatches with
  | cons haddr hmatches =>
  cases hmatches with
  | cons hversion hmatches =>
  cases hmatches
  obtain ⟨id, hid⟩ := stringParam_of_matches hid "id"
  obtain ⟨addr, haddr⟩ := stringParam_of_matches haddr "addr"
  obtain ⟨version, hversion⟩ := versionParam_of_plusQuantity hversion
  exact ⟨(id, addr, version), bind_eq_ok.mpr ⟨_, arrayParams_of_lists hitems,
    bind_eq_ok.mpr ⟨id, hid, bind_eq_ok.mpr ⟨addr, haddr,
      bind_eq_ok.mpr ⟨version, hversion, rfl⟩⟩⟩⟩⟩

theorem unsafePayloadParam_of_conforms {params : Value}
    (h : Conforms PlusQuantity [.payload] params) : ∃ r, unsafePayloadParam params = .ok r := by
  obtain ⟨items, hitems, hmatches⟩ := h
  cases hmatches with
  | cons hpayload hmatches =>
  cases hmatches
  obtain ⟨n, hash, hnumber, hhash⟩ := accessors_of_payload hpayload
  refine ⟨_, bind_eq_ok.mpr ⟨_, arrayParams_of_lists hitems,
    bind_eq_ok.mpr ⟨n, ?_, bind_eq_ok.mpr ⟨hash, ?_, rfl⟩⟩⟩⟩
  · rw [hnumber]
    rfl
  · rw [hhash]
    rfl

/-- Only versions and payloads have a quantity in them. -/
theorem fits_of_plain {method : String} {params : Value} {forms : List Form}
    (hforms : grammar method = some forms)
    (hplain : ∀ form ∈ forms, form ≠ .quantity ∧ form ≠ .payload)
    (h : Conforms PlusQuantity forms params) : Fits method params := by
  obtain ⟨items, hitems, hmatches⟩ := h
  refine ⟨forms, hforms, items, hitems, ?_⟩
  clear hforms hitems
  induction hmatches with
  | nil => exact .nil
  | @cons form v forms items hv _ ih =>
      have hform := hplain form List.mem_cons_self
      refine .cons ?_ (ih fun form' hmem => hplain form' (List.mem_cons_of_mem form hmem))
      cases form with
      | quantity => exact absurd rfl hform.1
      | payload => exact absurd rfl hform.2
      | _ => exact hv

/-- What a method does with its parameters comes first after they have been read. -/
theorem performs_of_decoded {α : Type} {decoded : Except RpcError α} {a : α}
    (h : decoded = .ok a) {k : α → Handler Value} {op : Server.Op}
    {next : Server.Reply op → Task Server (Except RpcError Value)}
    (hk : (k a).run = .perform op next) (error : RpcError) :
    (Handler.check decoded >>= k).run ≠ .done (.error error) := by
  have hrun : (Handler.check decoded >>= k).run = (k a).run := by
    rw [h]
    rfl
  rw [hrun, hk]
  intro h
  cases h

theorem dispatch_of_fitsWithPlus {proxy : Bool} {method : String} {params : Value}
    (h : FitsWithPlus method params) (error : RpcError) :
    (dispatch proxy ⟨some "2.0", method, params⟩).run ≠ .done (.error error) := by
  obtain ⟨hfits, forms, hforms, hconforms⟩ := h
  have hplus : ¬ ∀ form ∈ forms, form ≠ .quantity ∧ form ≠ .payload :=
    fun hplain => hfits (fits_of_plain hforms hplain hconforms)
  clear hfits
  unfold grammar at hforms
  split at hforms <;> cases hforms
  case h_20 | h_21 =>
    obtain ⟨r, hr⟩ := membershipChangeParams_of_conforms hconforms
    cases proxy <;> exact performs_of_decoded hr rfl error
  case h_22 | h_23 =>
    obtain ⟨r, hr⟩ := idVersionParams_of_conforms hconforms
    cases proxy <;> exact performs_of_decoded hr rfl error
  case h_24 =>
    obtain ⟨r, hr⟩ := unsafePayloadParam_of_conforms hconforms
    cases proxy <;> exact performs_of_decoded hr rfl error
  all_goals exact absurd (by decide) hplus

/-- A request whose parameters do not fit its method is refused, and has no effect,
exactly when they would not fit either with a plus before the digits of a version or
of the block number of a payload. -/
theorem unfit_params_refused_iff (proxy : Bool) (request : Request)
    (hversion : request.jsonrpc = some "2.0") (hparams : ¬ Fits request.method request.params) :
    Refused proxy request ↔ ¬ FitsWithPlus request.method request.params := by
  obtain ⟨jsonrpc, method, params⟩ := request
  dsimp only at hversion hparams ⊢
  subst hversion
  refine ⟨?_, refused_of_unfit hparams⟩
  rintro ⟨error, hrun, -⟩ hplus
  exact dispatch_of_fitsWithPlus hplus error hrun

theorem fits_removeServer {id version : Value}
    (h : Fits "conductor_removeServer" (.array [id, version])) : Quantity version := by
  obtain ⟨forms, hforms, items, hitems, hmatches⟩ := h
  cases hforms
  rcases hitems with h | ⟨h, -⟩ <;> cases h
  cases hmatches with
  | cons _ hmatches =>
  cases hmatches with
  | cons hquantity _ => exact hquantity

/-- A plus alone is no version. -/
theorem lone_plus_refused :
    Refused false ⟨some "2.0", "conductor_removeServer", .array [.string "a", .string "+"]⟩ := by
  have hunread : ∀ n, ¬ (Denotes (.string "+") n ∨ PlusNumber (.string "+") n) := by
    intro n hn
    cases parseQuantity_eq_ok.mpr hn
  refine (unfit_params_refused_iff false _ rfl ?_).mpr ?_
  · intro hfits
    obtain ⟨n, hn⟩ := fits_removeServer hfits
    exact hunread n (.inl hn)
  · rintro ⟨-, forms, hforms, items, hitems, hmatches⟩
    cases hforms
    rcases hitems with h | ⟨h, -⟩ <;> cases h
    cases hmatches with
    | cons _ hmatches =>
    cases hmatches with
    | cons hquantity _ =>
        obtain ⟨n, hn⟩ := hquantity
        exact hunread n hn

/-- Every change of the membership is carried out, and nothing else happens. -/
def recordChange (changes : List MembershipCall) :
    (op : Server.Op) → Unit → Option (Server.Reply op × List MembershipCall)
  | .inr (.changeMembership call), _ => some (.ok (), changes ++ [call])
  | _, _ => none

/-- A version with a plus is not of the grammar, and the server is removed. -/
theorem signed_version_removes :
    ¬ Fits "conductor_removeServer" (.array [.string "a", .string "+5"]) ∧
    Runs recordChange
      (dispatch false
        ⟨some "2.0", "conductor_removeServer", .array [.string "a", .string "+5"]⟩).run
      [] (.ok .null) [.removeServer "a" 5] := by
  constructor
  · intro hfits
    obtain ⟨n, hn⟩ := fits_removeServer hfits
    have hfive : Digits 10 ['5'] 5 := ⟨by simp, List.forall_mem_singleton.mpr rfl, rfl, by decide⟩
    exact PlusNumber.not_denotes (.decimal rfl hfive) n hn
  · exact runs_of_execute_eq (x := ()) rfl

end ConductorRs.Rpc
