import ConductorRs.Collections.Checks
import ConductorRs.Core.RollupConfig
import ConductorRs.Metatheory.Numerals

/-!
What an accepted rollup configuration says. Its fields are texts and numbers in
several spellings; the two genesis hashes are the only fields that are compared
as they are spelled.
-/
namespace ConductorRs.RollupConfig

open Collections
open Rpc (asciiHexDigit)

/-- The text of a field without its mark, which is in either case. -/
def hexText (value : Option Value) : Option (List Char) :=
  (value.bind Value.asStr).bind fun raw => (stripPrefix "0x" raw).or (stripPrefix "0X" raw)

def hexBytes (value : Option Value) : Option (List UInt8) :=
  (hexText value).bind decodeHexBytes

/-- A number, or a text that Rust parses as one. -/
def integer : Option Value → Option Nat
  | some (.number number) => number.asU64
  | some (.string raw) => u64FromStrRadix 10 raw.toList
  | _ => none

/-- A field that spells so many bytes, not all of them zero. -/
def NonZeroBytes (size : Nat) (value : Option Value) : Prop :=
  ∃ bytes, hexBytes value = some bytes ∧ bytes.length = size ∧ bytes ≠ List.replicate size 0

def NonZeroInteger (value : Option Value) : Prop :=
  ∃ n, integer value = some n ∧ n ≠ 0 ∧ n < UInt64.size

structure Meaningful (config : Value) : Prop where
  l1Hash : NonZeroBytes 32 (pointer config ["genesis", "l1", "hash"])
  l2Hash : NonZeroBytes 32 (pointer config ["genesis", "l2", "hash"])
  hashes : hexBytes (pointer config ["genesis", "l1", "hash"]) ≠
    hexBytes (pointer config ["genesis", "l2", "hash"])
  scalar : NonZeroBytes 32 (pointer config ["genesis", "system_config", "scalar"])
  batcherAddr : NonZeroBytes 20 (pointer config ["genesis", "system_config", "batcherAddr"])
  batchInbox : NonZeroBytes 20 (config.get "batch_inbox_address")
  depositContract : NonZeroBytes 20 (config.get "deposit_contract_address")
  l2Time : NonZeroInteger (pointer config ["genesis", "l2_time"])
  gasLimit : NonZeroInteger (pointer config ["genesis", "system_config", "gasLimit"])
  blockTime : NonZeroInteger (config.get "block_time")
  channelTimeout : NonZeroInteger (config.get "channel_timeout")
  maxSequencerDrift : NonZeroInteger (config.get "max_sequencer_drift")
  seqWindowSize : ∃ n, integer (config.get "seq_window_size") = some n ∧ 2 ≤ n
  chainIds : ∃ l1 l2, integer (config.get "l1_chain_id") = some l1 ∧
    integer (config.get "l2_chain_id") = some l2 ∧ l1 ≠ 0 ∧ l2 ≠ 0 ∧ l1 ≠ l2

/-- The text of a field as it reads when case is ignored. -/
def caseless (value : Option Value) : Option (List Char) :=
  (value.bind Value.asStr).map fun raw => raw.toList.map Char.toLower

theorem numericValue_ok {value : Option Value} {name : String} {n : Nat}
    (h : numericValue value name = .ok n) : integer value = some n ∧ n < UInt64.size := by
  unfold numericValue at h
  split at h
  · rename_i number
    cases number with
    | posInt m =>
        cases h
        exact ⟨rfl, m.toNat_lt⟩
    | negInt m => cases h
    | float text => cases h
  · rename_i raw
    cases hn : u64FromStrRadix 10 raw.toList with
    | none =>
        rw [hn] at h
        cases h
    | some m =>
        rw [hn] at h
        cases h
        exact ⟨hn, u64FromStrRadix_lt hn⟩
  · cases h

theorem nonZeroU64_ok {value : Option Value} {name : String} {n : Nat}
    (h : nonZeroU64 value name = .ok n) : NonZeroInteger value := by
  simp only [nonZeroU64, bind_eq_ok, stop_eq_ok] at h
  obtain ⟨m, hm, hzero, _⟩ := h
  obtain ⟨hvalue, hlt⟩ := numericValue_ok hm
  exact ⟨m, hvalue, hzero, hlt⟩

/-- An accepted text is made of digits, the expected number of them. -/
theorem nonZeroHex_ok {digits : Nat} {kind name : String} {value : Option Value}
    (h : nonZeroHex digits kind value name = .ok ()) :
    ∃ hex, hexText value = some hex ∧ hex.length = digits ∧ hex.all asciiHexDigit = true ∧
      ¬ ∀ c ∈ hex, c = '0' := by
  unfold nonZeroHex at h
  split at h
  · rename_i raw hraw
    split at h
    · rename_i hex hhex
      simp only [stop_eq_ok, throw_eq_ok, not_or, ne_eq, not_not, Bool.not_eq_false] at h
      obtain ⟨⟨hsize, hdigits⟩, hzero, _⟩ := h
      refine ⟨hex, ?_, ?_, hdigits, ?_⟩
      · rw [hexText, hraw]
        exact hhex
      · rw [← hsize, utf8ByteSize_hexDigits hdigits]
      · simpa using hzero
    · cases h
  · cases h

theorem nonZeroBytes_of_ok {size : Nat} {kind name : String} {value : Option Value}
    (h : nonZeroHex (2 * size) kind value name = .ok ()) : NonZeroBytes size value := by
  obtain ⟨hex, htext, hlen, hdigits, hzero⟩ := nonZeroHex_ok h
  obtain ⟨bytes, hbytes, hsize⟩ := decodeHexBytes_of_digits hdigits (by omega)
  refine ⟨bytes, ?_, by omega, ?_⟩
  · rw [hexBytes, htext]
    exact hbytes
  · intro hreplicate
    rw [hreplicate] at hbytes
    exact hzero (eq_zero_of_decodeHexBytes hdigits hbytes)

theorem nonEmptyHash_ok {value : Option Value} {name : String} {u : Unit}
    (h : nonEmptyHash value name = .ok u) : NonZeroBytes 32 value :=
  nonZeroBytes_of_ok h

theorem nonZeroAddress_ok {value : Option Value} {name : String} {u : Unit}
    (h : nonZeroAddress value name = .ok u) : NonZeroBytes 20 value :=
  nonZeroBytes_of_ok h

/-- Both marks read the same when case is ignored. -/
theorem caseless_of_hexText {value : Option Value} {hex : List Char}
    (h : hexText value = some hex) :
    caseless value = some (['0', 'x'] ++ hex.map Char.toLower) := by
  obtain ⟨raw, hraw, hhex⟩ := Option.bind_eq_some_iff.mp h
  rw [caseless, hraw, Option.map_some]
  rcases Option.or_eq_some_iff.mp hhex with hlower | ⟨_, hupper⟩
  · rw [stripPrefix_eq_some.mp hlower, List.map_append]
    rfl
  · rw [stripPrefix_eq_some.mp hupper, List.map_append]
    rfl

/-- Two hashes are the same bytes exactly when they read the same in lower case. -/
theorem hexBytes_eq_iff {value value' : Option Value} {size : Nat}
    (h : NonZeroBytes size value) (h' : NonZeroBytes size value') :
    hexBytes value = hexBytes value' ↔ caseless value = caseless value' := by
  obtain ⟨bytes, hbytes, _⟩ := h
  obtain ⟨bytes', hbytes', _⟩ := h'
  rw [hbytes, hbytes', Option.some.injEq]
  obtain ⟨hex, htext, hdecode⟩ := Option.bind_eq_some_iff.mp hbytes
  obtain ⟨hex', htext', hdecode'⟩ := Option.bind_eq_some_iff.mp hbytes'
  rw [caseless_of_hexText htext, caseless_of_hexText htext', Option.some.injEq,
    List.append_cancel_left_eq]
  exact decodeHexBytes_eq_iff hdecode hdecode'

/-- An accepted configuration is meaningful, provided that its genesis hashes do
not differ in the case of letters alone. -/
theorem accepted_meaningful_iff (config : Value) (h : validateRollupConfigJson config = .ok ()) :
    Meaningful config ↔ caseless (pointer config ["genesis", "l1", "hash"]) ≠
      caseless (pointer config ["genesis", "l2", "hash"]) := by
  simp only [validateRollupConfigJson, bind_eq_ok, stop_eq_ok, not_or, not_lt] at h
  obtain ⟨_, hl1, _, hl2, _, _, hl2Time, _, hbatcher, _, hscalar, _, hgas, _, hblockTime, _,
    hchannel, _, hdrift, _, hwindow, htwo, l1, hl1Id, l2, hl2Id, ⟨hl1Zero, hl2Zero⟩, hdiffer, _,
    hinbox, hdeposit⟩ := h
  have l1Hash := nonEmptyHash_ok hl1
  have l2Hash := nonEmptyHash_ok hl2
  have hspelling := not_congr (hexBytes_eq_iff l1Hash l2Hash)
  constructor
  · intro hconfig
    exact hspelling.mp hconfig.hashes
  · intro hcase
    exact {
      l1Hash := l1Hash
      l2Hash := l2Hash
      hashes := hspelling.mpr hcase
      scalar := nonEmptyHash_ok hscalar
      batcherAddr := nonZeroAddress_ok hbatcher
      batchInbox := nonZeroAddress_ok hinbox
      depositContract := nonZeroAddress_ok hdeposit
      l2Time := nonZeroU64_ok hl2Time
      gasLimit := nonZeroU64_ok hgas
      blockTime := nonZeroU64_ok hblockTime
      channelTimeout := nonZeroU64_ok hchannel
      maxSequencerDrift := nonZeroU64_ok hdrift
      seqWindowSize := ⟨_, (numericValue_ok hwindow).1, htwo⟩
      chainIds := ⟨l1, l2, (numericValue_ok hl1Id).1, (numericValue_ok hl2Id).1, hl1Zero, hl2Zero,
        hdiffer⟩ }

/-- A configuration with the given genesis hashes. -/
def withHashes (l1 l2 : String) : Value :=
  .object [
    ("genesis", .object [
      ("l1", .object [("hash", .string l1)]),
      ("l2", .object [("hash", .string l2)]),
      ("l2_time", .number (.posInt 1)),
      ("system_config", .object [
        ("batcherAddr", .string "0x0000000000000000000000000000000000000001"),
        ("scalar", .string "0x0000000000000000000000000000000000000000000000000000000000000001"),
        ("gasLimit", .string "30000000")])]),
    ("block_time", .number (.posInt 2)),
    ("channel_timeout", .number (.posInt 300)),
    ("max_sequencer_drift", .number (.posInt 600)),
    ("seq_window_size", .number (.posInt 3600)),
    ("l1_chain_id", .number (.posInt 1)),
    ("l2_chain_id", .number (.posInt 10)),
    ("batch_inbox_address", .string "0xff00000000000000000000000000000000000010"),
    ("deposit_contract_address", .string "0x0000000000000000000000000000000000000002")]

theorem different_hashes_meaningful : Meaningful (withHashes
    "0x00000000000000000000000000000000000000000000000000000000000000aa"
    "0x00000000000000000000000000000000000000000000000000000000000000ab") := by
  refine (accepted_meaningful_iff _ ?_).mpr ?_
  · decide +kernel
  · decide +kernel

/-- One hash in two spellings passes for two hashes. -/
theorem one_hash_accepted_twice :
    validateRollupConfigJson (withHashes
      "0x00000000000000000000000000000000000000000000000000000000000000aa"
      "0x00000000000000000000000000000000000000000000000000000000000000AA") = .ok () ∧
    ¬ Meaningful (withHashes
      "0x00000000000000000000000000000000000000000000000000000000000000aa"
      "0x00000000000000000000000000000000000000000000000000000000000000AA") := by
  constructor
  · decide +kernel
  · intro hconfig
    exact hconfig.hashes (by decide +kernel)

end ConductorRs.RollupConfig
