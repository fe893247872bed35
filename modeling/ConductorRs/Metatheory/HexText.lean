import Mathlib.Tactic.IntervalCases
import ConductorRs.Core.RpcRequest

/-!
Texts of digits. A digit is known by its value up to the case of its letter, so
two hexadecimal texts decode to the same bytes exactly when they are the same in
lower case.
-/
namespace ConductorRs

open Rpc (asciiHexDigit)

/-- The characters that have a value, with their values. -/
theorem toDigit_cases {radix : Nat} {c : Char} {d : Nat} (h : toDigit radix c = some d) :
    d < radix ∧ (d < 10 ∧ c.toNat = 48 + d ∨
      10 ≤ d ∧ (c.toNat = 87 + d ∨ c.toNat = 55 + d)) := by
  simp only [toDigit, Option.filter_eq_some_iff, decide_eq_true_eq] at h
  obtain ⟨hvalue, hlt⟩ := h
  refine ⟨hlt, ?_⟩
  have digit : ∀ a b : Char, a ≤ b ↔ a.toNat ≤ b.toNat := fun a b => Iff.rfl
  simp only [digit] at hvalue
  have hn : ('0' : Char).toNat = 48 ∧ ('9' : Char).toNat = 57 ∧ ('a' : Char).toNat = 97 ∧
      ('z' : Char).toNat = 122 ∧ ('A' : Char).toNat = 65 ∧ ('Z' : Char).toNat = 90 := by decide
  obtain ⟨h0, h9, ha, hz, hA, hZ⟩ := hn
  rw [h0, h9, ha, hz, hA, hZ] at hvalue
  split at hvalue
  · cases hvalue
    omega
  · split at hvalue
    · cases hvalue
      omega
    · split at hvalue
      · cases hvalue
        omega
      · cases hvalue

theorem toLower_of_toDigit {c : Char} {d : Nat} (h : toDigit 16 c = some d) :
    c.toLower = Nat.digitChar d := by
  obtain ⟨hlt, hcases⟩ := toDigit_cases h
  have hc : c = Char.ofNat c.toNat := (Char.ofNat_toNat c).symm
  rcases hcases with ⟨_, hn⟩ | ⟨_, hn | hn⟩
  all_goals
    rw [hn] at hc
    subst hc
    clear hn h
    interval_cases d <;> rfl

theorem toDigit_lt {radix : Nat} {c : Char} {d : Nat} (h : toDigit radix c = some d) :
    d < radix :=
  (toDigit_cases h).1

theorem digitChar_inj {d e : Nat} (hd : d < 16) (he : e < 16)
    (h : Nat.digitChar d = Nat.digitChar e) : d = e := by
  have injective : ∀ d < 16, ∀ e < 16, Nat.digitChar d = Nat.digitChar e → d = e := by decide
  exact injective d hd e he h

/-- Case is all that is lost between a hexadecimal digit and its value. -/
theorem toLower_eq_iff {c c' : Char} {d d' : Nat} (h : toDigit 16 c = some d)
    (h' : toDigit 16 c' = some d') : c.toLower = c'.toLower ↔ d = d' := by
  rw [toLower_of_toDigit h, toLower_of_toDigit h']
  constructor
  · exact digitChar_inj (toDigit_lt h) (toDigit_lt h')
  · exact congrArg Nat.digitChar

theorem toDigit_digitChar {d : Nat} (h : d < 16) : toDigit 16 (Nat.digitChar d) = some d := by
  have digits : ∀ d < 16, toDigit 16 (Nat.digitChar d) = some d := by decide
  exact digits d h

/-- No letter is a zero in lower case. -/
theorem eq_zero_of_toLower {c : Char} (h : asciiHexDigit c = true) (hzero : c.toLower = '0') :
    c = '0' := by
  obtain ⟨d, hd⟩ := Option.isSome_iff_exists.mp h
  have zero : toDigit 16 '0' = some 0 := rfl
  have hvalue : d = 0 := (toLower_eq_iff hd zero).mp hzero
  subst hvalue
  obtain ⟨_, hcases⟩ := toDigit_cases hd
  have hn : c.toNat = 48 := by omega
  rw [← Char.ofNat_toNat c, hn]

theorem utf8Size_hexDigit {c : Char} (h : asciiHexDigit c = true) : c.utf8Size = 1 := by
  obtain ⟨d, hd⟩ := Option.isSome_iff_exists.mp h
  obtain ⟨hlt, hcases⟩ := toDigit_cases hd
  have hn : c.toNat ≤ 127 := by omega
  exact Char.utf8Size_eq_one_iff.mpr hn

theorem stripPrefix_eq_some {head s : String} {rest : List Char} :
    stripPrefix head s = some rest ↔ s.toList = head.toList ++ rest := by
  unfold stripPrefix
  constructor
  · intro h
    split at h
    · rename_i hmark
      cases h
      obtain ⟨rest, hrest⟩ := hmark
      rw [← hrest, List.drop_left]
    · cases h
  · intro h
    rw [if_pos ⟨rest, h.symm⟩, h, List.drop_left]

/-- The two digits of a byte, in lower case. -/
def hexPair (b : UInt8) : List Char :=
  [Nat.digitChar (b.toNat / 16), Nat.digitChar (b.toNat % 16)]

theorem hexPair_ofNat {h l : Nat} (hh : h < 16) (hl : l < 16) :
    hexPair (UInt8.ofNat (h * 16 + l)) = [Nat.digitChar h, Nat.digitChar l] := by
  have hn : (UInt8.ofNat (h * 16 + l)).toNat = h * 16 + l := by
    rw [UInt8.toNat_ofNat']
    omega
  have hdiv : (h * 16 + l) / 16 = h := by omega
  have hmod : (h * 16 + l) % 16 = l := by omega
  rw [hexPair, hn, hdiv, hmod]

theorem decodeHexBytes_pair (high low : Char) (rest : List Char) :
    decodeHexBytes (high :: low :: rest) =
      (toDigit 16 high).bind fun h => (toDigit 16 low).bind fun l =>
        (decodeHexBytes rest).map (UInt8.ofNat (h * 16 + l) :: ·) := by
  simp only [decodeHexBytes, Option.map_eq_bind]
  rfl

/-- The bytes of a text spell the text again, in lower case. -/
theorem toLower_of_decodeHexBytes {cs : List Char} {bytes : List UInt8}
    (h : decodeHexBytes cs = some bytes) : cs.map Char.toLower = bytes.flatMap hexPair := by
  induction cs using decodeHexBytes.induct generalizing bytes with
  | case1 =>
      cases h
      rfl
  | case2 c => cases h
  | case3 high low rest ih =>
      rw [decodeHexBytes_pair] at h
      obtain ⟨dh, hh, h⟩ := Option.bind_eq_some_iff.mp h
      obtain ⟨dl, hl, h⟩ := Option.bind_eq_some_iff.mp h
      obtain ⟨tail, htail, hbytes⟩ := Option.map_eq_some_iff.mp h
      subst hbytes
      rw [List.flatMap_cons, hexPair_ofNat (toDigit_lt hh) (toDigit_lt hl), ← ih htail,
        List.map_cons, List.map_cons, toLower_of_toDigit hh, toLower_of_toDigit hl]
      rfl

theorem decodeHexBytes_hexPairs (bytes : List UInt8) :
    decodeHexBytes (bytes.flatMap hexPair) = some bytes := by
  induction bytes with
  | nil => rfl
  | cons b bytes ih =>
      have hb : b.toNat < 256 := b.toNat_lt
      have hvalue : b.toNat / 16 * 16 + b.toNat % 16 = b.toNat := Nat.div_add_mod' _ _
      rw [List.flatMap_cons, hexPair, List.cons_append, List.cons_append, List.nil_append,
        decodeHexBytes_pair, toDigit_digitChar (by omega), toDigit_digitChar (by omega), ih]
      simp only [Option.bind_some, Option.map_some, hvalue, UInt8.ofNat_toNat]

/-- Two texts of the same bytes differ in the case of their letters at most. -/
theorem decodeHexBytes_eq_iff {cs cs' : List Char} {bytes bytes' : List UInt8}
    (h : decodeHexBytes cs = some bytes) (h' : decodeHexBytes cs' = some bytes') :
    bytes = bytes' ↔ cs.map Char.toLower = cs'.map Char.toLower := by
  rw [toLower_of_decodeHexBytes h, toLower_of_decodeHexBytes h']
  constructor
  · exact congrArg (List.flatMap hexPair)
  · intro heq
    have hdecoded := congrArg decodeHexBytes heq
    rw [decodeHexBytes_hexPairs, decodeHexBytes_hexPairs] at hdecoded
    exact Option.some.inj hdecoded

/-- A text of zero bytes has no other digit than zero. -/
theorem eq_zero_of_decodeHexBytes {cs : List Char} {n : Nat} (hcs : cs.all asciiHexDigit = true)
    (h : decodeHexBytes cs = some (List.replicate n 0)) : ∀ c ∈ cs, c = '0' := by
  intro c hc
  have hlower : c.toLower ∈ (List.replicate n 0).flatMap hexPair := by
    rw [← toLower_of_decodeHexBytes h]
    exact List.mem_map_of_mem hc
  obtain ⟨b, hb, hmem⟩ := List.mem_flatMap.mp hlower
  rw [List.eq_of_mem_replicate hb] at hmem
  have hzero : c.toLower = '0' := by
    have pair : hexPair 0 = ['0', '0'] := rfl
    rw [pair] at hmem
    simpa using hmem
  exact eq_zero_of_toLower (List.all_eq_true.mp hcs c hc) hzero

theorem utf8ByteSize_hexDigits {cs : List Char} (h : cs.all asciiHexDigit = true) :
    (String.ofList cs).utf8ByteSize = cs.length := by
  induction cs with
  | nil => rfl
  | cons c cs ih =>
      rw [List.all_cons, Bool.and_eq_true] at h
      have split : String.ofList (c :: cs) = String.ofList [c] ++ String.ofList cs := by
        rw [← String.ofList_append, List.singleton_append]
      have one : (String.ofList [c]).utf8ByteSize = c.utf8Size := String.utf8ByteSize_singleton
      rw [split, String.utf8ByteSize_append, ih h.2, one, utf8Size_hexDigit h.1,
        List.length_cons, Nat.add_comm]

/-- An even number of hexadecimal digits is the text of half as many bytes. -/
theorem decodeHexBytes_of_digits {cs : List Char} (hcs : cs.all asciiHexDigit = true)
    (hlen : cs.length % 2 = 0) :
    ∃ bytes, decodeHexBytes cs = some bytes ∧ 2 * bytes.length = cs.length := by
  induction cs using decodeHexBytes.induct with
  | case1 => exact ⟨[], rfl, rfl⟩
  | case2 c => cases hlen
  | case3 high low rest ih =>
      simp only [List.all_cons, Bool.and_eq_true] at hcs
      obtain ⟨hhigh, hlow, hrest⟩ := hcs
      obtain ⟨h, hh⟩ := Option.isSome_iff_exists.mp hhigh
      obtain ⟨l, hl⟩ := Option.isSome_iff_exists.mp hlow
      simp only [List.length_cons] at hlen
      obtain ⟨tail, htail, hsize⟩ := ih hrest (by omega)
      refine ⟨UInt8.ofNat (h * 16 + l) :: tail, ?_, ?_⟩
      · rw [decodeHexBytes_pair, hh, hl, htail]
        rfl
      · simp only [List.length_cons]
        omega

/-- Only digits decode, two to a byte. -/
theorem digits_of_decodeHexBytes {cs : List Char} {bytes : List UInt8}
    (h : decodeHexBytes cs = some bytes) :
    cs.all asciiHexDigit = true ∧ cs.length = 2 * bytes.length := by
  induction cs using decodeHexBytes.induct generalizing bytes with
  | case1 =>
      cases h
      exact ⟨rfl, rfl⟩
  | case2 c => cases h
  | case3 high low rest ih =>
      rw [decodeHexBytes_pair] at h
      obtain ⟨dh, hh, h⟩ := Option.bind_eq_some_iff.mp h
      obtain ⟨dl, hl, h⟩ := Option.bind_eq_some_iff.mp h
      obtain ⟨tail, htail, hbytes⟩ := Option.map_eq_some_iff.mp h
      subst hbytes
      obtain ⟨hdigits, hlen⟩ := ih htail
      constructor
      · simp only [List.all_cons, asciiHexDigit, hh, hl, Option.isSome_some, Bool.true_and]
        exact hdigits
      · simp only [List.length_cons]
        omega

end ConductorRs
