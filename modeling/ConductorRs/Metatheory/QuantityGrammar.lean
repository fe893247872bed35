import ConductorRs.Metatheory.ParamsGrammar

/-!
The quantities that `parse_quantity` reads.

A quantity is an integer of 64 bits, or a text of its digits, hexadecimal after
`0x` and decimal otherwise. What is accepted is this grammar, except for the texts
of such a number with a plus before its digits. The decoder of the server is
stricter, and reads the same numbers.
-/
namespace ConductorRs
open Rpc (HexNumber hexQuantity decodeHexQuantity)
open Collections

/-- A value is read as what it denotes, and not otherwise, unless it is the text of a
number with a plus. -/
theorem parseQuantity_exact_iff (v : Value) :
    (∀ n, parseQuantity v = .ok n ↔ Denotes v n) ↔ ¬ ∃ n, PlusNumber v n := by
  constructor
  · rintro h ⟨n, hn⟩
    exact hn.not_denotes n ((h n).mp (parseQuantity_eq_ok.mpr (.inr hn)))
  · intro h n
    rw [parseQuantity_eq_ok]
    exact or_iff_left fun hn => h ⟨n, hn⟩

theorem parseQuantity_of_hexDigits {s : String} {hex : List Char} {n : Nat}
    (htext : s.toList = '0' :: 'x' :: hex) (hdigits : Digits 16 hex n) :
    parseQuantity (.string s) = .ok n :=
  parseQuantity_eq_ok.mpr (.inl (.hexadecimal htext hdigits))

theorem toList_hexQuantity (n : Nat) :
    (hexQuantity n).toList = '0' :: 'x' :: Nat.toDigits 16 n := by
  simp [hexQuantity]

theorem parseQuantity_hexQuantity {n : Nat} (h : n < UInt64.size) :
    parseQuantity (.string (hexQuantity n)) = .ok n :=
  parseQuantity_of_hexDigits (toList_hexQuantity n)
    ⟨Nat.toDigits_ne_nil, List.all_eq_true.mp (asciiHexDigit_toDigits n), digitsValue_toDigits n, h⟩

/-- What the server's decoder reads after a small `0x` is read the same here. -/
theorem parseQuantity_of_decodeHexQuantity {s : String} {n : Nat}
    (h : decodeHexQuantity s = .ok n) (hmark : "0x".toList <+: s.toList) :
    parseQuantity (.string s) = .ok n := by
  have hchecked := Rpc.decodeHexQuantity_checked s
  rw [h] at hchecked
  obtain ⟨⟨hex, htext, hne, -, hdigits, hvalue⟩, hlt⟩ := hchecked
  obtain ⟨rest, hrest⟩ := hmark
  rcases htext with htext | hupper
  · exact parseQuantity_of_hexDigits htext ⟨hne, List.all_eq_true.mp hdigits, hvalue, hlt⟩
  · rw [← hrest] at hupper
    cases hupper

/-- A value is read as the number it denotes, and not otherwise, exactly when it is not
the text of a number with a plus before its digits. What `0x{n:x}` prints is read back,
and what the server's decoder takes after a small `0x` is read the same. -/
theorem quantity_grammar (v : Value) (n : Nat) :
    ((∀ m, parseQuantity v = .ok m ↔ Denotes v m) ↔ ¬ ∃ m, PlusNumber v m) ∧
    (v = .string (hexQuantity n) → n < UInt64.size → parseQuantity v = .ok n) ∧
    ∀ s, v = .string s → decodeHexQuantity s = .ok n → "0x".toList <+: s.toList →
      parseQuantity v = .ok n := by
  refine ⟨parseQuantity_exact_iff v, ?_, ?_⟩
  · rintro rfl hn
    exact parseQuantity_hexQuantity hn
  · rintro s rfl hdecoded hmark
    exact parseQuantity_of_decodeHexQuantity hdecoded hmark

/-- A plus without digits behind it is refused. -/
theorem leading_zero_quantity :
    Denotes (.string "0x0fF") 255 ∧ (¬ ∃ n, decodeHexQuantity "0x0fF" = .ok n) ∧
    (∀ n, parseQuantity (.string "++5") = .ok n ↔ Denotes (.string "++5") n) := by
  have hplain : ¬ ∃ n, PlusNumber (.string "0x0fF") n := by
    rintro ⟨n, h⟩
    cases h with
    | hexadecimal htext _ | decimal htext _ => cases htext
  have htwice : ¬ ∃ n, PlusNumber (.string "++5") n := by
    rintro ⟨n, h⟩
    cases h with
    | hexadecimal htext _ => cases htext
    | decimal htext hdigits =>
        cases htext
        exact hdigits.no_plus _ rfl
  refine ⟨((quantity_grammar _ 255).1.mpr hplain 255).mp rfl, ?_,
    (quantity_grammar _ 5).1.mpr htwice⟩
  rintro ⟨n, hn⟩
  cases hn

/-- A text with a plus before its digits is read, though it denotes no number. -/
theorem signed_quantity_accepted :
    parseQuantity (.string "+5") = .ok 5 ∧ (∀ n, ¬ Denotes (.string "+5") n) ∧
    parseQuantity (.string "0x+5") = .ok 5 ∧ (∀ n, ¬ Denotes (.string "0x+5") n) := by
  refine ⟨rfl, ?_, rfl, ?_⟩
  · intro n h
    cases h with
    | hexadecimal htext _ => cases htext
    | decimal hdigits => cases hdigits.2.1 '+' (by decide)
  · intro n h
    cases h with
    | hexadecimal htext hdigits =>
        cases htext
        cases hdigits.2.1 '+' (by decide)
    | decimal hdigits => cases hdigits.2.1 'x' (by decide)

end ConductorRs
