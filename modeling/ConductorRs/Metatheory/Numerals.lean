import ConductorRs.Metatheory.HexText

/-!
Numbers in digits. What `u64::from_str_radix` reads is exactly the digits of a
number of 64 bits, after a plus or not; so `parse_quantity` reads the values that
denote a number, and texts that have a plus before the digits of one. What `{:x}`
prints is the one text without leading zeros and capitals that spells the number.
-/
namespace ConductorRs

open Rpc (asciiHexDigit)

/-- The number that digits go on to spell. -/
def digitsValue (radix n : Nat) (digits : List Char) : Nat :=
  digits.foldl (fun n c => n * radix + (toDigit radix c).getD 0) n

/-- A number of 64 bits in digits. -/
def Digits (radix : Nat) (text : List Char) (n : Nat) : Prop :=
  text ≠ [] ∧ (∀ c ∈ text, (toDigit radix c).isSome) ∧ digitsValue radix 0 text = n ∧
    n < UInt64.size

/-- What the number parsers of Rust read, with or without a plus. -/
def Numeral (radix : Nat) (text : List Char) (n : Nat) : Prop :=
  ∃ digits, (text = digits ∨ text = '+' :: digits) ∧ Digits radix digits n

/-- The values that denote a number. Integers below zero are kept apart from the
others, so each integer that denotes one is a `posInt`. -/
inductive Denotes : Value → Nat → Prop where
  | integer (n : UInt64) : Denotes (.number (.posInt n)) n.toNat
  | hexadecimal {s : String} {hex : List Char} {n : Nat} :
      s.toList = '0' :: 'x' :: hex → Digits 16 hex n → Denotes (.string s) n
  | decimal {s : String} {n : Nat} : Digits 10 s.toList n → Denotes (.string s) n

/-- A text of a number with a plus before its digits. -/
inductive PlusNumber : Value → Nat → Prop where
  | hexadecimal {s : String} {hex : List Char} {n : Nat} :
      s.toList = '0' :: 'x' :: '+' :: hex → Digits 16 hex n → PlusNumber (.string s) n
  | decimal {s : String} {digits : List Char} {n : Nat} :
      s.toList = '+' :: digits → Digits 10 digits n → PlusNumber (.string s) n

theorem u64Digits_cons (radix n : Nat) (c : Char) (cs : List Char) :
    u64Digits radix n (c :: cs) = (toDigit radix c).bind fun d =>
      if n * radix + d < UInt64.size then u64Digits radix (n * radix + d) cs else none :=
  rfl

theorem u64Digits_some {radix : Nat} {cs : List Char} {n m : Nat}
    (h : u64Digits radix n cs = some m) (hn : n < UInt64.size) :
    (∀ c ∈ cs, (toDigit radix c).isSome) ∧ digitsValue radix n cs = m ∧ m < UInt64.size := by
  induction cs generalizing n with
  | nil =>
      cases h
      exact ⟨by simp, rfl, hn⟩
  | cons c cs ih =>
      rw [u64Digits_cons] at h
      obtain ⟨d, hd, h⟩ := Option.bind_eq_some_iff.mp h
      split at h
      · rename_i hlt
        obtain ⟨hdigits, hvalue, hm⟩ := ih h hlt
        refine ⟨?_, ?_, hm⟩
        · intro c' hc'
          rcases List.mem_cons.mp hc' with rfl | hc'
          · rw [hd]
            rfl
          · exact hdigits c' hc'
        · rw [← hvalue]
          simp only [digitsValue, List.foldl_cons, hd, Option.getD_some]
      · cases h

theorem numeral_of_u64FromStrRadix {radix : Nat} {cs : List Char} {n : Nat}
    (h : u64FromStrRadix radix cs = some n) : Numeral radix cs n := by
  have zero : 0 < UInt64.size := by decide
  unfold u64FromStrRadix at h
  split at h
  · cases h
  · cases h
  · rename_i digits hne
    refine ⟨digits, .inr rfl, ?_, u64Digits_some h zero⟩
    intro hnil
    exact hne (by rw [hnil])
  · rename_i hnil _ _
    exact ⟨cs, .inl rfl, hnil, u64Digits_some h zero⟩

theorem digitsValue_cons (radix n : Nat) (c : Char) (cs : List Char) :
    digitsValue radix n (c :: cs) =
      digitsValue radix (n * radix + (toDigit radix c).getD 0) cs :=
  rfl

theorem digitsValue_append (radix n : Nat) (cs ds : List Char) :
    digitsValue radix n (cs ++ ds) = digitsValue radix (digitsValue radix n cs) ds :=
  List.foldl_append

/-- More digits do not make a number smaller. -/
theorem le_digitsValue {radix : Nat} (hr : 0 < radix) (n : Nat) (cs : List Char) :
    n ≤ digitsValue radix n cs := by
  induction cs generalizing n with
  | nil => exact Nat.le_refl n
  | cons c cs ih =>
      calc n ≤ n * radix := Nat.le_mul_of_pos_right n hr
        _ ≤ n * radix + (toDigit radix c).getD 0 := Nat.le_add_right _ _
        _ ≤ digitsValue radix n (c :: cs) := ih _

theorem u64Digits_of_digits {radix : Nat} (hr : 0 < radix) {cs : List Char} {n : Nat}
    (hdigits : ∀ c ∈ cs, (toDigit radix c).isSome)
    (hlt : digitsValue radix n cs < UInt64.size) :
    u64Digits radix n cs = some (digitsValue radix n cs) := by
  induction cs generalizing n with
  | nil => rfl
  | cons c cs ih =>
      obtain ⟨d, hd⟩ := Option.isSome_iff_exists.mp (hdigits c List.mem_cons_self)
      rw [digitsValue_cons, hd, Option.getD_some] at hlt ⊢
      -- no prefix of the digits overflows when all of them do not
      have hstep : n * radix + d < UInt64.size :=
        Nat.lt_of_le_of_lt (le_digitsValue hr _ cs) hlt
      rw [u64Digits_cons, hd, Option.bind_some, if_pos hstep]
      exact ih (fun c' hc' => hdigits c' (List.mem_cons_of_mem c hc')) hlt

theorem u64FromStrRadix_plus (radix : Nat) {digits : List Char} (h : digits ≠ []) :
    u64FromStrRadix radix ('+' :: digits) = u64Digits radix 0 digits := by
  cases digits with
  | nil => exact absurd rfl h
  | cons c cs => rfl

theorem u64FromStrRadix_digits {radix : Nat} {digits : List Char} (h : digits ≠ [])
    (hdigits : ∀ c ∈ digits, (toDigit radix c).isSome) :
    u64FromStrRadix radix digits = u64Digits radix 0 digits := by
  unfold u64FromStrRadix
  split
  · exact absurd rfl h
  · cases hdigits '+' List.mem_cons_self
  · cases hdigits '+' List.mem_cons_self
  · rfl

theorem u64FromStrRadix_eq_some {radix : Nat} (hr : 0 < radix) {cs : List Char} {n : Nat} :
    u64FromStrRadix radix cs = some n ↔ Numeral radix cs n := by
  refine ⟨numeral_of_u64FromStrRadix, ?_⟩
  rintro ⟨digits, hsign, hne, hdigits, hvalue, hlt⟩
  have hread : u64Digits radix 0 digits = some n := by
    rw [← hvalue] at hlt ⊢
    exact u64Digits_of_digits hr hdigits hlt
  rcases hsign with rfl | rfl
  · rw [u64FromStrRadix_digits hne hdigits, hread]
  · rw [u64FromStrRadix_plus radix hne, hread]

theorem u64FromStrRadix_lt {radix : Nat} {cs : List Char} {n : Nat}
    (h : u64FromStrRadix radix cs = some n) : n < UInt64.size := by
  obtain ⟨_, _, _, _, _, hlt⟩ := numeral_of_u64FromStrRadix h
  exact hlt

theorem toDigit_toLower {c : Char} (h : asciiHexDigit c = true) :
    toDigit 16 c.toLower = toDigit 16 c := by
  obtain ⟨d, hd⟩ := Option.isSome_iff_exists.mp h
  rw [toLower_of_toDigit hd, toDigit_digitChar (toDigit_lt hd), hd]

theorem digitsValue_toLower {digits : List Char} (h : digits.all asciiHexDigit = true) (n : Nat) :
    digitsValue 16 n (digits.map Char.toLower) = digitsValue 16 n digits := by
  induction digits generalizing n with
  | nil => rfl
  | cons c digits ih =>
      rw [List.all_cons, Bool.and_eq_true] at h
      simp only [digitsValue, List.map_cons, List.foldl_cons, toDigit_toLower h.1]
      exact ih h.2 _

theorem value_of_lower {hex : List Char} {n : Nat} (hdigits : hex.all asciiHexDigit = true)
    (h : u64FromStrRadix 16 (hex.map Char.toLower) = some n) :
    digitsValue 16 0 hex = n ∧ n < UInt64.size := by
  have hlower : ∀ c ∈ hex.map Char.toLower, (toDigit 16 c).isSome := by
    intro c hc
    obtain ⟨c', hc', rfl⟩ := List.mem_map.mp hc
    have hdigit := List.all_eq_true.mp hdigits c' hc'
    rw [toDigit_toLower hdigit]
    exact hdigit
  have hne : hex.map Char.toLower ≠ [] := by
    intro hnil
    rw [hnil] at h
    cases h
  rw [u64FromStrRadix_digits hne hlower] at h
  obtain ⟨-, hvalue, hlt⟩ := u64Digits_some h (by decide)
  rw [digitsValue_toLower hdigits] at hvalue
  exact ⟨hvalue, hlt⟩

theorem parseQuantity_of_mark {s : String} {hex : List Char} (h : stripPrefix "0x" s = some hex)
    (n : Nat) : parseQuantity (.string s) = .ok n ↔ u64FromStrRadix 16 hex = some n := by
  simp only [parseQuantity, h]
  cases u64FromStrRadix 16 hex <;> simp

theorem parseQuantity_of_no_mark {s : String} (h : stripPrefix "0x" s = none) (n : Nat) :
    parseQuantity (.string s) = .ok n ↔ u64FromStrRadix 10 s.toList = some n := by
  simp only [parseQuantity, h]
  cases u64FromStrRadix 10 s.toList <;> simp

/-- A text is read by its digits, with the radix that its first characters ask for. -/
theorem parseQuantity_string (s : String) (n : Nat) :
    parseQuantity (.string s) = .ok n ↔
      (∃ hex, s.toList = '0' :: 'x' :: hex ∧ Numeral 16 hex n) ∨
      (∀ hex, s.toList ≠ '0' :: 'x' :: hex) ∧ Numeral 10 s.toList n := by
  cases hmark : stripPrefix "0x" s with
  | some hex =>
      have htext : s.toList = '0' :: 'x' :: hex := stripPrefix_eq_some.mp hmark
      rw [parseQuantity_of_mark hmark, u64FromStrRadix_eq_some (by decide)]
      constructor
      · intro h
        exact .inl ⟨hex, htext, h⟩
      · rintro (⟨hex', htext', h⟩ | ⟨hno, -⟩)
        · rw [htext] at htext'
          cases htext'
          exact h
        · exact absurd htext (hno hex)
  | none =>
      have htext : ∀ hex, s.toList ≠ '0' :: 'x' :: hex := by
        intro hex h
        rw [stripPrefix_eq_some.mpr h] at hmark
        cases hmark
      rw [parseQuantity_of_no_mark hmark, u64FromStrRadix_eq_some (by decide)]
      constructor
      · intro h
        exact .inr ⟨htext, h⟩
      · rintro (⟨hex, h, -⟩ | ⟨-, h⟩)
        · exact absurd h (htext hex)
        · exact h

/-- A decimal text does not start like a hexadecimal one. -/
theorem Digits.no_mark {text : List Char} {n : Nat} (h : Digits 10 text n) (hex : List Char) :
    text ≠ '0' :: 'x' :: hex := by
  rintro rfl
  cases h.2.1 'x' (List.mem_cons_of_mem _ List.mem_cons_self)

theorem Digits.no_plus {radix : Nat} {text : List Char} {n : Nat} (h : Digits radix text n)
    (rest : List Char) : text ≠ '+' :: rest := by
  rintro rfl
  cases h.2.1 '+' List.mem_cons_self

/-- A plus is the only thing that the number parsers take beyond the digits. -/
theorem parseQuantity_eq_ok {v : Value} {n : Nat} :
    parseQuantity v = .ok n ↔ Denotes v n ∨ PlusNumber v n := by
  constructor
  · intro h
    cases v with
    | string s =>
        rcases (parseQuantity_string s n).mp h with
          ⟨_, htext, digits, rfl | rfl, hdigits⟩ | ⟨-, digits, htext | htext, hdigits⟩
        · exact .inl (.hexadecimal htext hdigits)
        · exact .inr (.hexadecimal htext hdigits)
        · subst htext
          exact .inl (.decimal hdigits)
        · exact .inr (.decimal htext hdigits)
    | number number =>
        cases number with
        | posInt m =>
            cases h
            exact .inl (.integer m)
        | _ => cases h
    | _ => cases h
  · rintro (h | h)
    · cases h with
      | integer m => rfl
      | hexadecimal htext hdigits =>
          exact (parseQuantity_string _ n).mpr (.inl ⟨_, htext, _, .inl rfl, hdigits⟩)
      | decimal hdigits =>
          exact (parseQuantity_string _ n).mpr
            (.inr ⟨hdigits.no_mark, _, .inl rfl, hdigits⟩)
    · cases h with
      | hexadecimal htext hdigits =>
          exact (parseQuantity_string _ n).mpr (.inl ⟨_, htext, _, .inr rfl, hdigits⟩)
      | decimal htext hdigits =>
          refine (parseQuantity_string _ n).mpr (.inr ⟨fun hex hmark => ?_, _, .inr htext, hdigits⟩)
          rw [htext] at hmark
          cases hmark

/-- No plus stands in a text that denotes a number. -/
theorem PlusNumber.not_denotes {v : Value} {n : Nat} (h : PlusNumber v n) (m : Nat) :
    ¬ Denotes v m := by
  intro hm
  cases h with
  | hexadecimal htext _ =>
      cases hm with
      | hexadecimal hmark hdigits =>
          rw [htext] at hmark
          cases hmark
          exact hdigits.no_plus _ rfl
      | decimal hdigits => exact hdigits.no_mark _ htext
  | decimal htext _ =>
      cases hm with
      | hexadecimal hmark _ =>
          rw [htext] at hmark
          cases hmark
      | decimal hdigits => exact hdigits.no_plus _ htext

/-- The digits of a number spell it. -/
theorem digitsValue_toDigits (n : Nat) : digitsValue 16 0 (Nat.toDigits 16 n) = n := by
  induction n using Nat.strongRecOn with
  | ind n ih =>
      rcases Nat.lt_or_ge n 16 with hn | hn
      · rw [Nat.toDigits_of_lt_base hn, digitsValue_cons, toDigit_digitChar hn]
        simp [digitsValue]
      · have hmod : n % 16 < 16 := Nat.mod_lt n (by decide)
        rw [Nat.toDigits_of_base_le (by decide) hn, digitsValue_append, ih (n / 16) (by omega),
          digitsValue_cons, toDigit_digitChar hmod]
        exact Nat.div_add_mod' n 16

theorem mem_toDigits {n : Nat} {c : Char} (h : c ∈ Nat.toDigits 16 n) :
    ∃ d, d < 16 ∧ c = Nat.digitChar d := by
  induction n using Nat.strongRecOn with
  | ind n ih =>
      rcases Nat.lt_or_ge n 16 with hn | hn
      · rw [Nat.toDigits_of_lt_base hn] at h
        exact ⟨n, hn, List.mem_singleton.mp h⟩
      · rw [Nat.toDigits_of_base_le (by decide) hn] at h
        rcases List.mem_append.mp h with h | h
        · exact ih (n / 16) (by omega) h
        · exact ⟨n % 16, Nat.mod_lt n (by decide), List.mem_singleton.mp h⟩

theorem asciiHexDigit_toDigits (n : Nat) : (Nat.toDigits 16 n).all asciiHexDigit = true := by
  refine List.all_eq_true.mpr ?_
  intro c hc
  obtain ⟨d, hd, rfl⟩ := mem_toDigits hc
  rw [asciiHexDigit, toDigit_digitChar hd]
  rfl

/-- Only zero is printed with a zero first. -/
theorem eq_zero_of_head_toDigits {n : Nat} (h : (Nat.toDigits 16 n).head? = some '0') :
    n = 0 := by
  induction n using Nat.strongRecOn with
  | ind n ih =>
      rcases Nat.lt_or_ge n 16 with hn | hn
      · rw [Nat.toDigits_of_lt_base hn] at h
        exact digitChar_inj hn (by decide) (Option.some.inj h)
      · rw [Nat.toDigits_of_base_le (by decide) hn,
          List.head?_append_of_ne_nil _ Nat.toDigits_ne_nil] at h
        have hzero := ih (n / 16) (by omega) h
        omega

/-- Digits that follow a number that is not zero continue its text. -/
theorem toDigits_digitsValue {cs : List Char} (hcs : cs.all asciiHexDigit = true) {n : Nat}
    (hn : 0 < n) :
    Nat.toDigits 16 (digitsValue 16 n cs) = Nat.toDigits 16 n ++ cs.map Char.toLower := by
  induction cs generalizing n with
  | nil => exact (List.append_nil _).symm
  | cons c cs ih =>
      rw [List.all_cons, Bool.and_eq_true] at hcs
      obtain ⟨d, hd⟩ := Option.isSome_iff_exists.mp hcs.1
      have hlt := toDigit_lt hd
      have hstep : Nat.toDigits 16 (n * 16 + d) = Nat.toDigits 16 n ++ [c.toLower] := by
        rw [toLower_of_toDigit hd, ← Nat.toDigits_of_lt_base hlt,
          Nat.toDigits_append_toDigits (by decide) hn hlt, Nat.mul_comm]
      rw [digitsValue_cons, hd, Option.getD_some, ih hcs.2 (by omega), hstep, List.map_cons,
        List.append_assoc, List.singleton_append]

/-- A text without leading zeros is, in lower case, the printed form of its number. -/
theorem toLower_of_noLeadingZero {hex : List Char} (hne : hex ≠ [])
    (hzero : hex.head? = some '0' → hex = ['0']) (hhex : hex.all asciiHexDigit = true) :
    hex.map Char.toLower = Nat.toDigits 16 (digitsValue 16 0 hex) := by
  cases hex with
  | nil => exact absurd rfl hne
  | cons c cs =>
      rw [List.all_cons, Bool.and_eq_true] at hhex
      by_cases hc : c = '0'
      · rw [hzero (congrArg some hc)]
        rfl
      · obtain ⟨d, hd⟩ := Option.isSome_iff_exists.mp hhex.1
        have hpos : 0 < d := by
          rcases Nat.eq_zero_or_pos d with rfl | hpos
          · exact absurd (eq_zero_of_toLower hhex.1 (toLower_of_toDigit hd)) hc
          · exact hpos
        rw [digitsValue_cons, hd, Option.getD_some, Nat.zero_mul, Nat.zero_add,
          toDigits_digitsValue hhex.2 hpos, Nat.toDigits_of_lt_base (toDigit_lt hd),
          ← toLower_of_toDigit hd]
        rfl

end ConductorRs
