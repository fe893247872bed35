import ConductorRs.Metatheory.QuantityGrammar

/-!
The parameters that the proxy passes on.

A hexadecimal number is passed on as the one text that `0x{:x}` prints for it, so
passing it on twice is the same as passing it on once. Block numbers are bounded,
by 63 bits for `eth_getBlockByNumber` and by 64 bits for `optimism_outputAtBlock`;
sizes are not.
-/
namespace ConductorRs.Rpc
open Collections

/-- What is printed for a number is a text of it. -/
theorem hexNumber_hexQuantity (n : Nat) : HexNumber (hexQuantity n) n := by
  refine ⟨Nat.toDigits 16 n, .inl (toList_hexQuantity n), Nat.toDigits_ne_nil, ?_,
    asciiHexDigit_toDigits n, digitsValue_toDigits n⟩
  intro hhead
  rw [eq_zero_of_head_toDigits hhead]
  rfl

theorem canonicalHexDigits_of_hexNumber {raw : String} {n : Nat} (h : HexNumber raw n)
    (name : String) : canonicalHexDigits raw name = .ok (Nat.toDigits 16 n) := by
  obtain ⟨hex, htext, hne, hzero, hdigits, hvalue⟩ := h
  have hmark : (stripPrefix "0x" raw).or (stripPrefix "0X" raw) = some hex := by
    rcases htext with hlower | hupper
    · rw [stripPrefix_eq_some.mpr hlower, Option.some_or]
    · have hno : stripPrefix "0x" raw = none := by
        cases hsome : stripPrefix "0x" raw with
        | none => rfl
        | some rest =>
            have hlower := stripPrefix_eq_some.mp hsome
            rw [hupper] at hlower
            cases hlower
      rw [hno, Option.none_or]
      exact stripPrefix_eq_some.mpr hupper
  have hlower : hex.map Char.toLower = Nat.toDigits 16 n := by
    rw [toLower_of_noLeadingZero hne hzero hdigits, hvalue]
  unfold canonicalHexDigits
  rw [hmark]
  split
  · rename_i hnone
    cases hnone
  · rename_i hnil
    cases hnil
    exact absurd rfl hne
  · rename_i hlong
    cases hlong
    cases hzero rfl
  · rename_i hsome
    cases hsome
    rw [if_pos hdigits, hlower]
    rfl

/-- The digits are those that are printed for the number. -/
theorem canonicalHexDigits_ok {raw name : String} {digits : List Char} :
    canonicalHexDigits raw name = .ok digits ↔
      ∃ n, HexNumber raw n ∧ digits = Nat.toDigits 16 n := by
  constructor
  · intro h
    have hchecked := canonicalHexDigits_checked raw name
    rw [h] at hchecked
    obtain ⟨hex, -, hnumber, -⟩ := hchecked
    refine ⟨_, hnumber, ?_⟩
    rw [canonicalHexDigits_of_hexNumber hnumber name] at h
    exact (Except.ok.inj h).symm
  · rintro ⟨n, hnumber, rfl⟩
    exact canonicalHexDigits_of_hexNumber hnumber name

theorem canonicalHexQuantity_ok {raw name text : String} :
    canonicalHexQuantity raw name = .ok text ↔ ∃ n, HexNumber raw n ∧ text = hexQuantity n := by
  unfold canonicalHexQuantity
  rw [bind_eq_ok]
  constructor
  · rintro ⟨digits, hdigits, htext⟩
    obtain ⟨n, hnumber, rfl⟩ := canonicalHexDigits_ok.mp hdigits
    exact ⟨n, hnumber, (Except.ok.inj htext).symm⟩
  · rintro ⟨n, hnumber, rfl⟩
    exact ⟨_, canonicalHexDigits_of_hexNumber hnumber name, rfl⟩

theorem decodeHexQuantity_ok {raw : String} {n : Nat} :
    decodeHexQuantity raw = .ok n ↔ HexNumber raw n ∧ n < UInt64.size := by
  constructor
  · intro h
    have hchecked := decodeHexQuantity_checked raw
    rw [h] at hchecked
    exact hchecked
  · rintro ⟨hnumber, hlt⟩
    have hread : u64FromStrRadix 16 (Nat.toDigits 16 n) = some n :=
      (u64FromStrRadix_eq_some (by decide)).mpr ⟨_, .inl rfl, Nat.toDigits_ne_nil,
        List.all_eq_true.mp (asciiHexDigit_toDigits n), digitsValue_toDigits n, hlt⟩
    refine bind_eq_ok.mpr ⟨_, canonicalHexDigits_of_hexNumber hnumber _, ?_⟩
    rw [hread]
    rfl

/-- Tags are no numbers. -/
theorem HexNumber.not_tag {s : String} {n : Nat} (h : HexNumber s n) : blockTag s = false := by
  obtain ⟨hex, htext, -⟩ := h
  have hhead : s.toList.head? = some '0' := by
    rcases htext with htext | htext <;> rw [htext] <;> rfl
  have tags : ∀ tag ∈ ["earliest", "latest", "pending", "safe", "finalized"],
      tag.toList.head? ≠ some '0' := by decide
  refine decide_eq_false ?_
  intro hs
  exact tags s hs hhead

/-- The parameter of a form and what is passed on for it. -/
inductive Form.Passes : Form → Value → Value → Prop where
  | flag (b : Bool) : Passes .flag (.bool b) (.bool b)
  | tag {s : String} : blockTag s = true → Passes .tagOrNumber (.string s) (.string s)
  | block {s : String} {n : Nat} : HexNumber s n → n ≤ i64Max →
      Passes .tagOrNumber (.string s) (.string (hexQuantity n))
  | number {s : String} {n : Nat} : HexNumber s n → n < UInt64.size →
      Passes .number (.string s) (.string (hexQuantity n))
  | size {s : String} {n : Nat} : HexNumber s n →
      Passes .size (.string s) (.string (hexQuantity n))

inductive PassOn : List Form → List Value → List Value → Prop where
  | nil : PassOn [] [] []
  | cons {form : Form} {forms : List Form} {v w : Value} {items outs : List Value} :
      form.Passes v w → PassOn forms items outs → PassOn (form :: forms) (v :: items) (w :: outs)

/-- The same tag, the same number or the same flag. -/
inductive Same : Value → Value → Prop where
  | flag (b : Bool) : Same (.bool b) (.bool b)
  | tag {s : String} : blockTag s = true → Same (.string s) (.string s)
  | number {s t : String} {n : Nat} : HexNumber s n → HexNumber t n → Same (.string s) (.string t)

def SameParams (params out : Value) : Prop :=
  ∃ items outs, Lists params items ∧ out = .array outs ∧ List.Forall₂ Same items outs

theorem Form.Passes.same {form : Form} {v w : Value} (h : form.Passes v w) : Same v w := by
  cases h with
  | flag b => exact .flag b
  | tag htag => exact .tag htag
  | block hn _ | number hn _ | size hn => exact .number hn (hexNumber_hexQuantity _)

theorem Form.Passes.again {form : Form} {v w : Value} (h : form.Passes v w) :
    form.Passes w w := by
  cases h with
  | flag b => exact .flag b
  | tag htag => exact .tag htag
  | block _ hle => exact .block (hexNumber_hexQuantity _) hle
  | number _ hlt => exact .number (hexNumber_hexQuantity _) hlt
  | size _ => exact .size (hexNumber_hexQuantity _)

theorem PassOn.same {forms : List Form} {items outs : List Value} (h : PassOn forms items outs) :
    List.Forall₂ Same items outs := by
  induction h with
  | nil => exact .nil
  | cons hform _ ih => exact .cons hform.same ih

theorem PassOn.again {forms : List Form} {items outs : List Value} (h : PassOn forms items outs) :
    PassOn forms outs outs := by
  induction h with
  | nil => exact .nil
  | cons hform _ ih => exact .cons hform.again ih

/-- The decoder gives what is passed on for parameters of these forms. -/
def Forwards (forms : List Form) (decode : Value → Except RpcError Value) : Prop :=
  ∀ params out, decode params = .ok out ↔
    ∃ items outs, Lists params items ∧ PassOn forms items outs ∧ out = .array outs

theorem Forwards.same {forms : List Form} {decode : Value → Except RpcError Value}
    (h : Forwards forms decode) {params out : Value} (hout : decode params = .ok out) :
    SameParams params out := by
  obtain ⟨items, outs, hitems, hpass, rfl⟩ := (h params out).mp hout
  exact ⟨items, outs, hitems, rfl, hpass.same⟩

theorem Forwards.again {forms : List Form} {decode : Value → Except RpcError Value}
    (h : Forwards forms decode) {params out : Value} (hout : decode params = .ok out) :
    decode out = .ok out := by
  obtain ⟨items, outs, -, hpass, rfl⟩ := (h params out).mp hout
  exact (h _ _).mpr ⟨outs, outs, .inl rfl, hpass.again, rfl⟩

theorem arrayParams_ok {params : Value} {items : List Value} :
    arrayParams params = .ok items ↔ Lists params items := by
  constructor
  · intro h
    have hchecked := arrayParams_checked params
    rw [h] at hchecked
    exact hchecked
  · rintro (rfl | ⟨rfl, rfl⟩) <;> rfl

theorem forwards_of_items {forms : List Form} {f : List Value → Except RpcError Value}
    (h : ∀ items out, f items = .ok out ↔ ∃ outs, PassOn forms items outs ∧ out = .array outs) :
    Forwards forms fun params => arrayParams params >>= f := by
  intro params out
  rw [bind_eq_ok]
  refine exists_congr fun items => ?_
  rw [arrayParams_ok, h items out]
  constructor
  · rintro ⟨hitems, outs, hpass, hout⟩
    exact ⟨outs, hitems, hpass, hout⟩
  · rintro ⟨outs, hitems, hpass, hout⟩
    exact ⟨hitems, outs, hpass, hout⟩

theorem outputAtBlockProxyParams_forwards : Forwards [.number] outputAtBlockProxyParams := by
  refine forwards_of_items ?_
  intro items out
  constructor
  · intro h
    rcases items with _ | ⟨number, _ | ⟨_, _⟩⟩
    · cases h
    · cases number with
      | string raw =>
          obtain ⟨n, hn, hout⟩ := bind_eq_ok.mp h
          cases hout
          obtain ⟨hnumber, hlt⟩ := decodeHexQuantity_ok.mp hn
          exact ⟨_, .cons (.number hnumber hlt) .nil, rfl⟩
      | _ => cases h
    · cases h
  · rintro ⟨outs, hpass, rfl⟩
    cases hpass with
    | cons hnumber hnil =>
        cases hnil
        cases hnumber with
        | number hn hlt => exact bind_eq_ok.mpr ⟨_, decodeHexQuantity_ok.mpr ⟨hn, hlt⟩, rfl⟩

theorem minerSetMaxDaSizeProxyParams_forwards :
    Forwards [.size, .size] minerSetMaxDaSizeProxyParams := by
  refine forwards_of_items ?_
  intro items out
  constructor
  · intro h
    rcases items with _ | ⟨tx, _ | ⟨block, _ | ⟨_, _⟩⟩⟩
    · cases h
    · cases h
    · cases tx with
      | string txSize =>
          cases block with
          | string blockSize =>
              obtain ⟨tx, htx, h⟩ := bind_eq_ok.mp h
              obtain ⟨block, hblock, hout⟩ := bind_eq_ok.mp h
              cases hout
              obtain ⟨n, hn, rfl⟩ := canonicalHexQuantity_ok.mp htx
              obtain ⟨m, hm, rfl⟩ := canonicalHexQuantity_ok.mp hblock
              exact ⟨_, .cons (.size hn) (.cons (.size hm) .nil), rfl⟩
          | _ => cases h
      | _ => cases h
    · cases h
  · rintro ⟨outs, hpass, rfl⟩
    cases hpass with
    | cons htx hpass =>
        cases hpass with
        | cons hblock hnil =>
            cases hnil
            cases htx with
            | size hn =>
                cases hblock with
                | size hm =>
                    refine bind_eq_ok.mpr ⟨_, canonicalHexQuantity_ok.mpr ⟨_, hn, rfl⟩, ?_⟩
                    exact bind_eq_ok.mpr ⟨_, canonicalHexQuantity_ok.mpr ⟨_, hm, rfl⟩, rfl⟩

/-- The block is read before the program goes on. -/
theorem tagOrNumber_ok {raw : String} {k : String → Except RpcError Value} {out : Value} :
    (if blockTag raw = true then pure raw >>= k
      else decodeHexQuantity raw >>= fun block =>
        if block > i64Max then
          throw (invalidParams ("block number out of range " ++ raw)) >>= fun _ : Unit =>
            pure (hexQuantity block) >>= k
        else pure (hexQuantity block) >>= k) = .ok out ↔
    ∃ block, Form.tagOrNumber.Passes (.string raw) (.string block) ∧ k block = .ok out := by
  by_cases htag : blockTag raw = true
  · rw [if_pos htag]
    constructor
    · intro h
      exact ⟨raw, .tag htag, h⟩
    · rintro ⟨block, hpass, h⟩
      cases hpass with
      | tag _ => exact h
      | block hn _ =>
          rw [hn.not_tag] at htag
          cases htag
  · rw [if_neg htag, bind_eq_ok]
    constructor
    · rintro ⟨n, hn, h⟩
      obtain ⟨hle, h⟩ := stop_eq_ok.mp h
      exact ⟨hexQuantity n, .block (decodeHexQuantity_ok.mp hn).1 (Nat.le_of_not_lt hle), h⟩
    · rintro ⟨block, hpass, h⟩
      cases hpass with
      | tag htag' => exact absurd htag' htag
      | block hn hle =>
          have hlt : _ < UInt64.size := Nat.lt_of_le_of_lt hle (by decide)
          exact ⟨_, decodeHexQuantity_ok.mpr ⟨hn, hlt⟩, stop_eq_ok.mpr ⟨Nat.not_lt.mpr hle, h⟩⟩

theorem ethGetBlockByNumberProxyParams_forwards :
    Forwards [.tagOrNumber, .flag] ethGetBlockByNumberProxyParams := by
  refine forwards_of_items ?_
  intro items out
  constructor
  · intro h
    rcases items with _ | ⟨number, _ | ⟨fullTx, _ | ⟨_, _⟩⟩⟩
    · cases h
    · cases h
    · cases number with
      | string raw =>
          obtain ⟨block, hblock, h⟩ := tagOrNumber_ok.mp h
          cases fullTx with
          | bool full =>
              cases h
              exact ⟨_, .cons hblock (.cons (.flag full) .nil), rfl⟩
          | _ => cases h
      | _ => cases h
    · cases h
  · rintro ⟨outs, hpass, rfl⟩
    cases hpass with
    | cons hblock hpass =>
        cases hpass with
        | cons hflag hnil =>
            cases hnil
            cases hflag with
            | flag full =>
                cases hblock with
                | tag htag => exact tagOrNumber_ok.mpr ⟨_, .tag htag, rfl⟩
                | block hn hle => exact tagOrNumber_ok.mpr ⟨_, .block hn hle, rfl⟩

end ConductorRs.Rpc
