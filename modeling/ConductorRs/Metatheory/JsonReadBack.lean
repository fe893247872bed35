import ConductorRs.Core.PayloadEncoding
import ConductorRs.Metatheory.HexText

/-!
Compact JSON, printed and read back.

The reader takes one value off the front of a text and returns what follows. It
goes by the first character: a number runs as far as its characters go, a text to
its closing quote, a list to its bracket. A printed value is read back whatever
follows it, as long as that is not one more character of a number.
-/
namespace ConductorRs

/-- What a backslash and a character other than `u` stand for. -/
def unescapeChar (c : Char) : Option Char :=
  if c = 'n' then some '\n'
  else if c = 'r' then some '\r'
  else if c = 't' then some '\t'
  else if c = 'b' then some (Char.ofNat 8)
  else if c = 'f' then some (Char.ofNat 12)
  else if c = '"' || c = '\\' || c = '/' then some c
  else none

/-- One more character before what has been read. -/
def withChar (c : Char) (text : Option (List Char × List Char)) : Option (List Char × List Char) :=
  text.map fun p => (c :: p.1, p.2)

/-- The text up to its closing quote, and what follows. -/
def readQuoted : List Char → Option (List Char × List Char)
  | [] => none
  | '"' :: rest => some ([], rest)
  | '\\' :: 'u' :: '0' :: '0' :: high :: low :: rest =>
      (toDigit 16 high).bind fun h => (toDigit 16 low).bind fun l =>
        withChar (Char.ofNat (16 * h + l)) (readQuoted rest)
  | '\\' :: c :: rest => (unescapeChar c).bind fun c => withChar c (readQuoted rest)
  | c :: rest => withChar c (readQuoted rest)

def integerOf (digits : List Char) : Option Number :=
  if Nat.ofDigitChars 10 digits 0 < UInt64.size then
    some (.posInt (UInt64.ofNat (Nat.ofDigitChars 10 digits 0)))
  else none

def negativeOf (digits : List Char) : Option Number :=
  if h : Nat.ofDigitChars 10 digits 0 - 1 < 9223372036854775808 then some (.negInt ⟨_, h⟩)
  else none

/-- The number with this text. -/
def numberOf (text : List Char) : Option Number :=
  if h : floatText (String.ofList text).toList = true then some (.float ⟨String.ofList text, h⟩)
  else if text.head? = some '-' then negativeOf text.tail
  else integerOf text

def readNumber (text : List Char) : Option (Value × List Char) :=
  (numberOf (text.takeWhile numberChar)).map fun n => (.number n, text.dropWhile numberChar)

section
variable {α : Type}

/-- The parts of a list after its first, and what follows its bracket. -/
def readTail (close : Char) (part : List Char → Option (α × List Char)) :
    Nat → List Char → Option (List α × List Char)
  | 0, _ | _, [] => none
  | fuel + 1, c :: rest =>
      if c = close then some ([], rest)
      else if c = ',' then do
        let first ← part rest
        let more ← readTail close part fuel first.2
        return (first.1 :: more.1, more.2)
      else none

def readParts (close : Char) (part : List Char → Option (α × List Char)) (text : List Char) :
    Option (List α × List Char) :=
  if text.head? = some close then some ([], text.tail)
  else do
    let first ← part text
    let more ← readTail close part first.2.length first.2
    return (first.1 :: more.1, more.2)

end

def readEntry (value : List Char → Option (Value × List Char)) :
    List Char → Option ((String × Value) × List Char)
  | '"' :: rest => do
      let name ← readQuoted rest
      match name.2 with
      | ':' :: rest => do
          let v ← value rest
          return ((String.ofList name.1, v.1), v.2)
      | _ => none
  | _ => none

def readLiteral : List Char → Option (Value × List Char)
  | 'n' :: 'u' :: 'l' :: 'l' :: rest => some (.null, rest)
  | 't' :: 'r' :: 'u' :: 'e' :: rest => some (.bool true, rest)
  | 'f' :: 'a' :: 'l' :: 's' :: 'e' :: rest => some (.bool false, rest)
  | _ => none

def readValue : Nat → List Char → Option (Value × List Char)
  | 0, _ | _, [] => none
  | fuel + 1, c :: rest =>
      if numberStart c then readNumber (c :: rest)
      else if c = '"' then (readQuoted rest).map fun p => (.string (String.ofList p.1), p.2)
      else if c = '[' then
        (readParts ']' (readValue fuel) rest).map fun p => (.array p.1, p.2)
      else if c = '\x7b' then
        (readParts '\x7d' (readEntry (readValue fuel)) rest).map fun p => (.object p.1, p.2)
      else readLiteral (c :: rest)

def Value.read (text : String) : Except String Value :=
  match readValue text.length text.toList with
  | some (v, []) => .ok v
  | some (_, _ :: _) => .error "trailing characters"
  | none => .error "expected value"

def JsonText.compact : JsonText := ⟨Value.render, Value.read⟩

/-- What ends a number. -/
def Stops (rest : List Char) : Prop := ∀ c, rest.head? = some c → numberChar c = false

theorem readQuoted_plain {c : Char} (hquote : c ≠ '"') (hslash : c ≠ '\\') (text : List Char) :
    readQuoted (c :: text) = withChar c (readQuoted text) := by
  rw [readQuoted]
  · exact hquote
  · intro _ _ _ h
    exact absurd h hslash
  · intro _ _ h
    exact absurd h hslash

theorem readQuoted_hex {high low : Char} {h l : Nat} (hhigh : toDigit 16 high = some h)
    (hlow : toDigit 16 low = some l) (text : List Char) :
    readQuoted ('\\' :: 'u' :: '0' :: '0' :: high :: low :: text) =
      withChar (Char.ofNat (16 * h + l)) (readQuoted text) := by
  simp only [readQuoted, hhigh, hlow, Option.bind_some]

/-- An escaped character is read back. -/
theorem readQuoted_escapeChar (c : Char) (text : List Char) :
    readQuoted ((escapeChar c).toList ++ text) = withChar c (readQuoted text) := by
  unfold escapeChar
  split_ifs with hquote hslash hnewline hreturn htab hbackspace hfeed hcontrol
  · subst hquote
    rfl
  · subst hslash
    rfl
  · subst hnewline
    rfl
  · subst hreturn
    rfl
  · subst htab
    rfl
  · obtain rfl : c = Char.ofNat 8 := by rw [← hbackspace, Char.ofNat_toNat]
    rfl
  · obtain rfl : c = Char.ofNat 12 := by rw [← hfeed, Char.ofNat_toNat]
    rfl
  · have htext : ("\\u00" ++ String.ofList [Nat.digitChar (c.toNat / 16),
        Nat.digitChar (c.toNat % 16)]).toList ++ text = '\\' :: 'u' :: '0' :: '0' ::
          Nat.digitChar (c.toNat / 16) :: Nat.digitChar (c.toNat % 16) :: text := by simp
    rw [htext, readQuoted_hex (toDigit_digitChar (by omega)) (toDigit_digitChar (by omega)),
      Nat.div_add_mod, Char.ofNat_toNat]
  · rw [String.toList_singleton]
    exact readQuoted_plain hquote hslash text

theorem readQuoted_escaped (cs rest : List Char) :
    readQuoted (cs.flatMap (fun c => (escapeChar c).toList) ++ '"' :: rest) = some (cs, rest) := by
  induction cs with
  | nil => rfl
  | cons c cs ih =>
      rw [List.flatMap_cons, List.append_assoc, readQuoted_escapeChar, ih]
      rfl

theorem toList_renderString (s : String) (rest : List Char) :
    (renderString s).toList ++ rest =
      '"' :: (s.toList.flatMap (fun c => (escapeChar c).toList) ++ '"' :: rest) := by
  simp [renderString, String.toList_join, List.flatMap_map]

theorem takeWhile_of_stops {text rest : List Char} (h : text.all numberChar = true)
    (hrest : Stops rest) :
    (text ++ rest).takeWhile numberChar = text ∧ (text ++ rest).dropWhile numberChar = rest := by
  have hall := List.all_eq_true.mp h
  rw [List.takeWhile_append_of_pos hall, List.dropWhile_append_of_pos hall]
  cases rest with
  | nil => simp
  | cons c rest =>
      have hc := hrest c rfl
      simp [hc]

theorem mem_decimal {n : Nat} {c : Char} (h : c ∈ Nat.toDigits 10 n) : c.isDigit = true :=
  Nat.isDigit_of_mem_toDigits (by decide) (by decide) h

theorem toList_posInt (n : UInt64) :
    (Number.posInt n).render.toList = Nat.toDigits 10 n.toNat := by
  rw [Number.render, Nat.toString_eq_repr, Nat.toList_repr]

theorem toList_negInt (n : Fin 9223372036854775808) :
    (Number.negInt n).render.toList = '-' :: Nat.toDigits 10 (n.val + 1) := by
  change ("-" ++ Nat.repr (n.val + 1)).toList = _
  rw [String.toList_append, Nat.toList_repr]
  rfl

theorem not_floatText_of_digits {text : List Char}
    (h : ∀ c ∈ text, c = '-' ∨ c.isDigit = true) : floatText text = false := by
  have hany : text.any (fun c => c = '.' || c = 'e' || c = 'E') = false := by
    rw [List.any_eq_false]
    intro c hc hmark
    simp only [Bool.or_eq_true, decide_eq_true_eq] at hmark
    rcases h c hc with rfl | hdigit
    · revert hmark
      decide
    · rcases hmark with (rfl | rfl) | rfl <;> cases hdigit
  rw [floatText, hany, Bool.and_false]

theorem numberOf_of_digits {text : List Char} (h : ∀ c ∈ text, c = '-' ∨ c.isDigit = true) :
    numberOf text = if text.head? = some '-' then negativeOf text.tail else integerOf text := by
  rw [numberOf, dif_neg]
  rw [String.toList_ofList, not_floatText_of_digits h]
  exact Bool.false_ne_true

theorem numberOf_render (n : Number) : numberOf n.render.toList = some n := by
  cases n with
  | posInt n =>
      have hhead : (Nat.toDigits 10 n.toNat).head? ≠ some '-' := by
        intro h
        cases mem_decimal (List.mem_of_head? h)
      rw [toList_posInt, numberOf_of_digits fun c hc => .inr (mem_decimal hc), if_neg hhead,
        integerOf, Nat.ofDigitChars_toDigits (by decide) (by decide), if_pos n.toNat_lt,
        UInt64.ofNat_toNat]
  | negInt n =>
      have hvalue : Nat.ofDigitChars 10 (Nat.toDigits 10 (n.val + 1)) 0 - 1 = n.val := by
        rw [Nat.ofDigitChars_toDigits (by decide) (by decide), Nat.add_sub_cancel]
      have hdigits : ∀ c ∈ '-' :: Nat.toDigits 10 (n.val + 1), c = '-' ∨ c.isDigit = true := by
        intro c hc
        exact (List.mem_cons.mp hc).imp id mem_decimal
      rw [toList_negInt, numberOf_of_digits hdigits]
      change negativeOf (Nat.toDigits 10 (n.val + 1)) = _
      rw [negativeOf, dif_pos (by rw [hvalue]; exact n.isLt)]
      simp only [hvalue]
  | float text =>
      have htext : String.ofList (Number.float text).render.toList = text.val :=
        String.ofList_toList
      rw [numberOf, dif_pos (by rw [htext]; exact text.property)]
      simp only [htext]

theorem numberStart_decimal (n : Nat) : (Nat.toDigits 10 n).head?.any numberStart = true := by
  obtain ⟨c, cs, htext⟩ := List.exists_cons_of_ne_nil (Nat.toDigits_ne_nil (n := n) (b := 10))
  have hc : c.isDigit = true := mem_decimal (n := n) (htext ▸ List.mem_cons_self)
  rw [htext]
  simp [numberStart, hc]

theorem numberChar_decimal (n : Nat) : (Nat.toDigits 10 n).all numberChar = true := by
  rw [List.all_eq_true]
  intro c hc
  simp [numberChar, mem_decimal hc]

theorem render_numberChars (n : Number) : n.render.toList.head?.any numberStart = true ∧
    n.render.toList.all numberChar = true := by
  cases n with
  | posInt n =>
      rw [toList_posInt]
      exact ⟨numberStart_decimal _, numberChar_decimal _⟩
  | negInt n =>
      rw [toList_negInt, List.all_cons, numberChar_decimal]
      exact ⟨rfl, rfl⟩
  | float text =>
      have htext := text.property
      rw [floatText, Bool.and_eq_true, Bool.and_eq_true] at htext
      exact htext.1

theorem render_cons (n : Number) : ∃ c cs, n.render.toList = c :: cs ∧ numberStart c = true := by
  have hstart := (render_numberChars n).1
  cases htext : n.render.toList with
  | nil =>
      rw [htext] at hstart
      cases hstart
  | cons c cs =>
      rw [htext] at hstart
      exact ⟨c, cs, rfl, hstart⟩

theorem readNumber_render (n : Number) {rest : List Char} (hrest : Stops rest) :
    readNumber (n.render.toList ++ rest) = some (.number n, rest) := by
  obtain ⟨htake, hdrop⟩ := takeWhile_of_stops (render_numberChars n).2 hrest
  rw [readNumber, htake, hdrop, numberOf_render]
  rfl

section
variable {α : Type} {close : Char} {part : List Char → Option (α × List Char)}
variable {text : α → List Char}

/-- The parts of a list as they are printed, up to its bracket. -/
def listText (close : Char) (texts : List (List Char)) (rest : List Char) : List Char :=
  [','].intercalate texts ++ close :: rest

def listTail (close : Char) (texts : List (List Char)) (rest : List Char) : List Char :=
  texts.flatMap (fun t => ',' :: t) ++ close :: rest

theorem listText_cons (close : Char) (first : List Char) (texts : List (List Char))
    (rest : List Char) :
    listText close (first :: texts) rest = first ++ listTail close texts rest := by
  induction texts generalizing first with
  | nil => simp [listText, listTail]
  | cons second texts ih =>
      have hrest := ih second
      rw [listText, listTail] at hrest
      simp [listText, listTail, List.intercalate_cons_cons, hrest]

theorem listTail_cons (close : Char) (first : List Char) (texts : List (List Char))
    (rest : List Char) :
    listTail close (first :: texts) rest = ',' :: (first ++ listTail close texts rest) := by
  simp [listTail]

theorem stops_listTail (hclose : numberChar close = false) (texts : List (List Char))
    (rest : List Char) : Stops (listTail close texts rest) := by
  intro c hc
  cases texts with
  | nil =>
      cases hc
      exact hclose
  | cons first texts =>
      cases hc
      rfl

/-- Each part is read back. -/
def PartsRead (part : List Char → Option (α × List Char)) (text : α → List Char) (xs : List α) :
    Prop :=
  ∀ x ∈ xs, ∀ rest, Stops rest → part (text x ++ rest) = some (x, rest)

theorem readTail_listTail (hclose : numberChar close = false) (hcomma : close ≠ ',') {xs : List α}
    (h : PartsRead part text xs) {fuel : Nat} (hfuel : xs.length < fuel) (rest : List Char) :
    readTail close part fuel (listTail close (xs.map text) rest) = some (xs, rest) := by
  induction xs generalizing fuel with
  | nil =>
      obtain ⟨fuel, rfl⟩ := Nat.exists_eq_add_one_of_ne_zero (Nat.ne_of_gt hfuel)
      exact if_pos rfl
  | cons x xs ih =>
      obtain ⟨fuel, rfl⟩ := Nat.exists_eq_add_one_of_ne_zero
        (Nat.ne_of_gt (Nat.zero_lt_of_lt hfuel))
      have hfirst := h x List.mem_cons_self _ (stops_listTail hclose (xs.map text) rest)
      have hmore := ih (fun y hy => h y (List.mem_cons_of_mem x hy)) (Nat.lt_of_succ_lt_succ hfuel)
      rw [List.map_cons, listTail_cons, readTail, if_neg hcomma.symm, if_pos rfl, hfirst]
      change (readTail close part fuel (listTail close (xs.map text) rest)).bind _ = _
      rw [hmore]
      rfl

theorem length_lt_listTail (close : Char) (texts : List (List Char)) (rest : List Char) :
    texts.length < (listTail close texts rest).length := by
  induction texts with
  | nil => simp [listTail]
  | cons first texts ih =>
      rw [listTail_cons, List.length_cons, List.length_cons, List.length_append]
      omega

theorem readParts_listText (hclose : numberChar close = false) (hcomma : close ≠ ',')
    {xs : List α} (h : PartsRead part text xs)
    (hhead : ∀ x ∈ xs, ∃ c cs, text x = c :: cs ∧ c ≠ close) (rest : List Char) :
    readParts close part (listText close (xs.map text) rest) = some (xs, rest) := by
  cases xs with
  | nil => exact if_pos rfl
  | cons x xs =>
      obtain ⟨c, cs, htext, hc⟩ := hhead x List.mem_cons_self
      have hopen : (listText close ((x :: xs).map text) rest).head? ≠ some close := by
        rw [List.map_cons, listText_cons, htext]
        exact fun h => hc (Option.some.inj h)
      have hfirst := h x List.mem_cons_self _ (stops_listTail hclose (xs.map text) rest)
      have hfuel : xs.length < (listTail close (xs.map text) rest).length := by
        simpa using length_lt_listTail close (xs.map text) rest
      have hmore := readTail_listTail hclose hcomma (fun y hy => h y (List.mem_cons_of_mem x hy))
        hfuel rest
      rw [readParts, if_neg hopen, List.map_cons, listText_cons, hfirst]
      change (readTail close part _ (listTail close (xs.map text) rest)).bind _ = _
      rw [hmore]
      rfl

theorem length_lt_listTail_of_mem (close : Char) {texts : List (List Char)} {t : List Char}
    (h : t ∈ texts) (rest : List Char) : t.length < (listTail close texts rest).length := by
  induction texts with
  | nil => cases h
  | cons first texts ih =>
      rw [listTail_cons, List.length_cons, List.length_append]
      rcases List.mem_cons.mp h with rfl | ht
      · omega
      · have := ih ht
        omega

theorem length_lt_listText (close : Char) {texts : List (List Char)} {t : List Char}
    (h : t ∈ texts) (rest : List Char) : t.length < (listText close texts rest).length := by
  cases texts with
  | nil => cases h
  | cons first texts =>
      rw [listText_cons, List.length_append]
      rcases List.mem_cons.mp h with rfl | ht
      · have := length_lt_listTail close texts rest
        omega
      · have := length_lt_listTail_of_mem close ht rest
        omega

end

theorem renderItems_eq (items : List Value) : Value.renderItems items = items.map Value.render := by
  induction items with
  | nil => rfl
  | cons v vs ih => rw [Value.renderItems, ih, List.map_cons]

def memberText (m : String × Value) : List Char :=
  (renderString m.1).toList ++ ':' :: m.2.render.toList

theorem renderMembers_eq (members : List (String × Value)) :
    (Value.renderMembers members).map String.toList = members.map memberText := by
  induction members with
  | nil => rfl
  | cons m ms ih =>
      obtain ⟨k, v⟩ := m
      rw [Value.renderMembers, List.map_cons, List.map_cons, ih]
      simp [memberText]

theorem toList_array (items : List Value) (rest : List Char) :
    (Value.array items).render.toList ++ rest =
      '[' :: listText ']' (items.map fun v => v.render.toList) rest := by
  simp [Value.render, renderItems_eq, listText, String.toList_intercalate, Function.comp_def]

theorem toList_object (members : List (String × Value)) (rest : List Char) :
    (Value.object members).render.toList ++ rest =
      '\x7b' :: listText '\x7d' (members.map memberText) rest := by
  simp [Value.render, listText, String.toList_intercalate, renderMembers_eq]

theorem cons_of_append {cs : List Char} {text : List Char → List Char} {c : Char}
    (h : ∀ rest, cs ++ rest = c :: text rest) : cs = c :: text [] := by
  rw [← h [], List.append_nil]

theorem render_head (v : Value) : ∃ c cs, v.render.toList = c :: cs ∧ c ≠ ']' := by
  cases v with
  | null => exact ⟨'n', ['u', 'l', 'l'], rfl, by decide⟩
  | bool b =>
      cases b with
      | true => exact ⟨'t', ['r', 'u', 'e'], rfl, by decide⟩
      | false => exact ⟨'f', ['a', 'l', 's', 'e'], rfl, by decide⟩
  | number n =>
      obtain ⟨c, cs, htext, hstart⟩ := render_cons n
      refine ⟨c, cs, htext, ?_⟩
      rintro rfl
      cases hstart
  | string s => exact ⟨_, _, cons_of_append (toList_renderString s), by decide⟩
  | array items => exact ⟨_, _, cons_of_append (toList_array items), by decide⟩
  | object members => exact ⟨_, _, cons_of_append (toList_object members), by decide⟩

/-- The value is read back from its text. -/
def Reads (v : Value) : Prop :=
  ∀ fuel rest, v.render.toList.length ≤ fuel → Stops rest →
    readValue fuel (v.render.toList ++ rest) = some (v, rest)

/-- With a first character in hand there is fuel for it. -/
theorem reads_of_cons {v : Value} {c : Char} (text : List Char → List Char)
    (htext : ∀ rest, v.render.toList ++ rest = c :: text rest)
    (h : ∀ fuel rest, (text []).length ≤ fuel → Stops rest →
      readValue (fuel + 1) (c :: text rest) = some (v, rest)) : Reads v := by
  intro fuel rest hfuel hrest
  rw [cons_of_append htext, List.length_cons] at hfuel
  obtain ⟨fuel, rfl⟩ : ∃ k, fuel = k + 1 := Nat.exists_eq_add_one_of_ne_zero (by omega)
  rw [htext]
  exact h fuel rest (by omega) hrest

theorem reads_number (n : Number) : Reads (.number n) := by
  obtain ⟨c, cs, htext, hstart⟩ := render_cons n
  have hprinted : ∀ rest, (Value.number n).render.toList ++ rest = c :: (cs ++ rest) := by
    intro rest
    rw [Value.render, htext, List.cons_append]
  refine reads_of_cons (cs ++ ·) hprinted ?_
  intro fuel rest _ hrest
  have hread := readNumber_render n hrest
  rw [htext] at hread
  exact (if_pos hstart).trans hread

theorem reads_string (s : String) : Reads (.string s) := by
  refine reads_of_cons _ (toList_renderString s) ?_
  intro fuel rest _ _
  change (readQuoted _).map _ = _
  rw [readQuoted_escaped, Option.map_some, String.ofList_toList]

theorem reads_array {items : List Value} (h : ∀ v ∈ items, Reads v) : Reads (.array items) := by
  refine reads_of_cons _ (toList_array items) ?_
  intro fuel rest hfuel hrest
  have hparts : PartsRead (readValue fuel) (fun v : Value => v.render.toList) items := by
    intro v hv rest hrest
    have hmem := List.mem_map_of_mem (f := fun v : Value => v.render.toList) hv
    have hlength := length_lt_listText ']' hmem []
    exact h v hv fuel rest (Nat.le_trans (Nat.le_of_lt hlength) hfuel) hrest
  change (readParts ']' (readValue fuel) _).map _ = _
  rw [readParts_listText rfl (by decide) hparts (fun v _ => render_head v) rest]
  rfl

theorem readEntry_text {value : List Char → Option (Value × List Char)} {m : String × Value}
    {rest : List Char} (h : value (m.2.render.toList ++ rest) = some (m.2, rest)) :
    readEntry value (memberText m ++ rest) = some (m, rest) := by
  have htext : memberText m ++ rest = '"' :: (m.1.toList.flatMap (fun c => (escapeChar c).toList) ++
      '"' :: ':' :: (m.2.render.toList ++ rest)) := by
    rw [memberText, List.append_assoc, toList_renderString]
    rfl
  rw [htext, readEntry, readQuoted_escaped]
  change (value (m.2.render.toList ++ rest)).bind _ = _
  rw [h]
  change some ((String.ofList m.1.toList, m.2), rest) = _
  rw [String.ofList_toList]

theorem reads_object {members : List (String × Value)} (h : ∀ m ∈ members, Reads m.2) :
    Reads (.object members) := by
  refine reads_of_cons _ (toList_object members) ?_
  intro fuel rest hfuel hrest
  have hparts : PartsRead (readEntry (readValue fuel)) memberText members := by
    intro m hm rest hrest
    have hlength := length_lt_listText '\x7d' (List.mem_map_of_mem (f := memberText) hm) []
    rw [memberText, List.length_append, List.length_cons] at hlength
    exact readEntry_text (h m hm fuel rest (by omega) hrest)
  have hhead : ∀ m ∈ members, ∃ c cs, memberText m = c :: cs ∧ c ≠ '\x7d' := by
    intro m _
    exact ⟨_, _, toList_renderString m.1 _, by decide⟩
  change (readParts '\x7d' (readEntry (readValue fuel)) _).map _ = _
  rw [readParts_listText rfl (by decide) hparts hhead rest]
  rfl

-- The recursion is that of `Value.render`.
mutual

theorem reads : ∀ v : Value, Reads v
  | .null => reads_of_cons (fun rest => 'u' :: 'l' :: 'l' :: rest) (fun _ => rfl)
      fun _ _ _ _ => rfl
  | .bool true => reads_of_cons (fun rest => 'r' :: 'u' :: 'e' :: rest) (fun _ => rfl)
      fun _ _ _ _ => rfl
  | .bool false => reads_of_cons (fun rest => 'a' :: 'l' :: 's' :: 'e' :: rest)
      (fun _ => rfl) fun _ _ _ _ => rfl
  | .number n => reads_number n
  | .string s => reads_string s
  | .array items => reads_array (reads_items items)
  | .object members => reads_object (reads_members members)

theorem reads_items : ∀ (items : List Value), ∀ v ∈ items, Reads v
  | [] => fun _ h => absurd h List.not_mem_nil
  | w :: ws => List.forall_mem_cons.mpr ⟨reads w, reads_items ws⟩

theorem reads_members : ∀ (members : List (String × Value)), ∀ m ∈ members, Reads m.2
  | [] => fun _ h => absurd h List.not_mem_nil
  | (_, w) :: ms => List.forall_mem_cons.mpr ⟨reads w, reads_members ms⟩

end

theorem Value.read_render (v : Value) : Value.read v.render = .ok v := by
  have hread := reads v v.render.length [] (Nat.le_of_eq String.length_toList) (by
    intro c hc
    cases hc)
  rw [List.append_nil] at hread
  rw [Value.read, hread]

theorem JsonText.compact_lawful : JsonText.compact.Lawful := Value.read_render

end ConductorRs
