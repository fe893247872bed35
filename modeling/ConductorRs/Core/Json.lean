import Mathlib.Data.List.Infix

/-!
JSON values as `serde_json` holds them, and the text functions of the Rust
standard library that the payload types are parsed with. Texts are read through
their character lists; a byte length is the UTF-8 length of the text. A float
carries its printed form, since no code in the repository computes with it. The
members of an object are in the order of its text: that of the declaration for a
derived struct, that of the names for a map.
-/
namespace ConductorRs

/-- The characters of a number in JSON. -/
def numberChar (c : Char) : Bool :=
  c.isDigit || c = '-' || c = '+' || c = '.' || c = 'e' || c = 'E'

def numberStart (c : Char) : Bool := c.isDigit || c = '-'

/-- The text of a number with a point or an exponent. -/
def floatText (text : List Char) : Bool :=
  text.head?.any numberStart && text.all numberChar &&
    text.any fun c => c = '.' || c = 'e' || c = 'E'

/-- `negInt n` is `-(n + 1)`, an `i64` below zero. A float is the text it is printed
as, which is never that of an integer. -/
inductive Number where
  | posInt (n : UInt64)
  | negInt (n : Fin 9223372036854775808)
  | float (text : { text : String // floatText text.toList = true })
deriving DecidableEq, Repr

inductive Value where
  | null
  | bool (b : Bool)
  | number (n : Number)
  | string (s : String)
  | array (items : List Value)
  | object (members : List (String × Value))

namespace Number

def asU64 : Number → Option Nat
  | .posInt n => some n.toNat
  | _ => none

def render : Number → String
  | .posInt n => toString n.toNat
  | .negInt n => toString (Int.negSucc n)
  | .float text => text.val

end Number

/-- The escapes of the compact JSON printer. -/
def escapeChar (c : Char) : String :=
  if c = '"' then "\\\""
  else if c = '\\' then "\\\\"
  else if c = '\n' then "\\n"
  else if c = '\r' then "\\r"
  else if c = '\t' then "\\t"
  else if c.toNat = 8 then "\\b"
  else if c.toNat = 12 then "\\f"
  else if c.toNat < 32 then
    "\\u00" ++ String.ofList [Nat.digitChar (c.toNat / 16), Nat.digitChar (c.toNat % 16)]
  else String.singleton c

def renderString (s : String) : String :=
  "\"" ++ String.join (s.toList.map escapeChar) ++ "\""

namespace Value

/-- `Value::get` with a text index: a member of an object, nothing elsewhere. -/
def get (key : String) : Value → Option Value
  | .object members => members.lookup key
  | _ => none

def asStr : Value → Option String
  | .string s => some s
  | _ => none

mutual
def render : Value → String
  | .null => "null"
  | .bool b => if b then "true" else "false"
  | .number n => n.render
  | .string s => renderString s
  | .array items => "[" ++ ",".intercalate (renderItems items) ++ "]"
  | .object members => "\x7b" ++ ",".intercalate (renderMembers members) ++ "\x7d"

def renderItems : List Value → List String
  | [] => []
  | v :: vs => render v :: renderItems vs

def renderMembers : List (String × Value) → List String
  | [] => []
  | (k, v) :: ms => (renderString k ++ ":" ++ render v) :: renderMembers ms
end

/-- How a decoder names a value of an unexpected type. -/
def unexpected : Value → String
  | .null => "null"
  | .bool b => "boolean `" ++ toString b ++ "`"
  | .number (.float text) => "floating point `" ++ text.val ++ "`"
  | .number n => "integer `" ++ n.render ++ "`"
  | .string s => "string " ++ renderString s
  | .array _ => "sequence"
  | .object _ => "map"

end Value

/-- `str::strip_prefix`, on the characters of the text. -/
def stripPrefix (head : String) (s : String) : Option (List Char) :=
  if head.toList <+: s.toList then some (s.toList.drop head.toList.length) else none

/-- `char::to_digit` for a radix of at most 36. -/
def toDigit (radix : Nat) (c : Char) : Option Nat :=
  let value :=
    if '0' ≤ c ∧ c ≤ '9' then some (c.toNat - '0'.toNat)
    else if 'a' ≤ c ∧ c ≤ 'z' then some (c.toNat - 'a'.toNat + 10)
    else if 'A' ≤ c ∧ c ≤ 'Z' then some (c.toNat - 'A'.toNat + 10)
    else none
  value.filter (· < radix)

def u64Digits (radix : Nat) : Nat → List Char → Option Nat
  | n, [] => some n
  | n, c :: cs =>
      (toDigit radix c).bind fun d =>
        if n * radix + d < 2 ^ 64 then u64Digits radix (n * radix + d) cs else none

/-- `u64::from_str_radix`: one optional `+`, at least one digit, no overflow. -/
def u64FromStrRadix (radix : Nat) : List Char → Option Nat
  | [] => none
  | ['+'] => none
  | '+' :: digits => u64Digits radix 0 digits
  | digits => u64Digits radix 0 digits

/-- `str::contains` for a text pattern. -/
def containsText (message needle : String) : Bool :=
  decide (needle.toList <:+: message.toList)

end ConductorRs
