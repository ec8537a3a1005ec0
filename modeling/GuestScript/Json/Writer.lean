import GuestScript.Json.Basic
import GuestScript.Number.Notation

/-!
# Writing JSON text

Strings are quoted with the short escapes where JSON has them and by number for the other control
characters; everything else stands for itself. A document is written on one line or spread over lines
with two blanks per level.
-/

namespace GuestScript.Json

/-! ## 1. Strings -/

/-- A hexadecimal digit in lower case. -/
def hexChar (n : Nat) : Char :=
  if n < 10 then Char.ofNat (48 + n) else Char.ofNat (87 + n)

/-- One character inside a quoted string. -/
def escapeChar (c : Char) : List Char :=
  if c = '"' then ['\\', '"']
  else if c = '\\' then ['\\', '\\']
  else if c.toNat < 0x20 then
    match c.toNat with
    | 8 => ['\\', 'b']
    | 9 => ['\\', 't']
    | 10 => ['\\', 'n']
    | 12 => ['\\', 'f']
    | 13 => ['\\', 'r']
    | n => ['\\', 'u', '0', '0', hexChar (n / 16), hexChar (n % 16)]
  else [c]

def quote (s : String) : String :=
  if s.toList.any (fun c => c = '"' || c = '\\' || c.toNat < 0x20) then
    "\"" ++ String.ofList (s.toList.flatMap escapeChar) ++ "\""
  else "\"" ++ s ++ "\""

/-! ## 2. Numbers -/

/-- A positive decimal: positional with a fraction while the point stands at most sixteen digits to the
right or five to the left of the first digit, and with a signed exponent otherwise. -/
def decimalText (d : Number.Decimal) : String :=
  let cs := d.chars
  let k : Int := cs.length
  let n : Int := d.point
  let zeros (i : Int) : String := String.ofList (List.replicate i.toNat '0')
  if k ≤ n ∧ n ≤ 16 then String.ofList cs ++ zeros (n - k) ++ ".0"
  else if 0 < n ∧ n ≤ 16 then
    String.ofList (cs.take n.toNat) ++ "." ++ String.ofList (cs.drop n.toNat)
  else if -5 < n ∧ n ≤ 0 then "0." ++ zeros (-n) ++ String.ofList cs
  else
    match cs with
    | [] => ""
    | [c] => String.ofList [c] ++ Number.exponentText (n - 1)
    | c :: rest => String.ofList [c] ++ "." ++ String.ofList rest ++ Number.exponentText (n - 1)

/-- A double, always with a fraction or an exponent; what is not finite is written `null`. -/
def realText (x : Float) : String :=
  if !x.isFinite then "null"
  else
    let sign := if Number.signBit x then "-" else ""
    if x == 0.0 then sign ++ "0.0"
    else
      let b := Number.Binary.ofFloat x
      sign ++ decimalText (Number.shortest b.mantissa b.exponent)

/-- A number. -/
def Numeral.text : Numeral → String
  | natural n => toString n
  | negative n => "-" ++ toString n
  | real x => realText x

/-! ## 3. Documents -/

mutual

/-- A value on one line. -/
def compact : Json → String
  | .null => "null"
  | .bool b => if b then "true" else "false"
  | .number n => n.text
  | .string s => quote s
  | .array items => "[" ++ ",".intercalate (compactItems items) ++ "]"
  | .object members => "\x7b" ++ ",".intercalate (compactMembers members) ++ "\x7d"

/-- The items of an array, each on one line. -/
def compactItems : List Json → List String
  | [] => []
  | v :: rest => compact v :: compactItems rest

/-- The members of an object, each on one line. -/
def compactMembers : List (String × Json) → List String
  | [] => []
  | (n, v) :: rest => (quote n ++ ":" ++ compact v) :: compactMembers rest

end

mutual

/-- A value spread over lines; `indent` is what its first line is indented by. -/
def pretty (indent : String) : Json → String
  | .null => "null"
  | .bool b => if b then "true" else "false"
  | .number n => n.text
  | .string s => quote s
  | .array [] => "[]"
  | .array items =>
    let inner := indent ++ "  "
    "[\n" ++ inner ++ (",\n" ++ inner).intercalate (prettyItems inner items) ++ "\n" ++ indent ++ "]"
  | .object [] => "\x7b\x7d"
  | .object members =>
    let inner := indent ++ "  "
    "\x7b\n" ++ inner ++ (",\n" ++ inner).intercalate (prettyMembers inner members) ++ "\n" ++ indent ++
      "\x7d"

/-- The items of an array, each spread over lines. -/
def prettyItems (indent : String) : List Json → List String
  | [] => []
  | v :: rest => pretty indent v :: prettyItems indent rest

/-- The members of an object, each spread over lines. -/
def prettyMembers (indent : String) : List (String × Json) → List String
  | [] => []
  | (n, v) :: rest => (quote n ++ ": " ++ pretty indent v) :: prettyMembers indent rest

end

end GuestScript.Json
