import GuestScript.Number.Binary

/-!
# Reading decimal text

`ofDecimal` is the double nearest to `digits * 10 ^ exponent`, and `read?` reads the plain decimal
grammar: an optional sign, then digits with an optional fraction and an optional exponent, or one of
the words `inf`, `infinity` and `nan` in any case.
-/

namespace GuestScript.Number

/-- The double nearest to `digits * 10 ^ exponent`. Beyond the range of doubles nothing is computed:
the result is an infinity or a zero. -/
def ofDecimal (digits : Nat) (exponent : Int) : Float :=
  if digits = 0 then 0.0
  else
    -- `digits < 2 ^ (log2 + 1)`, and `2 ^ 10 > 10 ^ 3`.
    let size : Int := (digits.log2 : Int) * 3 / 10
    if size + exponent > 330 then Float.ofBits 0x7FF0000000000000
    else if size + exponent < -420 - (digits.log2 : Int) / 100 then 0.0
    else Float.ofScientific digits (exponent < 0) exponent.natAbs

/-- The value of an ASCII decimal digit. -/
def digitValue (c : Char) : Nat :=
  c.toNat - '0'.toNat

/-- The number written by a list of decimal digits. -/
def digitsValue (cs : List Char) : Nat :=
  cs.foldl (fun n c => n * 10 + digitValue c) 0

/-- The digits at the front of a text, and what follows them. -/
def takeDigits (cs : List Char) : List Char × List Char :=
  cs.span Char.isDigit

/-- An exponent at the front of a text, or zero when there is none. A mark without digits after it is
no exponent. -/
def readExponent? (cs : List Char) : Option (Int × List Char) :=
  match cs with
  | c :: rest =>
    if c = 'e' || c = 'E' then
      let (negative, rest) :=
        match rest with
        | '-' :: r => (true, r)
        | '+' :: r => (false, r)
        | r => (false, r)
      let (ds, tail) := takeDigits rest
      if ds.isEmpty then none
      else
        let n : Int := digitsValue ds
        some (if negative then -n else n, tail)
    else some (0, cs)
  | [] => some (0, [])

/-- An unsigned decimal that takes up the whole text. -/
def readUnsigned? (cs : List Char) : Option Float :=
  let (whole, rest) := takeDigits cs
  let (fraction, rest) :=
    match rest with
    | '.' :: r => takeDigits r
    | r => ([], r)
  if whole.isEmpty && fraction.isEmpty then none
  else
    match readExponent? rest with
    | some (e, []) => some (ofDecimal (digitsValue (whole ++ fraction)) (e - fraction.length))
    | _ => none

/-- The word for a special value, in any case. -/
def readWord? (cs : List Char) : Option Float :=
  match String.ofList (cs.map Char.toLower) with
  | "inf" => some (Float.ofBits 0x7FF0000000000000)
  | "infinity" => some (Float.ofBits 0x7FF0000000000000)
  | "nan" => some (Float.ofBits 0x7FF8000000000000)
  | _ => none

/-- Read a decimal number or a special word, with an optional sign, from a whole text. -/
def read? (s : String) : Option Float :=
  let (negative, body) :=
    match s.toList with
    | '-' :: r => (true, r)
    | '+' :: r => (false, r)
    | r => (false, r)
  (readWord? body <|> readUnsigned? body).map (withSign negative)

end GuestScript.Number
