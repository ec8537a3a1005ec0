import GuestScript.Number.Literal
import GuestScript.Number.Notation

/-!
# Numbers with a given count of digits

The three ways to ask for digits: a count of places after the point, a count of places of a mantissa with an
exponent, and a count of significant digits.

* `places` is the exact value rounded to a count of places, a half going to the even neighbour.
* `fixedText` is the same with halves going away from zero, where the scaled value shows one.
* `scientific` splits off the decimal exponent by a logarithm and a division, both in doubles.
-/

namespace GuestScript.Number

/-! ## 1. Exact places -/

/-- A quotient rounded to the nearest integer, a half going to the even one. -/
def roundQuotient (num den : Nat) : Nat :=
  let q := num / den
  let r := num % den
  if 2 * r < den then q
  else if den < 2 * r then q + 1
  else if q % 2 = 0 then q else q + 1

/-- The digits of `units / 10 ^ digits`, with `digits` places after the point. -/
def placesOf (units digits : Nat) : String :=
  let cs := Nat.toDigits 10 units
  let cs := List.replicate (digits + 1 - cs.length) '0' ++ cs
  if digits = 0 then String.ofList cs
  else
    let whole := cs.length - digits
    String.ofList (cs.take whole) ++ "." ++ String.ofList (cs.drop whole)

/-- The exact value of a number that is not negative, rounded to a count of places. -/
def places (x : Float) (digits : Nat) : String :=
  if x.isNaN then "NaN"
  else if x.isInf then "inf"
  else
    let b := Binary.ofFloat x
    let scaled := b.mantissa * Nat.pow 10 digits
    let units :=
      if b.exponent ≥ 0 then scaled * Nat.pow 2 b.exponent.toNat
      else roundQuotient scaled (Nat.pow 2 (-b.exponent).toNat)
    placesOf units digits

/-! ## 2. Powers of ten in doubles -/

/-- Power by repeated squaring: the accumulated product and the current square. -/
def powerLoop : Nat → Nat → Float → Float → Float
  | 0, _, _, acc => acc
  | fuel + 1, n, square, acc =>
    let acc := if n % 2 = 1 then acc * square else acc
    if n / 2 = 0 then acc else powerLoop fuel (n / 2) (square * square) acc

/-- A power with an integral exponent; a negative one takes the reciprocal of the positive one. -/
def integralPower (base : Float) (n : Int) : Float :=
  let r := powerLoop 64 n.natAbs base 1.0
  if n < 0 then 1.0 / r else r

/-! ## 3. The three notations -/

/-- The greatest integer from which on up to it every integer is a double. -/
def maxSafeInteger : Float := 9007199254740991.0

/-- The sign of a negative number. -/
def signText (x : Float) : String :=
  if x < 0.0 then "-" else ""

/-- A number with a count of places after the point; from `1e21` on in its usual notation. -/
def fixedText (x : Float) (digits : Nat) : String :=
  if x.abs ≥ 1e21 then text x
  else
    let scale := integralPower 10.0 digits
    let scaled := x.abs * scale
    let isHalf := scaled - truncate scaled == 0.5
    signText x ++
      (if isHalf && scaled < maxSafeInteger && scaled / scale == x.abs then
        placesOf (toNatural64 (ceil scaled)) digits
      else places x.abs digits)

/-- The mantissa of a positive number with a count of places, and its decimal exponent. -/
def scientific (x : Float) (digits : Nat) : String × Int :=
  let e := toSigned64 (floor x.log10)
  let mantissa := places (x / integralPower 10.0 e) digits
  match read? mantissa with
  | some m =>
    if m ≥ 10.0 then (places (x / integralPower 10.0 (e + 1)) digits, e + 1)
    else if m < 1.0 then (places (x / integralPower 10.0 (e - 1)) digits, e - 1)
    else (mantissa, e)
  | none => (mantissa, e)

/-- The digits of the shortest decimal of a number, without zeros at its ends. -/
def significantDigits (x : Float) : List Char :=
  let digits := ((text x).toList.takeWhile (· != 'e')).filter Char.isDigit
  let digits := digits.dropWhile (· == '0')
  (digits.reverse.dropWhile (· == '0')).reverse

/-- A number with an exponent: with a count of places, or with as many as its shortest decimal has. -/
def exponentialText (x : Float) (digits : Option Nat) : String :=
  if x == 0.0 then
    match digits with
    | some (n + 1) => "0." ++ zeros (n + 1) ++ "e+0"
    | _ => "0e+0"
  else
    let (mantissa, e) :=
      match digits with
      | some n => scientific x.abs n
      | none =>
        let (full, e) := scientific x.abs 17
        match significantDigits x.abs with
        | [] => (full, e)
        | [c] => (String.ofList [c], e)
        | c :: rest => (String.ofList (c :: '.' :: rest), e)
    signText x ++ mantissa ++ exponentText e

/-- A number with a count of significant digits. -/
def precisionText (x : Float) (precision : Nat) : String :=
  if x == 0.0 then (if precision > 1 then "0." ++ zeros (precision - 1) else "0")
  else
    let (mantissa, e) := scientific x.abs (precision - 1)
    if e < -6 || e ≥ precision then signText x ++ mantissa ++ exponentText e
    else signText x ++ fixedText x.abs ((precision : Int) - e - 1).toNat

end GuestScript.Number
