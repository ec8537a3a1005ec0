import GuestScript.Number.Binary

/-!
# The text of a number

Among the decimals `digits * 10 ^ exponent` that round to a given double, the *shortest* ones have
the fewest digits, and of those the *nearest* one is chosen, a tie going to the even last digit.

For one, two, up to seventeen digits the two neighbours of the value on that decimal grid are tested
against the interval of reals that round to the double; seventeen digits always suffice. Every test is
an exact comparison of natural numbers.

A script's number is written so: not-a-number and the infinities by name, both zeros as `0`, and any
other value by its shortest decimal, positionally when the decimal point falls within the first
twenty-one digits or at most six places before them, and with an exponent otherwise.
-/

namespace GuestScript.Number

/-! ## 1. Decimals -/

/-- The decimal `digits * 10 ^ exponent`. -/
structure Decimal where
  digits : Nat
  exponent : Int
  deriving DecidableEq

/-- Drop trailing zero digits. -/
def Decimal.trim : Nat → Decimal → Decimal
  | 0, d => d
  | fuel + 1, d =>
    if d.digits ≠ 0 ∧ d.digits % 10 = 0 then
      Decimal.trim fuel { digits := d.digits / 10, exponent := d.exponent + 1 }
    else d

/-- The digits as characters, most significant first. -/
def Decimal.chars (d : Decimal) : List Char :=
  Nat.toDigits 10 d.digits

/-- The number of digits before the decimal point, when the point is placed by the exponent. -/
def Decimal.point (d : Decimal) : Int :=
  d.chars.length + d.exponent

/-! ## 2. Magnitude -/

/-- Whether `num / den < 10 ^ n`. -/
def belowPower (num den : Nat) (n : Int) : Bool :=
  if n ≥ 0 then num < den * Nat.pow 10 n.toNat else num * Nat.pow 10 (-n).toNat < den

/-- The first `n`, counting up from a lower bound, with `num / den < 10 ^ n`. -/
def magnitudeFrom : Nat → Nat → Nat → Int → Int
  | 0, _, _, n => n
  | fuel + 1, num, den, n => if belowPower num den n then n else magnitudeFrom fuel num den (n + 1)

/-- The least `n` with `num / den < 10 ^ n`, for a positive fraction. -/
def magnitude (num den : Nat) : Int :=
  let bits : Int := (num.log2 : Int) - den.log2
  magnitudeFrom 4 num den ((bits - 1) * 30103 / 100000)

/-! ## 3. Rounding intervals -/

/-- The reals that round to one double, as fractions over a common denominator: the value, the ends
of the interval, and whether the ends themselves belong to it. -/
structure RoundingInterval where
  value : Nat
  lower : Nat
  upper : Nat
  denominator : Nat
  closed : Bool

/-- The reals that round to `mantissa * 2 ^ exponent`. Below a power of two the next double is half
as far away. -/
def RoundingInterval.ofBinary (mantissa : Nat) (exponent : Int) : RoundingInterval :=
  let e := exponent - 2
  let scale := if e ≥ 0 then Nat.pow 2 e.toNat else 1
  let den := if e ≥ 0 then 1 else Nat.pow 2 (-e).toNat
  let gap := if mantissa = 4503599627370496 ∧ exponent > minExponent then 1 else 2
  { value := 4 * mantissa * scale
    lower := (4 * mantissa - gap) * scale
    upper := (4 * mantissa + 2) * scale
    denominator := den
    closed := mantissa % 2 = 0 }

/-- Whether the fraction `num / den`, given over the interval's own denominator times `scale`, lies
in the interval. -/
def RoundingInterval.contains (i : RoundingInterval) (num scale : Nat) : Bool :=
  if i.closed then i.lower * scale ≤ num && num ≤ i.upper * scale
  else i.lower * scale < num && num < i.upper * scale

/-- The decimal of the grid `10 ^ e` that is in the interval and nearest to its value, if any. -/
def RoundingInterval.onGrid? (i : RoundingInterval) (e : Int) : Option Decimal :=
  -- Over the denominator `i.denominator * scale`, a grid step is `step` and the value is `value`.
  let scale := if e ≥ 0 then 1 else Nat.pow 10 (-e).toNat
  let step := (if e ≥ 0 then Nat.pow 10 e.toNat else 1) * i.denominator
  let value := i.value * scale
  let below := value / step
  let rest := value - below * step
  let low := i.contains (below * step) scale && below ≠ 0
  let high := i.contains ((below + 1) * step) scale
  let pick (d : Nat) : Option Decimal := some { digits := d, exponent := e }
  if low && high then
    if 2 * rest < step then pick below
    else if step < 2 * rest then pick (below + 1)
    else if below % 2 = 0 then pick below else pick (below + 1)
  else if low then pick below
  else if high then pick (below + 1)
  else none

/-- The first grid with a hit, from the coarsest one on. -/
def RoundingInterval.search (i : RoundingInterval) : Nat → Int → Decimal
  | 0, e => { digits := i.value * Nat.pow 10 (-e).toNat / i.denominator, exponent := e }
  | fuel + 1, e =>
    match i.onGrid? e with
    | some d => d
    | none => RoundingInterval.search i fuel (e - 1)

/-! ## 4. The shortest decimal -/

/-- The shortest decimal that reads back as a positive finite double, without trailing zeros. -/
def shortest (mantissa : Nat) (exponent : Int) : Decimal :=
  let i := RoundingInterval.ofBinary mantissa exponent
  (i.search 18 (magnitude i.value i.denominator - 1)).trim 400

end GuestScript.Number

/-! ## 5. Notation -/

namespace GuestScript.Number

/-- Text of a run of zeros. -/
def zeros (n : Nat) : String :=
  String.ofList (List.replicate n '0')

/-- An exponent with its sign, as in `e+21`. -/
def exponentText (e : Int) : String :=
  (if e < 0 then "e-" else "e+") ++ toString e.natAbs

/-- A positive decimal in the notation of scripts. -/
def Decimal.text (d : Decimal) : String :=
  let cs := d.chars
  let k : Int := cs.length
  let n : Int := d.point
  if k ≤ n ∧ n ≤ 21 then String.ofList cs ++ zeros (n - k).toNat
  else if 0 < n ∧ n ≤ 21 then
    String.ofList (cs.take n.toNat) ++ "." ++ String.ofList (cs.drop n.toNat)
  else if -6 < n ∧ n ≤ 0 then "0." ++ zeros (-n).toNat ++ String.ofList cs
  else
    match cs with
    | [] => ""
    | [c] => String.ofList [c] ++ exponentText (n - 1)
    | c :: rest => String.ofList [c] ++ "." ++ String.ofList rest ++ exponentText (n - 1)

/-- The text of a number. An integer below `2 ^ 53` is written with all of its digits, which is its
shortest decimal, since no other integer reads back as it. -/
def text (x : Float) : String :=
  if x.isNaN then "NaN"
  else if x == 0.0 then "0"
  else if x.isInf then (if x > 0.0 then "Infinity" else "-Infinity")
  else
    let sign := if x < 0.0 then "-" else ""
    if x.abs < integralFrom && truncate x == x then sign ++ toString x.abs.toUInt64.toNat
    else
      let b := Binary.ofFloat x
      sign ++ (shortest b.mantissa b.exponent).text

end GuestScript.Number
