/-!
# Doubles as exact binary fractions

A finite double is `± mantissa * 2 ^ exponent` with a mantissa below `2 ^ 53`. This module reads
that triple off the bits, builds a double back from an exact magnitude, and defines the roundings to
an integer that scripts can see. All of it is exact arithmetic on `Nat` and `Int`.

* `Binary.ofFloat` is the exact value of a finite double.
* `truncate`, `floor`, `ceil` and `roundAway` are the four roundings to an integral double.
* `toSigned64` is the truncation to a 64-bit signed integer that stops at the ends of the range.
-/

namespace GuestScript.Number

/-! ## 1. The exact value of a double -/

/-- The exact value `± mantissa * 2 ^ exponent` of a finite double. -/
structure Binary where
  negative : Bool
  mantissa : Nat
  exponent : Int

def minExponent : Int := -1074

/-- The sign bit of a double, set also for negative zero. -/
def signBit (x : Float) : Bool :=
  x.toBits >>> 63 == 1

/-- The exact value of a finite double; the result for other doubles has no meaning. -/
def Binary.ofFloat (x : Float) : Binary :=
  let bits := x.toBits
  let biased := ((bits >>> 52) &&& 0x7FF).toNat
  let fraction := (bits &&& 0xFFFFFFFFFFFFF).toNat
  if biased = 0 then
    { negative := signBit x, mantissa := fraction, exponent := minExponent }
  else
    { negative := signBit x, mantissa := fraction + 4503599627370496, exponent := (biased : Int) - 1075 }

/-- Give a magnitude the sign of `negative`. -/
def withSign (negative : Bool) (magnitude : Float) : Float :=
  if negative then -magnitude else magnitude

/-- A mantissa below `2 ^ 53` times a power of two that a double holds exactly, from its bits. -/
def ofExact (mantissa : Nat) (exponent : Int) : Float :=
  if mantissa = 0 then 0.0
  else
    -- Bring the mantissa into the normal range as far as the exponent allows it.
    let up := min (52 - mantissa.log2) (exponent - minExponent).toNat
    let m := mantissa <<< up
    let e := exponent - up
    if m < 4503599627370496 then Float.ofBits m.toUInt64
    else if e > 971 then Float.ofBits 0x7FF0000000000000
    else Float.ofBits ((((e + 1075).toNat <<< 52) + (m - 4503599627370496)).toUInt64)

/-- Drop factors of two from an exact magnitude until it fits a mantissa. -/
def normalize : Nat → Nat → Int → Nat × Int
  | 0, m, e => (m, e)
  | fuel + 1, m, e => if m < 9007199254740992 then (m, e) else normalize fuel (m / 2) (e + 1)

/-! ## 2. Integral doubles -/

/-- `2 ^ 53`: from here on every double is an integer. -/
def integralFrom : Float := 9007199254740992.0

/-- The integer part of a double, keeping its sign (also on a zero result). -/
def truncate (x : Float) : Float :=
  if x.abs < integralFrom then withSign (signBit x) x.abs.toUInt64.toFloat else x

/-- The greatest integral double that is not above the argument. -/
def floor (x : Float) : Float :=
  let t := truncate x
  if x < t then t - 1.0 else t

/-- The least integral double that is not below the argument. -/
def ceil (x : Float) : Float :=
  let t := truncate x
  if t < x then t + 1.0 else t

/-- The nearest integral double, a half going away from zero. -/
def roundAway (x : Float) : Float :=
  let t := truncate x
  if (x - t).abs < 0.5 then t
  else if x.abs < integralFrom then (if signBit x then t - 1.0 else t + 1.0) else x

/-- Whether a double is finite and has no fraction. -/
def isIntegral (x : Float) : Bool :=
  x.isFinite && truncate x == x

/-- Truncation to a signed 64-bit integer: not-a-number gives zero, and a value outside the range
gives the nearer end of it. -/
def toSigned64 (x : Float) : Int :=
  if x.isNaN then 0
  else if x.abs < 9223372036854775808.0 then
    let magnitude : Int := x.abs.toUInt64.toNat
    if signBit x then -magnitude else magnitude
  else if signBit x then -9223372036854775808 else 9223372036854775807

/-- Truncation to a natural number: not-a-number and negative values give zero, and a value above
the 64-bit range gives its end. -/
def toNatural64 (x : Float) : Nat :=
  if x.isNaN || signBit x then 0
  else if x < 18446744073709551616.0 then x.toUInt64.toNat
  else 18446744073709551615

/-- The double nearest to an integer. -/
def ofInt (n : Int) : Float :=
  if n < 0 then -(Float.ofNat n.natAbs) else Float.ofNat n.natAbs

/-- The double nearest to a natural number. -/
def ofNat (n : Nat) : Float :=
  if n < 18446744073709551616 then n.toUInt64.toFloat else Float.ofNat n

end GuestScript.Number
