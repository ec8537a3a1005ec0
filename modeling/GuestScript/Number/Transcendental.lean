import GuestScript.Number.Arithmetic

/-!
# Logarithms and exponentials near one

The functions whose plain formulas lose digits: `log (1 + x)`, `exp x - 1`, and the inverse of the
hyperbolic tangent, which is made from the first. Both reduce their argument by powers of two and use a
rational approximation on what is left.

Where a product is added to something, the two are rounded once: `multiplyAdd x y z` is the double nearest to
the exact value of `x * y + z`. The sum of two exact binary fractions is an integer over the smaller of their
exponents, and the only rounding is that of this integer to a mantissa.

* `divideToEven` is a quotient by a power of two, rounded to the nearest integer with a half going to the
  even neighbour.
* `nearest` is the double nearest to an exact magnitude.
-/

namespace GuestScript.Number

/-! ## 1. Rounding an exact magnitude -/

/-- The integer nearest to `m / 2 ^ k`, a half going to the even one of its neighbours. -/
def divideToEven (m k : Nat) : Nat :=
  let unit := Nat.pow 2 k
  let below := m / unit
  let twice := 2 * (m % unit)
  if twice > unit ∨ (twice = unit ∧ below % 2 = 1) then below + 1 else below

/-- The double nearest to the magnitude `m * 2 ^ e`, a half going to the even mantissa. -/
def nearest (m : Nat) (e : Int) : Float :=
  let surplus := max ((m.log2 : Int) - 52) (minExponent - e)
  if surplus ≤ 0 then ofExact m e
  else
    let q := divideToEven m surplus.toNat
    let (q', e') := normalize 1 q (e + surplus)
    ofExact q' e'

/-! ## 2. Product and sum -/

/-- The exact value as an integer over `2 ^ e`, for an `e` that is not above its exponent. -/
def Binary.over (b : Binary) (e : Int) : Int :=
  let magnitude : Int := (b.mantissa <<< (b.exponent - e).toNat : Nat)
  if b.negative then -magnitude else magnitude

/-- The exact product. -/
def Binary.mul (a b : Binary) : Binary :=
  { negative := a.negative != b.negative
    mantissa := a.mantissa * b.mantissa
    exponent := a.exponent + b.exponent }

/-- The double nearest to `x * y + z`. A sum that is exactly zero needs no rounding at all, so there the
plain operations give the value and its sign. -/
def multiplyAdd (x y z : Float) : Float :=
  if !x.isFinite || !y.isFinite || !z.isFinite then x * y + z
  else
    let p := (Binary.ofFloat x).mul (Binary.ofFloat y)
    let c := Binary.ofFloat z
    let e := min p.exponent c.exponent
    let sum := p.over e + c.over e
    if sum = 0 then x * y + z else withSign (sum < 0) (nearest sum.natAbs e)

/-- The double nearest to `x * y - z`. -/
def multiplySub (x y z : Float) : Float :=
  multiplyAdd x y (-z)

/-- The double nearest to `z - x * y`. -/
def subMultiply (z x y : Float) : Float :=
  multiplyAdd (-x) y z

/-! ## 3. Bits -/

/-- The upper half of the bits of a double without its sign: larger for larger magnitudes. -/
def magnitudeWord (x : Float) : Nat :=
  ((x.toBits >>> 32) &&& 0x7FFFFFFF).toNat

/-- Multiply a normal double by a power of two that leaves it normal, in its bits. -/
def scaleBits (x : Float) (k : Int) : Float :=
  Float.ofBits (((x.toBits.toNat : Int) + k * 4503599627370496) % 18446744073709551616).toNat.toUInt64

def ln2High : Float := 6.93147180369123816490e-01

/-- What the upper part of the logarithm of two leaves. -/
def ln2Low : Float := 1.90821492927058770002e-10

/-! ## 4. Logarithm -/

/-- An argument `1 + x = 2 ^ k * (1 + f)` with a correction for what the sum lost, and whether `f` is too
small for the approximation. -/
structure LogReduction where
  k : Int
  f : Float
  correction : Float
  isTiny : Bool

/-- Reduce the argument of a logarithm. -/
def reduceLog (x : Float) : LogReduction :=
  let w := magnitudeWord x
  let nearZero := if signBit x then w ≤ 0x3FD2BEC3 else w < 0x3FDA827A
  if nearZero then { k := 0, f := x, correction := 0.0, isTiny := false }
  else
    let isLarge := w ≥ 0x43400000
    let u := if isLarge then x else 1.0 + x
    let k : Int := (magnitudeWord u / 1048576 : Nat) - 1023
    let correction :=
      if isLarge then 0.0 else (if k > 0 then 1.0 - (u - x) else x - (u - 1.0)) / u
    let high := magnitudeWord u % 1048576
    let unit := scaleBits u (-k)
    if high < 0x6A09E then { k, f := unit - 1.0, correction, isTiny := high == 0 }
    else
      { k := k + 1, f := scaleBits unit (-1) - 1.0, correction, isTiny := (1048576 - high) / 4 == 0 }

/-- The logarithm of a reduced argument. -/
def logReduced (r : LogReduction) : Float :=
  let k := ofInt r.k
  let f := r.f
  let half := 0.5 * f * f
  let low := multiplyAdd k ln2Low r.correction
  if r.isTiny then
    if f == 0.0 then
      if r.k = 0 then 0.0 else multiplyAdd k ln2High low
    else
      let rest := subMultiply 1.0 0.66666666666666666 f * half
      if r.k = 0 then f - rest else multiplySub k ln2High ((rest - low) - f)
  else
    let s := f / (2.0 + f)
    let z := s * s
    let z2 := z * z
    let z4 := z2 * z2
    let z6 := z4 * z2
    let r2 := multiplyAdd z 2.857142874366239149e-01 3.999999999940941908e-01
    let r3 := multiplyAdd z 1.818357216161805012e-01 2.222219843214978396e-01
    let r4 := multiplyAdd z 1.479819860511658591e-01 1.531383769920937332e-01
    let sum := multiplyAdd z6 r4 (multiplyAdd z4 r3 (multiplyAdd z 6.666666666666735130e-01 (z2 * r2)))
    let rest := s * (half + sum)
    if r.k = 0 then f - (half - rest) else multiplySub k ln2High ((half - (rest + low)) - f)

/-- The logarithm of one more than the argument. -/
def logOnePlus (x : Float) : Float :=
  let w := magnitudeWord x
  if x.isNaN then nan
  else if x < -1.0 then nan
  else if x == -1.0 then -infinity
  else if x.isInf then x
  else if w < 0x3C900000 then x
  else if w < 0x3E200000 then x - x * x * 0.5
  else logReduced (reduceLog x)

/-! ## 5. Exponential -/

/-- An argument `x = k * log 2 + r` with a correction for what `r` lost. -/
structure ExpReduction where
  k : Int
  r : Float
  correction : Float

/-- Reduce the argument of an exponential. -/
def reduceExp (x : Float) : ExpReduction :=
  let w := magnitudeWord x
  if w ≤ 0x3FD62E42 then { k := 0, r := x, correction := 0.0 }
  else
    let half := if signBit x then -0.5 else 0.5
    let k : Int :=
      if w < 0x3FF0A2B2 then (if signBit x then -1 else 1)
      else toSigned64 (1.44269504088896338700e+00 * x + half)
    let high := subMultiply x (ofInt k) ln2High
    let low := ofInt k * ln2Low
    let r := high - low
    { k, r, correction := (high - r) - low }

/-- One less than the exponential of a reduced argument. -/
def expReduced (a : ExpReduction) : Float :=
  let x := a.r
  let k := a.k
  let half := 0.5 * x
  let hxs := x * half
  let h2 := hxs * hxs
  let h4 := h2 * h2
  let r1 := multiplyAdd hxs (-3.33333333333331316428e-02) 1.0
  let r2 := multiplyAdd hxs (-7.93650757867487942473e-05) 1.58730158725481460165e-03
  let r3 := multiplyAdd hxs (-2.01099218183624371326e-07) 4.00821782732936239552e-06
  let r := multiplyAdd h4 r3 (multiplyAdd h2 r2 r1)
  let t := subMultiply 3.0 r half
  let e := hxs * ((r - t) / subMultiply 6.0 x t)
  if k = 0 then x - multiplySub x e hxs
  else
    let e := multiplySub (e - a.correction) x a.correction - hxs
    if k = -1 then 0.5 * (x - e) - 0.5
    else if k = 1 then
      if x < -0.25 then -2.0 * (e - (x + 0.5)) else 1.0 + 2.0 * (x - e)
    else if k ≤ -2 || k > 56 then scaleBits (1.0 - (e - x)) k - 1.0
    else
      let small := scaleBits 1.0 (-k)
      if k < 20 then scaleBits ((1.0 - small) - (e - x)) k
      else scaleBits ((x - (e + small)) + 1.0) k

/-- One less than the exponential of the argument. -/
def expMinusOne (x : Float) : Float :=
  if x.isNaN then nan
  else if x > 709.782712893383973096 then infinity
  else if signBit x && magnitudeWord x ≥ 0x4043687A then -1.0
  else if magnitudeWord x < 0x3C900000 then x
  else expReduced (reduceExp x)

/-! ## 6. Inverse hyperbolic tangent -/

/-- The inverse of the hyperbolic tangent. -/
def artanh (x : Float) : Float :=
  0.5 * logOnePlus ((2.0 * x) / (1.0 - x))

end GuestScript.Number
