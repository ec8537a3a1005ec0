import GuestScript.Number.Binary

/-!
# Arithmetic of numbers

The operators of scripts on doubles: the remainder with the sign of the dividend, powers, the 32-bit
word operators, and the four comparisons. Conversions to words stop at the ends of the signed 64-bit
range before the low 32 bits are taken, so `toWord` of anything from `2 ^ 63` on has all bits set.
-/

namespace GuestScript.Number

/-! ## 1. Special values -/

/-- Not-a-number. -/
def nan : Float := Float.ofBits 0x7FF8000000000000

/-- Positive infinity. -/
def infinity : Float := Float.ofBits 0x7FF0000000000000

/-- Negation, with one not-a-number only. -/
def negate (x : Float) : Float :=
  if x.isNaN then nan else -x

/-! ## 2. Remainder and power -/

/-- The remainder of the exact division of two magnitudes over the smaller of their exponents. -/
def remainderMagnitude (a b : Binary) : Float :=
  let e := min a.exponent b.exponent
  let r := (a.mantissa <<< (a.exponent - e).toNat) % (b.mantissa <<< (b.exponent - e).toNat)
  let (m, e') := normalize 2200 r e
  ofExact m e'

/-- The exact remainder of a division that rounds its quotient toward zero; it has the sign of the
dividend. -/
def remainder (x y : Float) : Float :=
  if x.isNaN || y.isNaN || x.isInf || y == 0.0 then nan
  else if y.isInf || x == 0.0 then x
  else withSign (signBit x) (remainderMagnitude (Binary.ofFloat x) (Binary.ofFloat y))

/-- A power, which is not-a-number for a not-a-number exponent and for `± 1` to an infinite one. -/
def power (base exponent : Float) : Float :=
  if exponent.isNaN || ((base == 1.0 || base == -1.0) && exponent.isInf) then nan
  else base.pow exponent

/-! ## 3. Words -/

/-- The low 32 bits of the truncated value. -/
def toWord (x : Float) : UInt32 :=
  if x.isNaN || x.isInf then 0 else UInt32.ofNat ((toSigned64 x) % 4294967296).toNat

/-- A word read as a signed integer. -/
def ofSignedWord (w : UInt32) : Float :=
  if w < 0x80000000 then w.toFloat else -(0 - w).toFloat

/-- The truncated value as a signed 32-bit integer. -/
def toSigned32 (x : Float) : Int :=
  let w := (toWord x).toNat
  if w < 2147483648 then w else (w : Int) - 4294967296

/-- A shift distance: the low five bits. -/
def shiftDistance (y : Float) : UInt32 :=
  toWord y &&& 0x1F

/-- Shift a word right, filling with its sign bit. -/
def arithmeticShift (w distance : UInt32) : UInt32 :=
  if w < 0x80000000 then w >>> distance else ~~~((~~~w) >>> distance)

/-- Bitwise complement. -/
def bitNot (x : Float) : Float := ofSignedWord (~~~toWord x)

/-- Bitwise conjunction. -/
def bitAnd (x y : Float) : Float := ofSignedWord (toWord x &&& toWord y)

def bitOr (x y : Float) : Float := ofSignedWord (toWord x ||| toWord y)

/-- Bitwise exclusive disjunction. -/
def bitXor (x y : Float) : Float := ofSignedWord (toWord x ^^^ toWord y)

def shiftLeft (x y : Float) : Float := ofSignedWord (toWord x <<< shiftDistance y)

def shiftRight (x y : Float) : Float := ofSignedWord (arithmeticShift (toWord x) (shiftDistance y))

def shiftRightZero (x y : Float) : Float := (toWord x >>> shiftDistance y).toFloat

/-! ## 4. Comparison and rounding -/

/-- Order of two numbers, undefined when one of them is not a number. -/
def lessThan? (x y : Float) : Option Bool :=
  if x.isNaN || y.isNaN then none else some (x < y)

/-- Numeric equality: not-a-number equals nothing and the zeros are equal. -/
def equal (x y : Float) : Bool :=
  x == y

/-- Identity of numbers: not-a-number is itself and the zeros differ. -/
def same (x y : Float) : Bool :=
  if x.isNaN && y.isNaN then true
  else if x == 0.0 && y == 0.0 then signBit x == signBit y
  else x == y

/-- Identity of numbers up to the sign of zero. -/
def sameZero (x y : Float) : Bool :=
  (x.isNaN && y.isNaN) || x == y

/-- The integer part, with zero for not-a-number and no negative zero from a zero. -/
def toInteger (x : Float) : Float :=
  if x.isNaN || x == 0.0 then 0.0
  else if x.isInf then x
  else truncate x

end GuestScript.Number
