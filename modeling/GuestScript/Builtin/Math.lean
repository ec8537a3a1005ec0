import GuestScript.Builtin.Basic
import GuestScript.Number.Transcendental

/-!
# `Math`

Functions of numbers. Each function of one number converts its first argument and applies an operation on
doubles; the functions of many numbers convert all of their arguments first.
-/

namespace GuestScript

namespace Number

/-- The nearest integer, a half going up. -/
def roundUp (x : Float) : Float :=
  if !x.isFinite || x == 0.0 then x
  else if -0.5 ≤ x && x < 0.0 then -0.0
  else
    let down := floor x
    if x - down ≥ 0.5 then down + 1.0 else down

/-- One with the sign of a number; zeros and not-a-number stay as they are. -/
def sign (x : Float) : Float :=
  if x.isNaN || x == 0.0 then x else withSign (signBit x) 1.0

/-- The number of zero bits in front of a word. -/
def leadingZeros (x : Float) : Float :=
  let w := (toWord x).toNat
  ofNat (if w = 0 then 32 else 31 - w.log2)

def wordProduct (x y : Float) : Float :=
  ofSignedWord (toWord x * toWord y)

/-- The greater of two numbers; positive zero is above negative zero. -/
def greater (x y : Float) : Float :=
  if x.isNaN || y.isNaN then nan
  else if y > x || (y == 0.0 && x == 0.0 && signBit x) then y
  else x

/-- The lesser of two numbers; negative zero is below positive zero. -/
def lesser (x y : Float) : Float :=
  if x.isNaN || y.isNaN then nan
  else if y < x || (y == 0.0 && x == 0.0 && signBit y) then y
  else x

/-- The root of the sum of squares, added up from the front; infinite as soon as one number is. -/
def rootOfSquares (xs : List Float) : Float :=
  if xs.any Float.isInf then infinity
  else (xs.foldl (fun sum x => sum + x * x) (-0.0)).sqrt

/-- A number from zero up to one that is spread evenly over the values of a counter. -/
def spread (n : Nat) : Float :=
  ofNat ((n * 6364136223846793005 + 1442695040888963407) % 9007199254740992) / 9007199254740992.0

end Number

/-- The operations of the functions of one number. -/
def MathMethod.unary? : MathMethod → Option (Float → Float)
  | abs => some Float.abs
  | ceil => some Number.ceil
  | floor => some Number.floor
  | round => some Number.roundUp
  | trunc => some Number.truncate
  | sign => some Number.sign
  | sqrt => some Float.sqrt
  | cbrt => some Float.cbrt
  | exp => some Float.exp
  | expm1 => some Number.expMinusOne
  | log => some Float.log
  | log1p => some Number.logOnePlus
  | log2 => some Float.log2
  | log10 => some Float.log10
  | sin => some Float.sin
  | cos => some Float.cos
  | tan => some Float.tan
  | asin => some Float.asin
  | acos => some Float.acos
  | atan => some Float.atan
  | sinh => some Float.sinh
  | cosh => some Float.cosh
  | tanh => some Float.tanh
  | asinh => some Float.asinh
  | acosh => some Float.acosh
  | atanh => some Number.artanh
  | fround => some fun x => x.toFloat32.toFloat
  | clz32 => some Number.leadingZeros
  | _ => none

open Eval in
/-- What the functions of `Math` do. -/
def MathMethod.run (method : MathMethod) (args : Array Value) : Eval Value := do
  match method.unary? with
  | some f => return .number (f (← toNumber (argument args 0)))
  | none =>
    match method with
    | .max => return .number ((← args.toList.mapM toNumber).foldl Number.greater (-Number.infinity))
    | .min => return .number ((← args.toList.mapM toNumber).foldl Number.lesser Number.infinity)
    | .hypot => return .number (Number.rootOfSquares (← args.toList.mapM toNumber))
    | .random => return .number (Number.spread (← counted))
    | _ =>
      let x ← toNumber (argument args 0)
      let y ← toNumber (argument args 1)
      pure <| .number <|
        match method with
        | .pow => Number.power x y
        | .atan2 => Float.atan2 x y
        | _ => Number.wordProduct x y

end GuestScript
