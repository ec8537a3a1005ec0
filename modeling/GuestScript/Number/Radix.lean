import GuestScript.Number.Arithmetic
import GuestScript.Number.Notation

/-!
# Numbers in another radix

The integer part is written digit by digit from the low end; at most fifty-two digits of the fraction
follow it, each the integer part of the remaining fraction times the radix.
-/

namespace GuestScript.Number

/-- The digit with a given value, `0` to `9` and then `a` to `z`. -/
def radixDigit (d radix : Nat) : Char :=
  if d ≥ radix then '0'
  else if d < 10 then Char.ofNat ('0'.toNat + d)
  else Char.ofNat ('a'.toNat + (d - 10))

/-- The value of a character as a digit to a radix; letters count in either case. -/
def digitOf? (radix : Nat) (c : Char) : Option Nat :=
  let n := c.toNat
  let d :=
    if '0'.toNat ≤ n && n ≤ '9'.toNat then n - '0'.toNat
    else if 'a'.toNat ≤ n && n ≤ 'z'.toNat then n - 'a'.toNat + 10
    else if 'A'.toNat ≤ n && n ≤ 'Z'.toNat then n - 'A'.toNat + 10
    else radix
  if d < radix then some d else none

/-- The digits of an integer part, least significant last, put before those already known. -/
def wholeDigits (radix : Nat) : Nat → Float → List Char → List Char
  | 0, _, acc => acc
  | fuel + 1, x, acc =>
    if x ≥ 1.0 then
      let d := (remainder x (ofNat radix)).toUInt64.toNat
      wholeDigits radix fuel (truncate (x / ofNat radix)) (radixDigit d radix :: acc)
    else acc

/-- The first digits of a fraction, at most as many as the first argument says. -/
def fractionDigits (radix : Nat) : Nat → Float → List Char
  | 0, _ => []
  | fuel + 1, x =>
    if x > 0.0 then
      let scaled := x * ofNat radix
      let d := scaled.toUInt64.toNat
      radixDigit d radix :: fractionDigits radix fuel (scaled - ofNat d)
    else []

/-- The text of a number in a radix. -/
def radixText (x : Float) (radix : Nat) : String :=
  if radix = 10 || !x.isFinite then text x
  else
    let whole := truncate x.abs
    let fraction := x.abs - whole
    let wholeText := if whole == 0.0 then ['0'] else wholeDigits radix 1100 whole []
    let body :=
      if fraction > 0.0 then wholeText ++ '.' :: fractionDigits radix 52 fraction else wholeText
    String.ofList (if x < 0.0 then '-' :: body else body)

end GuestScript.Number
