import GuestScript.Builtin.Basic
import GuestScript.Number.Fixed

/-!
# `Number` and `Boolean`

Wrappers of numbers and truth values, and the notations of a number.
-/

namespace GuestScript

namespace Eval

def receiverNumber (receiver : Value) (name : String) : Eval Float := do
  match ← wrapped? receiver .number with
  | some (.number x) => pure x
  | _ => throwTypeError ("Number.prototype." ++ name ++ " requires that 'this' be a Number")

def receiverBoolean (receiver : Value) (name : String) : Eval Bool := do
  match ← wrapped? receiver .boolean with
  | some (.boolean b) => pure b
  | _ => throwTypeError ("Boolean.prototype." ++ name ++ " requires that 'this' be a Boolean")

def digitCount (v : Value) (least : Nat) (name : String) : Eval Nat := do
  let x ← toInteger v
  if Number.ofNat least ≤ x && x ≤ 100.0 then pure (Number.toNatural64 x)
  else
    throwFault .rangeError
      (name ++ "() argument must be between " ++ toString least ++ " and 100")

end Eval

open Eval in
/-- What the functions of `Number` do. -/
def NumberMethod.run (method : NumberMethod) (receiver : Value) (args : Array Value) :
    Eval Value := do
  let first := argument args 0
  match method with
  | .make =>
    let x ← if args.isEmpty then pure 0.0 else toNumber first
    match ← constructing? receiver with
    | some id => wrapInto id .number (.number x)
    | none => pure (.number x)
  | .isFinite =>
    pure <| .boolean <|
      match first with
      | .number x => x.isFinite
      | _ => false
  | .isNaN =>
    pure <| .boolean <|
      match first with
      | .number x => x.isNaN
      | _ => false
  | .isInteger =>
    pure <| .boolean <|
      match first with
      | .number x => Number.isIntegral x
      | _ => false
  | .isSafeInteger =>
    pure <| .boolean <|
      match first with
      | .number x => Number.isIntegral x && x.abs ≤ Number.maxSafeInteger
      | _ => false
  | .toString =>
    let x ← receiverNumber receiver "toString"
    let radix ← if first.isUndefined then pure 10.0 else toInteger first
    if 2.0 ≤ radix && radix ≤ 36.0 then
      pure (.string (Number.radixText x (Number.toNatural64 radix)))
    else throwFault .rangeError "toString() radix must be between 2 and 36"
  | .toLocaleString => return .string (Number.text (← receiverNumber receiver "toLocaleString"))
  | .valueOf => return .number (← receiverNumber receiver "valueOf")
  | .toFixed =>
    let x ← receiverNumber receiver "toFixed"
    let digits ← digitCount first 0 "toFixed"
    pure (.string (if x.isFinite then Number.fixedText x digits else Number.text x))
  | .toExponential =>
    let x ← receiverNumber receiver "toExponential"
    let places ← if first.isUndefined then pure none else some <$> toInteger first
    if !x.isFinite then pure (.string (Number.text x))
    else
      match places with
      | none => pure (.string (Number.exponentialText x none))
      | some p =>
        if 0.0 ≤ p && p ≤ 100.0 then
          pure (.string (Number.exponentialText x (some (Number.toNatural64 p))))
        else throwFault .rangeError "toExponential() argument must be between 0 and 100"
  | .toPrecision =>
    let x ← receiverNumber receiver "toPrecision"
    if first.isUndefined || !x.isFinite then pure (.string (Number.text x))
    else return .string (Number.precisionText x (← digitCount first 1 "toPrecision"))

open Eval in
/-- What the functions of `Boolean` do. -/
def BooleanMethod.run (method : BooleanMethod) (receiver : Value) (args : Array Value) :
    Eval Value := do
  match method with
  | .make =>
    let b := Value.boolean (argument args 0).truthy
    match ← constructing? receiver with
    | some id => wrapInto id .boolean b
    | none => pure b
  | .toString =>
    return .string (if ← receiverBoolean receiver "toString" then "true" else "false")
  | .valueOf => return .boolean (← receiverBoolean receiver "valueOf")

end GuestScript
