import GuestScript.Builtin.Basic
import GuestScript.Time.Reader

/-!
# `Date`

An object with a time. The local zone is the universal one, so that both families of methods agree.
-/

namespace GuestScript

namespace Eval

/-- The time of the machine's own clock. -/
def now : Eval Float :=
  return Number.ofNat (← clock)

def receiverTime (receiver : Value) : Eval Float := do
  let refuse : Eval Float := throwTypeError "this is not a Date object."
  match receiver with
  | .object id =>
    let o ← object id
    match o.sort, o.primitive with
    | .date, some (.number t) => pure t
    | _, _ => refuse
  | _ => refuse

def storeTime (receiver : Value) (t : Float) : Eval Value := do
  match receiver with
  | .object id => modifyObject id fun o => { o with primitive := some (.number t) }
  | _ => pure ()
  pure (.number t)

/-- The parts of a time from arguments; a year of two digits is one of the twentieth century. -/
def timeParts (args : Array Value) : Eval (Array Float) := do
  let given ← (args.toList.take 7).mapM toNumber
  let missing := [Number.nan, 0.0, 1.0, 0.0, 0.0, 0.0, 0.0].drop given.length
  let parts := (given ++ missing).toArray
  let year := Number.truncate (parts.getD 0 Number.nan)
  if 0.0 ≤ year && year ≤ 99.0 then pure (parts.setIfInBounds 0 (1900.0 + year)) else pure parts

/-- The time that one argument of the constructor stands for. -/
def timeOf (v : Value) : Eval Float := do
  let convert : Eval Float := do
    match ← toPrimitive v .default with
    | .string s => pure (Time.read s)
    | p => toNumber p
  match v with
  | .object id =>
    let o ← object id
    match o.sort, o.primitive with
    | .date, some (.number t) => pure t
    | _, _ => convert
  | _ => convert

/-- The time that the arguments of the constructor stand for. -/
def constructorTime (args : Array Value) : Eval Float := do
  match args.toList with
  | [] => now
  | [v] => timeOf v
  | _ => return Time.compose (← timeParts args)

/-- Write some parts of a time, from one field on. -/
def writeParts (args : Array Value) (field : Nat) : Nat → Nat → Array Float → Eval (Array Float)
  | 0, _, parts => pure parts
  | count + 1, i, parts => do
    let x ← toNumber (argument args i)
    writeParts args field count (i + 1) (parts.setIfInBounds (field + i) x)

/-- Set parts of a receiver's time. Without a time only the year can be set. -/
def writeTime (receiver : Value) (args : Array Value) (field : DateField) : Eval Value := do
  let t ← receiverTime receiver
  if t.isNaN && field ≠ .year then pure (.number Number.nan)
  else
    let parts := (Time.Parts.ofTime (if t.isNaN then 0.0 else t)).toArray
    let count := min field.writable (max args.size 1)
    let parts ← writeParts args field.index count 0 parts
    storeTime receiver (Time.clip (Time.compose parts))

def timeText (receiver : Value) (render : Time.Parts → String) : Eval Value := do
  let t ← receiverTime receiver
  pure (.string (if t.isNaN then "Invalid Date" else render (Time.Parts.ofTime t)))

end Eval

open Eval in
/-- What the functions of `Date` do. -/
def DateMethod.run (method : DateMethod) (receiver : Value) (args : Array Value) :
    Eval Value := do
  match method with
  | .make =>
    match ← constructing? receiver with
    | none => return .string (Time.Parts.ofTime (← Eval.now)).words
    | some id =>
      wrapInto id .date (.number (Time.clip (← constructorTime args)))
  | .now => return .number (← Eval.now)
  | .parse => return .number (Time.clip (Time.read (← toText (argument args 0))))
  | .utc => return .number (Time.clip (Time.compose (← timeParts args)))
  | .read field _ =>
    let t ← receiverTime receiver
    if t.isNaN then pure (.number t)
    else pure (.number ((Time.Parts.ofTime t).toArray.getD field.index 0.0))
  | .write field _ => writeTime receiver args field
  | .getTime | .valueOf => return .number (← receiverTime receiver)
  | .setTime =>
    let _ ← receiverTime receiver
    storeTime receiver (Time.clip (← toNumber (argument args 0)))
  | .getTimezoneOffset =>
    let t ← receiverTime receiver
    pure (.number (if t.isNaN then t else -0.0))
  | .toISOString =>
    let t ← receiverTime receiver
    if t.isNaN then throwFault .rangeError "Invalid time value"
    else pure (.string (Time.Parts.ofTime t).iso)
  | .toJSON =>
    let hasText ←
      match ← toPrimitive receiver .number with
      | .number x => pure x.isFinite
      | _ => pure true
    if hasText then call (← getNamed receiver "toISOString") receiver #[] else pure .null
  | .toString => timeText receiver Time.Parts.words
  | .toUTCString => timeText receiver Time.Parts.mail
  | .toDateString => timeText receiver Time.Parts.dateWords
  | .toTimeString => timeText receiver Time.Parts.clockWords
  | .toLocaleDateString => timeText receiver Time.Parts.dateNumbers
  | .toLocaleTimeString => timeText receiver Time.Parts.halfDayClock
  | .toLocaleString => timeText receiver Time.Parts.numbers

end GuestScript
