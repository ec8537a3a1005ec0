import GuestScript.Machine.Access

/-!
# What built-in functions share

Arguments past the end are `undefined`, relative indices count from the end when they are negative, and every
call of a callback is a counted step.
-/

namespace GuestScript

/-- The argument with an index. -/
def argument (args : Array Value) (i : Nat) : Value :=
  args.getD i .undefined

/-- The place that a relative index stands for among `size` places. -/
def relativeIndex (x : Float) (size : Nat) : Nat :=
  let n := Number.ofNat size
  if x < 0.0 then (if n + x > 0.0 then Number.toNatural64 (n + x) else 0)
  else Number.toNatural64 (if x < n then x else n)

namespace Eval

/-- Call a callback, which is a counted step. -/
def callback (function receiver : Value) (args : Array Value) : Eval Value := do
  charge
  call function receiver args

/-- Refuse a value that is no function for the method that wants one. -/
def requireCallable (v : Value) (method : String) : Eval Unit := do
  if ← isCallable v then pure ()
  else throwTypeError ((← display v) ++ " is not a function (" ++ method ++ ")")

/-- The result of an optional relative index: `default` when it is absent. -/
def relativeArgument (v : Value) (size default : Nat) : Eval Nat := do
  if v.isUndefined then pure default
  else return relativeIndex (← toInteger v) size

/-- Make the instance of a constructor the wrapper of a primitive. -/
def wrapInto (id : ObjectId) (sort : ObjectClass) (primitive : Value) : Eval Value := do
  modifyObject id fun o => { o with sort := sort, primitive := some primitive }
  pure (.object id)

/-- The primitive of a receiver: the receiver itself, or what it wraps. -/
def wrapped? (receiver : Value) (sort : ObjectClass) : Eval (Option Value) := do
  match receiver with
  | .object id =>
    let o ← object id
    pure (if o.sort = sort then o.primitive else none)
  | v => pure (some v)

end Eval

end GuestScript
