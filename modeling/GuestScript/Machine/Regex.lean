import GuestScript.Machine.Access
import GuestScript.Regex.Dialect

/-!
# Regular expression objects

An object with a compiled expression and the place where the next search starts, `lastIndex`. Only expressions
with the flags `g` and `y` read and write that place.
-/

namespace GuestScript.Eval

/-! ## 1. Objects -/

/-- The regular expression with a source and flags; a bad one is a syntax error. -/
def makeRegex (source flags : String) : Eval Regex :=
  match Regex.make source flags with
  | .ok r => pure r
  | .error message => throwFault .syntaxError message

/-- Make an object a regular expression. -/
def regexInto (o : Object) (r : Regex) : Object :=
  { o with sort := .regex, regex := some r }.insert "lastIndex" (.data (.number 0.0) true false false)

/-- A new regular expression object. -/
def newRegex (source flags : String) : Eval Value := do
  let r ← makeRegex source flags
  return .object (← allocate (regexInto { prototype := some Intrinsic.regexPrototype.id } r))

/-- The regular expression of an object. -/
def regexOf? (v : Value) : Eval (Option Regex) := do
  match v with
  | .object id => return (← object id).regex
  | _ => pure none

/-- The regular expression of a receiver. -/
def receiverRegex (receiver : Value) (name : String) : Eval Regex := do
  match ← regexOf? receiver with
  | some r => pure r
  | none =>
    throwTypeError ("RegExp.prototype." ++ name ++ " getter called on non-RegExp object")

/-! ## 2. Matches -/

/-- The place where a search starts: not before the first unit. -/
def searchStart (receiver : Value) : Eval Nat := do
  let x ← toInteger (← getNamed receiver "lastIndex")
  pure (if x > 0.0 then Number.toNatural64 x else 0)

/-- Search a text, starting and ending where `lastIndex` says for expressions that use it. -/
def execRegex (receiver : Value) (input : String) : Eval (Option Regex.Match) := do
  let r ← receiverRegex receiver "exec"
  let usesPlace := r.has 'g' || r.has 'y'
  let start ← if usesPlace then searchStart receiver else pure 0
  let found :=
    if Text.size input < start then none
    else (r.findAt? (.ofText input) start).filter fun m => !r.has 'y' || m.start = start
  if usesPlace then
    putNamed receiver "lastIndex" (.ofNat ((found.map Regex.Match.stop).getD 0))
  pure found

/-- The named groups of a match as an object, or `undefined` when no group has a name. -/
def groupsOf (m : Regex.Match) : Eval Value := do
  if m.hasNames then
    let entries := (m.names.zip m.groups).toList.filterMap fun (name, text) =>
      name.map fun n => (n, Value.ofText? text)
    let o := entries.foldl (fun (o : Object) entry => o.insertValue entry.1 entry.2) {}
    return .object (← allocate o)
  else pure .undefined

def matchArray (m : Regex.Match) (input : String) : Eval Value := do
  let id ← allocate
    { prototype := some Intrinsic.arrayPrototype.id
      sort := .array
      elements := some (m.groups.map Value.ofText?) }
  let groups ← groupsOf m
  modifyObject id fun o =>
    ((o.insertValue "index" (.ofNat m.start)).insertValue "input" (.string input)).insertValue "groups"
      groups
  pure (.object id)

end GuestScript.Eval
