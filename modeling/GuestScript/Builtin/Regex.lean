import GuestScript.Builtin.Basic
import GuestScript.Machine.Regex

/-!
# `RegExp`

Regular expressions as objects: searching, and reading what they were made from.
-/

namespace GuestScript

/-- The flag that a function of one flag asks for. -/
def RegexMethod.flag? : RegexMethod → Option Char
  | global => some 'g'
  | ignoreCase => some 'i'
  | multiline => some 'm'
  | dotAll => some 's'
  | unicode => some 'u'
  | sticky => some 'y'
  | hasIndices => some 'd'
  | _ => none

namespace Eval

/-- The source and the flags that the first argument of the constructor stands for. -/
def sourceAndFlags (v : Value) : Eval (String × String) := do
  match ← regexOf? v with
  | some r => pure (r.source, r.flags)
  | none => if v.isUndefined then pure ("(?:)", "") else return (← toText v, "")

/-- Make a regular expression from arguments. -/
def regexFromArguments (receiver : Value) (args : Array Value) : Eval Value := do
  let (source, ownFlags) ← sourceAndFlags (argument args 0)
  let second := argument args 1
  let flags ← if second.isUndefined then pure ownFlags else toText second
  let r ← makeRegex source flags
  match ← constructing? receiver with
  | some id =>
    modifyObject id fun o => regexInto o r
    pure (.object id)
  | none =>
    return .object (← allocate (regexInto { prototype := some Intrinsic.regexPrototype.id } r))

end Eval

open Eval in
/-- What the functions of `RegExp` do. -/
def RegexMethod.run (method : RegexMethod) (receiver : Value) (args : Array Value) :
    Eval Value := do
  match method with
  | .make => regexFromArguments receiver args
  | .exec =>
    let input ← toText (argument args 0)
    match ← execRegex receiver input with
    | some m => matchArray m input
    | none => pure .null
  | .test =>
    let input ← toText (argument args 0)
    return .boolean (← execRegex receiver input).isSome
  | .toString =>
    let source ← display (← getNamed receiver "source")
    let flags ← display (← getNamed receiver "flags")
    pure (.string ("/" ++ source ++ "/" ++ flags))
  | .source =>
    let r ← receiverRegex receiver "source"
    pure (.string (if r.source.isEmpty then "(?:)" else r.source))
  | .flags =>
    let r ← receiverRegex receiver "flags"
    pure (.string (String.ofList (r.flags.toList.mergeSort fun a b => a ≤ b)))
  | .global | .ignoreCase | .multiline | .dotAll | .unicode | .sticky | .hasIndices =>
    let name := String.ofList (method.signature.1.toList.drop 4)
    let r ← receiverRegex receiver name
    pure (.boolean (method.flag?.any r.has))

end GuestScript
