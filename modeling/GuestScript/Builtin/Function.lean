import GuestScript.Builtin.Basic

/-!
# Functions, symbols and errors

* A function can be called with a chosen receiver, and its receiver and first arguments can be fixed.
* There are new symbols, and those that are shared by name: there is one for every name, and asking for it twice gives
  the same one.
* The seven constructors of errors set the message and the cause, and an error has a text.
-/

/-! ## 1. What all functions inherit -/

namespace GuestScript

open Eval in
def FunctionMethod.run (method : FunctionMethod) (receiver : Value) (args : Array Value) :
    Eval Value := do
  match method with
  | .nothing => pure .undefined
  | .call => Eval.call receiver (argument args 0) (args.extract 1 args.size)
  | .apply =>
    let list ←
      match argument args 1 with
      | .undefined | .null => pure #[]
      | .object id => listOf (.object id)
      | _ => throwTypeError "CreateListFromArrayLike called on non-object"
    Eval.call receiver (argument args 0) list
  | .bind =>
    match receiver, ← callable? receiver with
    | .object id, some c =>
      let bound := Callable.bound id (argument args 0) (args.extract 1 args.size) c.name c.arity
        c.isConstructor
      return .object (← newFunction bound)
    | _, _ => throwTypeError "Bind must be called on a function"
  | .toString =>
    match ← callable? receiver with
    | some c => pure (.string c.sourceText)
    | none => throwTypeError "Function.prototype.toString requires that 'this' be a Function"

end GuestScript

/-! ## 2. Symbols -/

namespace GuestScript

namespace Eval

def newSymbol (description : Option String) : Eval Symbol :=
  update (.newSymbol description)

/-- The description that an argument stands for. -/
def descriptionOf (v : Value) : Eval (Option String) := do
  if v.isUndefined then pure none else some <$> toText v

def receiverSymbol (receiver : Value) (name : String) : Eval Symbol := do
  let found ←
    match receiver with
    | .object id => pure (← object id).primitive
    | v => pure (some v)
  match found with
  | some (.symbol s) => pure s
  | _ => throwTypeError ("Symbol.prototype." ++ name ++ " requires that 'this' be a Symbol")

end Eval

open Eval in
/-- What the functions of `Symbol` do. -/
def SymbolMethod.run (method : SymbolMethod) (receiver : Value) (args : Array Value) :
    Eval Value := do
  let first := argument args 0
  match method with
  | .make =>
    if (← constructing? receiver).isSome then throwTypeError "Symbol is not a constructor"
    else return .symbol (← newSymbol (← descriptionOf first))
  | .registered => return .symbol (.registered (← toText first))
  | .keyFor =>
    match first with
    | .symbol s => pure (Value.ofText? s.registeredName?)
    | _ => throwTypeError "Symbol.keyFor requires a symbol"
  | .toString => return .string (← receiverSymbol receiver "toString").text
  | .valueOf => return .symbol (← receiverSymbol receiver "valueOf")
  | .description => return Value.ofText? (← receiverSymbol receiver "description").description?

end GuestScript

/-! ## 3. Errors -/

namespace GuestScript.Eval

/-- The text of a field, or a word that stands for `undefined`. -/
def textField (v : Value) (name absent : String) : Eval String := do
  let field ← getNamed v name
  if field.isUndefined then pure absent else toText field

/-- The text of an error: its name and its message. -/
def errorText (v : Value) : Eval String := do
  if v.isObject then
    let name ← textField v "name" "Error"
    let message ← textField v "message" ""
    pure (if message.isEmpty then name else if name.isEmpty then message else name ++ ": " ++ message)
  else throwTypeError "Error.prototype.toString requires that 'this' be an Object"

/-- The lines of a trace, the innermost function first. -/
def traceLines (names : Array String) : String :=
  names.foldr (fun name text => text ++ "\n    at " ++ (if name.isEmpty then "<anonymous>" else name)) ""

/-- Set the message of an error, if there is one. -/
def setMessage (id : ObjectId) (message : Value) : Eval Unit := do
  if !message.isUndefined then
    let text ← toText message
    modifyObject id fun o => o.insertHidden "message" (.string text)

/-- Set the cause of an error, if its options have one. -/
def setCause (id : ObjectId) (options : Value) : Eval Unit := do
  if let .object options := options then
    if ← hasProperty options (.string "cause") then
      let cause ← getNamed (.object options) "cause"
      modifyObject id fun o => o.insertHidden "cause" cause

def fillError (id : ObjectId) (args : Array Value) : Eval Value := do
  modifyObject id fun o => { o with sort := .error }
  setMessage id (argument args 0)
  setCause id (argument args 1)
  let head ← errorText (.object id)
  let trace ← read fun m => traceLines m.callStack
  modifyObject id fun o => o.insertHidden "stack" (.string (head ++ trace))
  pure (.object id)

/-- Make an error, with or without `new`. -/
def makeError (kind : ErrorKind) (receiver : Value) (args : Array Value) : Eval Value := do
  match ← constructing? receiver with
  | some id => fillError id args
  | none => fillError (← newObject (some (Intrinsic.errorPrototype kind).id)) args

end GuestScript.Eval
