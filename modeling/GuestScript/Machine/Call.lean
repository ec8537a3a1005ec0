import GuestScript.Builtin.Run
import GuestScript.Code.Exec
import GuestScript.Code.Lower.Tree

/-!
# Calls

How functions are called and used with `new`, and how text is evaluated. Every action here reaches other
functions by a request; `serve` says what a request does, and `answers` ties the knot, with a bound on the
nesting of requests that makes it total.

* `callFunction`, `constructValue` and `initParent` are the three ways to run a function.
* `execute` runs a program in the current scope, `evalCode` the program that a text spells.
-/

namespace GuestScript

namespace Eval

/-! ## 1. Functions of scripts -/

/-- Run an action as a call of the function with a name; calls nest only to a limit. -/
def inCall {α : Type} (name : String) (x : Eval α) : Eval α :=
  nest name x (throwFault .rangeError "Maximum call stack size exceeded")

/-- Bind parameters to arguments, from an index on. -/
def bindParameters (args : Array Value) : List (Pattern × Bool) → Nat → Eval Unit
  | [], _ => pure ()
  | (pattern, takesRest) :: rest, i => do
    let v ← if takesRest then newArray (args.extract i args.size) else pure (argument args i)
    pattern.bind v
    bindParameters args rest (i + 1)

def runBody (function : ObjectId) (template : Template) (scope : ScopeId) (args : Array Value) :
    Eval Completion := do
  if template.bindsSelf && !template.name.isEmpty then
    setVariable scope template.name (.object function)
  if !template.isArrow && template.hoisted.usesArguments then
    setVariable scope "arguments" (.object (← newArguments args))
  bindParameters args template.parameters 0
  instantiate template.hoisted.functions scope
  declareVars template.hoisted.vars scope
  template.body.exec

def callClosure (function : ObjectId) (template : Template) (scope : ScopeId) (captured : Option Value)
    (receiver : Value) (args : Array Value) : Eval Value := do
  let completion ← inCall template.name do
    let inner ← newFrame .function scope template.hoisted.frame
    let plain ← read fun m => m.rules.plainReceiver
    let this := captured.getD (if receiver.isUndefined then plain else receiver)
    inFrame inner this (withNewTarget none (runBody function template inner args))
  match completion with
  | .exit v => pure v
  | _ => pure .undefined

/-! ## 2. Classes -/

/-- A new object whose prototype is the one that a constructor gives to its instances. -/
def instanceOfConstructor (constructor : ObjectId) : Eval ObjectId := do
  match (← object constructor).ownValue? "prototype" with
  | some (.object prototype) => newObject (some prototype)
  | _ => newPlain

def initFields (scope : ScopeId) (instanceId : ObjectId) : List ClassField → Eval Unit
  | [] => pure ()
  | field :: rest => do
    let v ←
      match field.init with
      | some code => inFrame scope (.object instanceId) (valueOf code.exec)
      | none => pure .undefined
    discard <| defineOwn instanceId field.key (.ordinary v)
    initFields scope instanceId rest

/-- Set up an instance of a class: what it inherits when there is no constructor, its fields, arrow functions
first, and then the constructor. An object that the constructor returns takes the instance's place. -/
def initInstance (data : ClassFunction) (instanceId : ObjectId) (args : Array Value) :
    Eval Value := do
  let this := Value.object instanceId
  if data.constructor.isNone then
    if let some parent := data.parent then
      discard <| initParent parent this args
  initFields data.scope instanceId
    (data.fields.filter (·.isArrow) ++ data.fields.filter fun f => !f.isArrow)
  match data.constructor with
  | some constructor =>
    match (← object constructor).callable with
    | some (.closure template scope captured) =>
      let result ← callClosure constructor template scope captured this args
      pure (if result.isObject then result else this)
    | _ => pure this
  | none => pure this

/-! ## 3. Text -/

def compileTree (tree : Node) (source : Option String) : Eval Program :=
  match Program.ofTree tree source with
  | .ok program => pure program
  | .error (.interrupt i) => stop (.interrupt i)
  | .error (.guest kind message) => throwFault kind message

def compileText (text : String) : Eval Program := do
  let rules ← read State.rules
  match rules.parser with
  | none => stop (.interrupt (.of .missingParser "" none))
  | some parser =>
    match parser text
        { ecmaVersion := rules.ecmaVersion, allowReturn := false } with
    | .error e => throwFault .syntaxError e.message
    | .ok tree => compileTree tree (some text)

/-- Run a program in the current scope: its variables and functions land in the scope for variables, its
lexical names in a scope of their own. -/
def execute (program : Program) : Eval Value := do
  let target ← read State.variableScope
  declareVars program.hoisted.vars target
  instantiate program.hoisted.functions target
  let scope ← currentScope
  let inner ←
    if program.hoisted.frame.isEmpty then pure scope
    else newFrame .block scope program.hoisted.frame
  let completion ← inScope inner program.body.exec
  match completion with
  | .exit v => pure v
  | _ => read fun m => m.result

/-- Evaluate a value as text in a scope; anything but text is its own value. -/
def evalCode (code : Option Value) (scope : ScopeId) (receiver : Value) : Eval Value := do
  match code with
  | none => pure .undefined
  | some (.string text) =>
    if text.isEmpty then pure .undefined
    else
      let program ← compileText text
      within (.program scope receiver) (execute program)
  | some v => pure v

/-- Evaluate a value as text in the global scope. -/
def evalGlobally (code : Option Value) : Eval Value := do
  let scope ← read State.globalScope
  let bindings ← read State.bindings
  evalCode code scope (.object bindings)

/-- Make a function from the texts of its parameters and of its body. -/
def functionFromTexts (args : Array Value) : Eval Value := do
  let texts ← args.toList.mapM toText
  let body := texts.getLast?.getD ""
  let parameters := ",".intercalate texts.dropLast
  let code := "(function anonymous(" ++ parameters ++ "\n) \x7b\n" ++ body ++ "\n\x7d);"
  evalGlobally (some (.string code))

/-! ## 4. The three ways to run a function -/

def callFunction (function receiver : Value) (args : Array Value) : Eval Value := do
  match function, ← callable? function with
  | .object id, some c =>
    withNewTarget none <|
      match c with
      | .builtin b => b.run receiver args
      | .closure template scope captured => callClosure id template scope captured receiver args
      | .classFunction data =>
        throwTypeError ("Class constructor " ++ data.name ++ " cannot be invoked without 'new'")
      | .bound target boundReceiver boundArgs _ _ _ =>
        call (.object target) boundReceiver (boundArgs ++ args)
      | .evalText => evalGlobally args[0]?
      | .makeFunction => functionFromTexts args
  | _, _ => throwTypeError ((← display function) ++ " is not a function")

/-- Use a value with `new`. -/
def constructFunction (function : Value) (args : Array Value) : Eval Value := do
  match function, (← callable? function).filter Callable.isConstructor with
  | .object id, some c =>
    match c with
    | .bound target _ boundArgs _ _ _ => construct (.object target) (boundArgs ++ args)
    | .evalText | .makeFunction => functionFromTexts args
    | .classFunction data =>
      let instanceId ← instanceOfConstructor id
      inCall data.name (initInstance data instanceId args)
    | .closure template scope captured =>
      let instanceId ← instanceOfConstructor id
      let result ← callClosure id template scope captured (.object instanceId) args
      pure (if result.isObject then result else .object instanceId)
    | .builtin b =>
      let instanceId ← instanceOfConstructor id
      let result ← withNewTarget (some id) (b.run (.object instanceId) args)
      pure (if result.isObject then result else .object instanceId)
  | _, _ => throwTypeError ((← display function) ++ " is not a constructor")

/-- Let a parent class set up an instance. -/
def initFromParent (parent : ObjectId) (receiver : Value) (args : Array Value) : Eval Value := do
  match (← object parent).callable with
  | some (.classFunction data) =>
    match receiver with
    | .object instanceId => inCall data.name (initInstance data instanceId args)
    | _ => pure .undefined
  | some (.closure template scope captured) => callClosure parent template scope captured receiver args
  | some (.bound target _ boundArgs _ _ _) => initParent target receiver (boundArgs ++ args)
  | some (.builtin b) =>
    if b.isConstructor then withNewTarget (some parent) (b.run receiver args)
    else raise .isNotConstructor b.name (← read State.lastPosition)
  | other =>
    raise .isNotConstructor ((other.map Callable.name).getD "") (← read State.lastPosition)

/-- Do what a request asks for. -/
def serve : Request → Eval Value
  | .call function receiver args => callFunction function receiver args
  | .construct function args => constructFunction function args
  | .initParent parent receiver args => initFromParent parent receiver args
  | .evalText code scope receiver => evalCode code scope receiver

/-! ## 5. The knot -/

/-- The answers to requests that may nest a number of times. -/
def answers : Nat → Answers
  | 0 => fun _ m => .error .exhausted m
  | n + 1 => fun request => (serve request).run (answers n)

/-- Run an action on a machine. -/
def runOn {α : Type} (x : Eval α) : Run α :=
  x.run (answers nestingLimit)

end Eval

end GuestScript
