import GuestScript.Machine.Realm

/-!
# Evaluating programs

What a host does with a machine: give it bindings and options, compile programs, run them, and call the
functions that they leave behind. The machine keeps everything that a script did, also when an evaluation
fails.

A host works in a `Session`. `reset` comes first; then `evaluate`, or `compile` and `run`, `call` and
`construct` each start a new evaluation with its own count of steps.
-/

namespace GuestScript

/-! ## 1. Results -/

/-- Why an evaluation gave no value. -/
inductive Failure where
  /-- A value that the script threw and did not catch, with its text. -/
  | uncaught (message : String) (value : Value)
  | interrupt (i : Interrupt)
  | parse (e : ParseError)
  /-- The options do not allow what was asked for. -/
  | config (message : String)
  /-- A value has no JSON document. -/
  | json
  /-- Built-in functions were nested past the bound. -/
  | exhausted
  /-- The host used an index outside of a list. -/
  | panicked

/-- What a program is given as. -/
inductive Source where
  | text (s : String)
  | tree (n : Node)

/-- The actions of a host. The machine is kept when an action fails. -/
abbrev Session := EStateM Failure Machine

/-- The tree of a source, and its text if it has one. -/
def Rules.treeOf (rules : Rules) : Source → Except Failure (Node × Option String)
  | .tree n => .ok (n, none)
  | .text s =>
    match rules.parser with
    | none => .error (.config (Diagnostic.missingParser.render "" none))
    | some parser =>
      match parser s { ecmaVersion := rules.ecmaVersion, allowReturn := true } with
      | .ok n => .ok (n, some s)
      | .error e => .error (.parse e)

/-- The text of an uncaught value: `name: message` for errors. -/
def State.describeThrown (s : State) (v : Value) : String :=
  match v with
  | .object id =>
    if (s.objectAt id).sort = .error then
      let name := s.plainValue id "name"
      let message := s.plainValue id "message"
      let nameText := if name.isUndefined then "Error" else s.display name
      let messageText := if message.isUndefined then "" else s.display message
      if messageText.isEmpty then nameText else nameText ++ ": " ++ messageText
    else s.display v
  | _ => s.display v

/-- The properties of the object of built-in names; the bindings may take their place. -/
def State.builtinNames (s : State) (bindings : ObjectId) : Array (Key × Property) :=
  (s.realm.globals.filterMap fun (name, v) =>
    if (s.objectAt bindings).hasOwn (.string name) then none
    else
      let isFixed := name == "undefined" || name == "NaN" || name == "Infinity"
      some (Key.string name, Property.data v (!isFixed) false (!isFixed))).toArray

/-- Open the scopes that a program starts in: one of the built-in names, one of the host's root context if there
is one, and one of the bindings. The first and the last of them are given back. -/
def Eval.openScopes (bindings : ObjectId) (rootContext : Option ObjectId) :
    Eval (ScopeId × ScopeId) := do
  let held ← read fun s => s.builtinNames bindings
  let superScope ← openFrame .super none [] held
  let parent ←
    match rootContext with
    | some root =>
      let data ← newObject (some root)
      newScope { data := data, parent := some superScope, kind := .root }
    | none => pure superScope
  let globalScope ← newScope { data := bindings, parent := some parent, kind := .global }
  pure (superScope, globalScope)

namespace Session

/-- The failure that a stop is for a host. -/
def surface {α : Type} (s : Stop) : Session α := fun m =>
  match s with
  | .thrown v => .error (.uncaught (m.describeThrown v) v) m
  | .interrupt i => .error (.interrupt i) m
  | .exhausted => .error .exhausted m
  | .panicked => .error .panicked m

/-- Run an action of a script. -/
def ofEval {α : Type} (x : Eval α) : Session α := fun m =>
  match x.runOn m with
  | .ok a m => .ok a m
  | .error s m => surface s m

/-! ## 2. Bindings and options -/

/-- Forget what the last evaluation left in the registers. -/
def clearState (m : Machine) : Machine :=
  { m with
    scope := m.globalScope
    receiver := .object m.bindings
    result := .undefined
    calls := []
    depth := 0
    lastPosition := none
    newTarget := none
    joining := [] }

/-- The machine in the scopes that were opened for an object of bindings. -/
def bound (bindings : ObjectId) (options : Options) (opened : ScopeId × ScopeId) (m : Machine) : Machine :=
  clearState
    { m with superScope := opened.1, globalScope := opened.2, bindings := bindings,
             rules := options.toRules, limits := options.toLimits, steps := 0 }

/-- Bind the machine to an object of bindings and to options. -/
def reset (bindings : ObjectId) (options : Options) : Session Unit := do
  let opened ← ofEval (Eval.openScopes bindings options.rootContext)
  modify (bound bindings options opened)

/-- The machine at the start of a new evaluation. -/
def restarted (m : Machine) : Machine :=
  { clearState m with steps := 0 }

/-- Start a new evaluation. -/
def restart : Session Unit :=
  modify restarted

def newBindings : Session ObjectId :=
  ofEval (Eval.newObject none)

/-- Write a binding. -/
def setBinding (bindings : ObjectId) (name : String) (v : Value) : Session Unit :=
  ofEval (Eval.modifyObject bindings fun o => o.insertValue name v)

/-- Read a binding; getters are not run. -/
def binding (bindings : ObjectId) (name : String) : Session Value :=
  return (← get).plainValue bindings name

def bindingNames (bindings : ObjectId) : Session (List String) :=
  return ((← get).objectAt bindings).enumerableNames

/-! ## 3. Programs -/

/-- The tree of a source under the current rules. -/
def parse (source : Source) : Session (Node × Option String) := fun m =>
  match m.rules.treeOf source with
  | .ok parsed => .ok parsed m
  | .error f => .error f m

/-- Compile a program, which can then be run again and again. -/
def compile (source : Source) : Session Program := do
  let (tree, text) ← parse source
  ofEval (Eval.compileTree tree text)

def returned (m : Machine) : Machine :=
  { m with scope := m.globalScope }

/-- Run a program from a fresh state. -/
def run (p : Program) : Session Value := do
  restart
  let result ← fun m =>
    match (Eval.execute p).runOn m with
    | .ok v m => .ok v (returned m)
    | .error s m => surface s (returned m)
  ofEval (Eval.hideGlobal result)

def evaluate (source : Source) : Session Value := do
  run (← compile source)

def call (function receiver : Value) (args : Array Value) : Session Value := do
  restart
  ofEval do Eval.hideGlobal (← Eval.callFunction function receiver args)

/-- Use a function with `new`. -/
def construct (function : Value) (args : Array Value) : Session Value := do
  restart
  ofEval (Eval.constructFunction function args)

/-! ## 4. Documents -/

def ofJson (j : Json) : Session Value :=
  ofEval (Eval.ofJson j)

/-- The JSON document of a value; `null` when it has none. -/
def toJson (v : Value) : Session Json := do
  match ← ofEval (Eval.jsonText v .undefined .undefined) with
  | none => pure .null
  | some text =>
    match Json.parse text with
    | .ok j => pure j
    | .error _ => throw .json

end Session

end GuestScript
