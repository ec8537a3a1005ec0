import GuestScript.Machine.Basic

/-!
# Actions

What runs on a machine. An *action* `Eval α` is a tree of single operations; it says what is done and in which
order, and `Eval.run` does it. A run either gives an `α` or stops: with a value that the script threw, with an
interrupt that no script can hold, because the nesting of built-in functions went past the bound that keeps every
definition total, or with a panic of the host, at an index outside of a list. The machine that a run leaves behind is
kept in every case.

* `Update` lists the ways to change the state. There is no other one.
* `Frame` lists the changes of registers that last for the run of one action and are taken back after it.
* `Request` lists what an action asks of guest functions. A run is given the answers from outside, so that every
  action is defined without looking into the functions that it may call.
-/

namespace GuestScript

/-! ## 1. Updates -/

/-- A change of the state, with what it gives back. -/
inductive Update : Type → Type 1 where
  /-- Put a new object on the heap. -/
  | allocate (o : Object) : Update ObjectId
  | object {α : Type} (id : ObjectId) (f : Object → Object × α) : Update α
  /-- Change the prototype of an object, unless that closes a circle, and say whether it is changed. -/
  | link (id : ObjectId) (prototype : Option ObjectId) : Update Bool
  /-- Change the object that holds the names of a scope. -/
  | names (scope : ScopeId) (f : Object → Object) : Update Unit
  | newScope (s : Scope) : Update ScopeId
  /-- Make a scope with an object of its own, which holds some names from the start. -/
  | newFrame (kind : ScopeKind) (parent : Option ScopeId) (lexical : List (String × LexicalRecord))
      (held : Array (Key × Property)) : Update ScopeId
  /-- End the dead zone of a lexical name. -/
  | unlock (scope : ScopeId) (name : String) : Update Unit
  | newSymbol (description : Option String) : Update Symbol
  | global (name : String) (v : Value) : Update Unit
  | position (p : Position) : Update Unit
  /-- Keep a value as the result of the program, outside all functions. -/
  | result (v : Value) : Update Unit

namespace State

/-- The object at an address. -/
def objectAt (s : State) (id : ObjectId) : Object :=
  s.heap.getD id.index default

/-- The scope at an address. -/
def scopeAt (s : State) (id : ScopeId) : Scope :=
  s.scopes.getD id.index default

/-- How many prototypes are looked at to find out whether an object inherits from another one. -/
def chainLimit : Nat := 10001

/-- Whether an object is among the first `fuel` objects of a chain. -/
def onChain (s : State) (wanted : ObjectId) : Nat → Option ObjectId → Bool
  | 0, _ => false
  | _ + 1, none => false
  | fuel + 1, some id => id = wanted || onChain s wanted fuel (s.objectAt id).prototype

/-- Whether an object is a prototype of another one, as far as chains are followed. -/
def inheritsFrom (s : State) (id prototype : ObjectId) : Bool :=
  s.onChain prototype chainLimit (s.objectAt id).prototype

def closesCircle (s : State) (id : ObjectId) (prototype : Option ObjectId) : Bool :=
  prototype.any fun p => p = id || s.inheritsFrom p id

/-- A value as it is shown in messages. -/
def display (s : State) : Value → String
  | .undefined => "undefined"
  | .null => "null"
  | .boolean b => if b then "true" else "false"
  | .number x => Number.text x
  | .string text => text
  | .symbol symbol => symbol.text
  | .object id => (s.objectAt id).summary

/-- Change an object and give something back. The place on the heap is cleared while the change is made, so
that the object is not shared and can be changed in place. -/
def changeObject {α : Type} (s : State) (id : ObjectId) (f : Object → Object × α) : α × State :=
  let o := s.heap.getD id.index default
  let s := { s with heap := s.heap.setIfInBounds id.index default }
  match f o with
  | (o, a) => (a, { s with heap := s.heap.setIfInBounds id.index o })

/-- Add a scope. Only an older scope can be its parent. -/
def pushScope (s : State) (scope : Scope) : ScopeId × State :=
  (⟨s.scopes.size⟩,
    { s with
      scopes := s.scopes.push
        { scope with parent := scope.parent.filter fun parent => parent.index < s.scopes.size } })

end State

/-- Make a change. -/
def Update.apply {α : Type} : Update α → State → α × State
  | .allocate o, s => (⟨s.heap.size⟩, { s with heap := s.heap.push o })
  | .object id f, s => s.changeObject id f
  | .link id prototype, s =>
    let closes := s.closesCircle id prototype
    s.changeObject id fun o => if closes then (o, false) else ({ o with prototype := prototype }, true)
  | .names scope f, s => s.changeObject (s.scopeAt scope).data fun o => (f o, ())
  | .newScope scope, s => s.pushScope scope
  | .newFrame kind parent lexical held, s =>
    { s with heap := s.heap.push { properties := held } }.pushScope
      { data := ⟨s.heap.size⟩, parent := parent, kind := kind, lexical := lexical }
  | .unlock scope name, s =>
    ((), { s with scopes := s.scopes.modify scope.index fun scope => scope.markInitialized name })
  | .newSymbol description, s =>
    (.made s.nextSymbol description, { s with nextSymbol := s.nextSymbol + 1 })
  | .global name v, s =>
    ((), { s with realm := { s.realm with globals := s.realm.globals ++ [(name, v)] } })
  | .position p, s => ((), { s with lastPosition := some p })
  | .result v, s => ((), if s.calls.isEmpty then { s with result := v } else s)

/-! ## 2. Frames -/

/-- A change of registers that lasts for the run of one action. -/
inductive Frame where
  /-- Names are looked up from another scope. -/
  | scope (scope : ScopeId)
  /-- Another scope and another receiver. -/
  | receiver (scope : ScopeId) (receiver : Value)
  /-- A built-in constructor runs for a target of `new`, or some function for none. -/
  | target (target : Option ObjectId)
  /-- A program of its own: no functions are running and there is no result yet. -/
  | program (scope : ScopeId) (receiver : Value)
  /-- The elements of an array are being joined. -/
  | joining (id : ObjectId)

namespace Frame

def enter : Frame → Registers → Registers
  | .scope id, r => { r with scope := id }
  | .receiver id this, r => { r with scope := id, receiver := this }
  | .target t, r => { r with newTarget := t }
  | .program id this, r =>
    { r with scope := id, receiver := this, result := .undefined, calls := [] }
  | .joining id, r => { r with joining := id :: r.joining }

/-- The registers after a frame, from those before it and those at the end of the action inside. -/
def leave : Frame → Registers → Registers → Registers
  | .scope _, before, r => { r with scope := before.scope }
  | .receiver _ _, before, r => { r with scope := before.scope, receiver := before.receiver }
  | .target _, before, r => { r with newTarget := before.newTarget }
  | .program _ _, before, r =>
    { r with
      scope := before.scope, receiver := before.receiver, result := before.result,
      calls := before.calls }
  | .joining _, before, r => { r with joining := before.joining }

end Frame

namespace Registers

/-- The registers inside a call of the function with a name. -/
def enterCall (name : String) (r : Registers) : Registers :=
  { r with depth := r.depth + 1, calls := name :: r.calls }

def leaveCall (r : Registers) : Registers :=
  { r with depth := r.depth - 1, calls := r.calls.tail }

end Registers

/-! ## 3. Actions -/

/-- How often calls may nest, counting those of built-in functions, which the limit of the options does not
count, and how far a built-in function goes into data. -/
def nestingLimit : Nat := 1000000000

/-- Why an action did not give a result. -/
inductive Stop where
  | thrown (value : Value)
  | interrupt (i : Interrupt)
  /-- The host gives up: built-in functions were nested past the bound, or one of them went past it into data. -/
  | exhausted
  /-- The host panics: an index or a range was used outside of a list. -/
  | panicked

/-- What a loop does after a round. -/
inductive Flow (σ α : Type) where
  | proceed (next : σ)
  | leave (result : α)

/-- What an action asks of guest functions. -/
inductive Request where
  | call (function receiver : Value) (arguments : Array Value)
  /-- Use a function with `new`. -/
  | construct (function : Value) (arguments : Array Value)
  /-- Let a parent class set up the instance of a class derived from it. -/
  | initParent (parent : ObjectId) (receiver : Value) (arguments : Array Value)
  | evalText (code : Option Value) (scope : ScopeId) (receiver : Value)

/-- An action on the machine. -/
inductive Eval : Type → Type 1 where
  /-- Nothing is left to do. -/
  | done {α : Type} (a : α) : Eval α
  | andThen {α β : Type} (x : Eval α) (f : α → Eval β) : Eval β
  | stop {α : Type} (s : Stop) : Eval α
  /-- Look at the state. -/
  | read {α : Type} (f : State → α) : Eval α
  | update {α : Type} (u : Update α) : Eval α
  /-- Count one step, and interrupt when the time or the steps have run out. -/
  | charge : Eval Unit
  /-- The steps that have been counted. -/
  | counted : Eval Nat
  /-- The time of the machine's own clock. -/
  | clock : Eval Nat
  /-- Run an action and hold what it throws. -/
  | settle {α : Type} (x : Eval α) : Eval (Except Value α)
  | within {α : Type} (frame : Frame) (x : Eval α) : Eval α
  /-- Run an action as a call of the function with a name, or the other action when calls are nested as deep as
  they may be. -/
  | nest {α : Type} (name : String) (x refused : Eval α) : Eval α
  /-- Repeat a round until it leaves. Every round counts a step; one that does not would go on for ever. -/
  | loop {σ α : Type} (round : σ → Eval (Flow σ α)) (start : σ) : Eval α
  | ask (request : Request) : Eval Value

instance : Monad Eval where
  pure := .done
  bind := .andThen

/-! ## 4. Runs -/

abbrev Run (α : Type) := Machine → EStateM.Result Stop Machine α

/-- The machine that a run leaves behind. -/
def finalMachine {ε α : Type} : EStateM.Result ε Machine α → Machine
  | .ok _ m => m
  | .error _ m => m

abbrev Answers := Request → Run Value

namespace Machine

/-- Change the state. -/
def updated {α : Type} (m : Machine) (u : Update α) : EStateM.Result Stop Machine α :=
  match m with
  | ⟨s, limits, steps⟩ =>
    match u.apply s with
    | (a, s) => .ok a ⟨s, limits, steps⟩

/-- Count one step. -/
def charged (m : Machine) : EStateM.Result Stop Machine Unit :=
  if 0 < m.limits.timeout && m.limits.timeout * m.limits.pace ≤ m.steps then
    .error (.interrupt (.of .executionTimeOut (toString m.limits.timeout) none)) m
  else
    let limit := m.limits.maxSteps
    let m := { m with steps := m.steps + 1 }
    if limit < m.steps then .error (.interrupt (.of .maxSteps (toString limit) none)) m
    else .ok () m

def withRegisters (m : Machine) (f : Registers → Registers) : Machine :=
  { m with toRegisters := f m.toRegisters }

/-- Whether one more call may be nested in those that are running. -/
def admitsCall (m : Machine) : Bool :=
  m.depth < m.rules.maxCallDepth

end Machine

/-- Run something with other registers, and change them again after it, however it ends. -/
def Run.between {α : Type} (enter : Registers → Registers) (leave : Registers → Registers → Registers)
    (x : Run α) : Run α := fun m =>
  let before := m.toRegisters
  match x (m.withRegisters enter) with
  | .ok a m => .ok a (m.withRegisters (leave before))
  | .error e m => .error e (m.withRegisters (leave before))

/-- Repeat a round until it leaves, at most `fuel` times. -/
def Run.rounds {σ α : Type} (round : σ → Run (Flow σ α)) : Nat → σ → Run α
  | 0, _ => fun m => .error .exhausted m
  | fuel + 1, s => fun m =>
    let before := m.steps
    match round s m with
    | .error e m => .error e m
    | .ok (.leave a) m => .ok a m
    | .ok (.proceed s) m =>
      if before < m.steps then rounds round fuel s m else .error .exhausted m

/-- Run an action. -/
def Eval.run (answers : Answers) {α : Type} : Eval α → Run α
  | .done a => fun m => .ok a m
  | .andThen x f => fun m =>
    match x.run answers m with
    | .ok a m => (f a).run answers m
    | .error e m => .error e m
  | .stop s => fun m => .error s m
  | .read f => fun m => .ok (f m.toState) m
  | .update u => fun m => m.updated u
  | .charge => Machine.charged
  | .counted => fun m => .ok m.steps m
  | .clock => fun m => .ok (m.limits.clockStart + m.steps / max m.limits.pace 1) m
  | .settle x => fun m =>
    match x.run answers m with
    | .ok a m => .ok (.ok a) m
    | .error (.thrown v) m => .ok (.error v) m
    | .error e m => .error e m
  | .within frame x => (x.run answers).between frame.enter frame.leave
  | .nest name x refused => fun m =>
    if m.admitsCall then
      (x.run answers).between (Registers.enterCall name) (fun _ => Registers.leaveCall) m
    else refused.run answers m
  | .loop round start => fun m =>
    Run.rounds (fun s => (round s).run answers) (m.limits.maxSteps + 1) start m
  | .ask request => answers request

namespace Eval

/-- Run an action in a scope. -/
def inScope {α : Type} (scope : ScopeId) (x : Eval α) : Eval α :=
  within (.scope scope) x

/-- Run an action in a scope with a receiver. -/
def inFrame {α : Type} (scope : ScopeId) (receiver : Value) (x : Eval α) : Eval α :=
  within (.receiver scope receiver) x

/-- Run an action for a target of `new`, or for none. -/
def withNewTarget {α : Type} (target : Option ObjectId) (x : Eval α) : Eval α :=
  within (.target target) x

def call (function receiver : Value) (arguments : Array Value) : Eval Value :=
  ask (.call function receiver arguments)

/-- Use a guest function with `new`. -/
def construct (function : Value) (arguments : Array Value) : Eval Value :=
  ask (.construct function arguments)

/-- Let a parent class set up an instance. -/
def initParent (parent : ObjectId) (receiver : Value) (arguments : Array Value) : Eval Value :=
  ask (.initParent parent receiver arguments)

/-- Evaluate text. -/
def evalText (code : Option Value) (scope : ScopeId) (receiver : Value) : Eval Value :=
  ask (.evalText code scope receiver)

/-- Count one step at a place. -/
def tick (position : Option Position) : Eval Unit := do
  charge
  match position with
  | some p => update (.position p)
  | none => pure ()

/-! ## 5. Objects -/

/-- The object at an address. -/
def object (id : ObjectId) : Eval Object :=
  read fun s => s.objectAt id

/-- Put a new object on the heap. -/
def allocate (o : Object) : Eval ObjectId :=
  update (.allocate o)

/-- Change an object and give something back. -/
def updateObject {α : Type} (id : ObjectId) (f : Object → Object × α) : Eval α :=
  update (.object id f)

/-- Change an object. -/
def modifyObject (id : ObjectId) (f : Object → Object) : Eval Unit :=
  updateObject id fun o => (f o, ())

def newObject (prototype : Option ObjectId) : Eval ObjectId :=
  allocate { prototype := prototype }

def newPlain : Eval ObjectId :=
  newObject (some Intrinsic.objectPrototype.id)

def newArray (elements : Array Value) : Eval Value := do
  let id ← allocate
    { prototype := some Intrinsic.arrayPrototype.id, sort := .array, elements := some elements }
  pure (.object id)

def newArguments (elements : Array Value) : Eval ObjectId :=
  allocate
    { prototype := some Intrinsic.objectPrototype.id, sort := .arguments, elements := some elements }

/-- The object of a function, before it has a prototype for its instances. -/
def functionObject (c : Callable) (prototype : ObjectId := Intrinsic.functionPrototype.id) : Object :=
  { prototype := some prototype
    sort := .function
    callable := some c
    properties := #[
      (.string "length", .data (.ofNat c.arity) false false true),
      (.string "name", .data (.string c.name) false false true)] }

/-- A new function; functions that are written with their own receiver get a prototype for their
instances. -/
def newFunction (c : Callable) : Eval ObjectId := do
  let id ← allocate (functionObject c)
  match c with
  | .closure template _ _ =>
    if !template.isArrow then
      let prototype ← allocate
        { prototype := some Intrinsic.objectPrototype.id
          properties := #[(.string "constructor", .hidden (.object id))] }
      modifyObject id fun o => o.insert "prototype" (.data (.object prototype) true false false)
  | _ => pure ()
  pure id

/-- What a value can be called as. -/
def callable? (v : Value) : Eval (Option Callable) :=
  match v with
  | .object id => return (← object id).callable
  | _ => pure none

/-- Whether a value is a function. -/
def isCallable (v : Value) : Eval Bool :=
  return (← callable? v).isSome

/-- Whether a value can be used with `new`. -/
def isConstructor (v : Value) : Eval Bool :=
  return match ← callable? v with
    | some c => c.isConstructor
    | none => false

def currentReceiver : Eval Value :=
  read fun s => s.receiver

/-- The instance that a built-in constructor is to set up, when it was called with `new`. -/
def constructing? (receiver : Value) : Eval (Option ObjectId) :=
  read fun s =>
    match s.newTarget, receiver with
    | some _, .object id => some id
    | _, _ => none

/-! ## 6. Faults -/

def newError (kind : ErrorKind) (message : String) : Eval ObjectId :=
  allocate
    { prototype := some (Intrinsic.errorPrototype kind).id
      sort := .error
      properties := #[(.string "message", .hidden (.string message))] }

@[inline] def throwValue {α : Type} (v : Value) : Eval α :=
  stop (.thrown v)

def throwFault {α : Type} (kind : ErrorKind) (message : String) : Eval α := do
  let id ← newError kind message
  throwValue (.object id)

def throwTypeError {α : Type} (message : String) : Eval α :=
  throwFault .typeError message

/-- Raise a diagnostic: as an interrupt, or as an error that the script can catch. -/
def raise {α : Type} (d : Diagnostic) (subject : String) (position : Option Position) : Eval α :=
  if d.interrupts then stop (.interrupt (.of d subject position))
  else throwFault d.kind (d.render subject position)

/-- A value as it is shown in messages. -/
def display (v : Value) : Eval String :=
  read fun s => s.display v

/-- The stand-in for the host's global object never leaves the machine. -/
def hideGlobal (v : Value) : Eval Value :=
  match v with
  | .object id =>
    read fun s =>
      if id = (s.scopeAt s.superScope).data then .undefined else v
  | _ => pure v

end Eval

end GuestScript
