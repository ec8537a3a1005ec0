import GuestScript.Machine.Binding

/-!
# Statements

How statements are put together from the actions of their parts. A statement ends with a *completion*: it may
have a value, or nothing, or jump. Loops take the jumps that are meant for them (`takeJump`); all other jumps
end them.

Every scope that a statement opens is closed again however the statement ends.
-/

namespace GuestScript

/-! ## 1. Completions -/

/-- How a statement ends. -/
inductive Completion where
  | value (v : Value)
  | empty
  | exit (v : Value)
  /-- A `break`, to a label or out of the nearest loop or switch. -/
  | jumpOut (label : Option String)
  /-- A `continue`, of a labeled loop or of the nearest one. -/
  | jumpOn (label : Option String)
  /-- The test of a default case, which matches when no other case does. -/
  | defaultCase

namespace Completion

/-- The value of a completion, `undefined` when it has none. -/
def toValue : Completion → Value
  | value v | exit v => v
  | _ => .undefined

/-- Whether a completion ends a list of statements. -/
def isAbrupt : Completion → Bool
  | exit _ | jumpOut _ | jumpOn _ => true
  | value _ | empty | defaultCase => false

end Completion

/-- What a loop with some labels does when its body has ended. -/
def Completion.takeJump (c : Completion) (labels : List String) (last : Completion) :
    Flow Completion Completion :=
  match c with
  | jumpOut none => .leave last
  | jumpOn none | empty | defaultCase => .proceed last
  | jumpOn (some label) =>
    if labels.contains label then .proceed last else .leave (jumpOn (some label))
  | value v => .proceed (value v)
  | exit v => .leave (exit v)
  | jumpOut (some label) => .leave (jumpOut (some label))

namespace Eval

/-! ## 2. Simple statements -/

/-- Count a step and go on. -/
@[inline] def step {α : Type} (position : Option Position) (x : Eval α) : Eval α := do
  tick position
  x

/-- The value of an expression. -/
@[inline] def valueOf (x : Eval Completion) : Eval Value :=
  return (← x).toValue

/-- Run statements until one jumps. The completion is the last one with a value. -/
def sequence : List (Eval Completion) → Completion → Eval Completion
  | [], last => pure last
  | s :: rest, last => do
    match ← s with
    | .empty | .defaultCase => sequence rest last
    | .value v => sequence rest (.value v)
    | abrupt => pure abrupt

/-- Keep a value as the result of the program, outside all functions. -/
def noteResult (v : Value) : Eval Unit :=
  update (.result v)

def expressionStatement (x : Eval Completion) : Eval Completion := do
  let v ← valueOf x
  noteResult v
  pure (.value v)

/-- Run an action in a new block with some declarations. -/
def inBlock {α : Type} (frame : LexicalFrame) (functions : List (String × Template)) (x : Eval α) :
    Eval α := do
  let block ← newFrame .block (← currentScope) frame
  inScope block do
    instantiate functions block
    x

/-- A block; one that declares nothing opens no scope. -/
def block (frame : LexicalFrame) (functions : List (String × Template)) (body : Eval Completion) :
    Eval Completion :=
  if frame.isEmpty && functions.isEmpty then body else inBlock frame functions body

/-- A statement in which the properties of an object are names. -/
def withObject (subject body : Eval Completion) : Eval Completion := do
  let target ← toObject (← valueOf subject)
  let scope ← newScope { data := target, parent := some (← currentScope), kind := .withObject }
  inScope scope body

/-- A return statement. -/
def exit (argument : Option (Eval Completion)) : Eval Completion :=
  match argument with
  | some x => return .exit (← valueOf x)
  | none => pure (.exit .undefined)

/-- A statement with a label takes the jumps out of the label. -/
def labeled (label : String) (body : Eval Completion) : Eval Completion := do
  match ← body with
  | .jumpOut (some l) => pure (if l == label then .empty else .jumpOut (some l))
  | other => pure other

/-- A choice between statements or expressions. -/
def branch (test consequent alternate : Eval Completion) : Eval Completion := do
  if (← valueOf test).truthy then consequent else alternate

/-! ## 3. Switch -/

/-- The first body of a switch to run. The tests are run in order until one is equal to the value; without one,
it is the body of the last default case. -/
def chooseCase (v : Value) : List (Eval Completion) → Nat → Option Nat → Eval (Option Nat)
  | [], _, fallback => pure fallback
  | test :: rest, i, fallback => do
    match ← test with
    | .defaultCase => chooseCase v rest (i + 1) (some i)
    | c => if c.toValue.strictEquals v then pure (some i) else chooseCase v rest (i + 1) fallback

/-- Run the bodies of a switch until one jumps. -/
def switchBodies : List (Eval Completion) → Completion → Eval Completion
  | [], last => pure last
  | body :: rest, last => do
    match ← body with
    | .jumpOut none => pure last
    | .empty | .defaultCase => switchBodies rest last
    | .value v => switchBodies rest (.value v)
    | abrupt => pure abrupt

def switchCases (v : Value) (tests bodies : List (Eval Completion)) : Eval Completion := do
  match ← chooseCase v tests 0 none with
  | some i => switchBodies (bodies.drop i) .empty
  | none => pure .empty

/-- A switch statement. -/
def switch (discriminant : Eval Completion) (frame : LexicalFrame)
    (functions : List (String × Template)) (tests bodies : List (Eval Completion)) :
    Eval Completion := do
  let v ← valueOf discriminant
  if frame.isEmpty && functions.isEmpty then switchCases v tests bodies
  else inBlock frame functions (switchCases v tests bodies)

/-! ## 4. Exceptions -/

/-- Run the handler of a try statement with the thrown value, in a scope of its own. -/
def handle (handler : Option (Value → Eval Unit) × Eval Completion) (thrown : Value) :
    Eval Completion := do
  let scope ← newFrame .block (← currentScope) []
  inScope scope do
    match handler.1 with
    | some bind => bind thrown
    | none => pure ()
    handler.2

/-- A block with its handler; only thrown values reach the handler. -/
def guarded (body : Eval Completion)
    (handler : Option (Option (Value → Eval Unit) × Eval Completion)) : Eval Completion :=
  match handler with
  | none => body
  | some h => do
    match ← settle body with
    | .ok c => pure c
    | .error thrown => handle h thrown

/-- A try statement. A finalizer runs unless the evaluation was interrupted, and its jump wins. -/
def attempt (body : Eval Completion)
    (handler : Option (Option (Value → Eval Unit) × Eval Completion))
    (finalizer : Option (Eval Completion)) : Eval Completion :=
  match finalizer with
  | none => guarded body handler
  | some last => do
    let result ← settle (guarded body handler)
    let c ← last
    if c.isAbrupt then pure c
    else
      match result with
      | .ok c => pure c
      | .error thrown => throwValue thrown

/-! ## 5. Loops -/

def whileLoop (labels : List String) (test body : Eval Completion) : Eval Completion :=
  loop (fun last => do
    if (← valueOf test).truthy then return (← body).takeJump labels last
    else pure (.leave last)) .empty

def doLoop (labels : List String) (body test : Eval Completion) : Eval Completion :=
  loop (fun last => do
    match (← body).takeJump labels last with
    | .leave c => pure (.leave c)
    | .proceed last => return if (← valueOf test).truthy then .proceed last else .leave last) .empty

/-- Whether a loop's test, if it has one, passes. -/
def passes (test : Option (Eval Completion)) : Eval Bool :=
  match test with
  | some x => return (← valueOf x).truthy
  | none => pure true

/-- Run an action if there is one. -/
def optionally (x : Option (Eval Completion)) : Eval Unit :=
  match x with
  | some x => discard x
  | none => pure ()

/-- The scope of the next round of a for loop. -/
def nextScope (copies : Bool) (scope : ScopeId) : Eval ScopeId :=
  if copies then forkScope scope else pure scope

/-- One round of a for loop in its scope, and then the update in the scope of the next round. -/
def forRound (labels : List String) (copies : Bool) (test update : Option (Eval Completion))
    (body : Eval Completion) (last : Completion) (scope : ScopeId) :
    Eval (Flow (Completion × ScopeId) Completion) := do
  if ← passes test then
    match (← body).takeJump labels last with
    | .leave c => pure (.leave c)
    | .proceed last =>
      let next ← nextScope copies scope
      inScope next (optionally update)
      pure (.proceed (last, next))
  else pure (.leave last)

/-- A for loop; each round gets a copy of the loop's own names. -/
def forLoop (labels : List String) (frame : LexicalFrame)
    (init test update : Option (Eval Completion)) (body : Eval Completion) : Eval Completion := do
  let outer ← currentScope
  let scope ← if frame.isEmpty then pure outer else newFrame .block outer frame
  inScope scope (optionally init)
  loop
    (fun (last, scope) => inScope scope (forRound labels (!frame.isEmpty) test update body last scope))
    (.empty, scope)

/-- One round of a loop over names. -/
def forInRound (bind : Value → Eval Unit) (frame : LexicalFrame) (body : Eval Completion)
    (name : String) : Eval Completion := do
  let round : Eval Completion := do
    bind (.string name)
    body
  if frame.isEmpty then round
  else
    let scope ← newFrame .block (← currentScope) frame
    inScope scope round

/-- The rounds of a loop over names; a name that is gone by its turn is passed over. -/
def forInRounds (labels : List String) (subject : ObjectId) (bind : Value → Eval Unit)
    (frame : LexicalFrame) (body : Eval Completion) : List String → Completion → Eval Completion
  | [], last => pure last
  | name :: rest, last => do
    if ← hasProperty subject (.string name) then
      match (← forInRound bind frame body name).takeJump labels last with
      | .leave c => pure c
      | .proceed last => forInRounds labels subject bind frame body rest last
    else forInRounds labels subject bind frame body rest last

/-- A loop over the enumerable names of a value. -/
def forIn (labels : List String) (subject : Eval Completion) (bind : Value → Eval Unit)
    (frame : LexicalFrame) (body : Eval Completion) : Eval Completion := do
  let v ← valueOf subject
  if v.isNullish then pure .empty
  else
    let id ← toObject v
    let names ← enumerableNames id
    forInRounds labels id bind frame body names.toList .empty

/-! ## 6. Declarations -/

/-- Bind the initial values of a declaration one after the other. -/
def declare : List ((Value → Eval Unit) × Option (Eval Completion)) → Eval Completion
  | [] => pure .empty
  | (bind, init) :: rest => do
    let v ←
      match init with
      | some x => valueOf x
      | none => pure .undefined
    bind v
    declare rest

end Eval

end GuestScript
