import GuestScript.Machine.Control
import GuestScript.Machine.Operation

/-!
# Expressions and patterns

How expressions are put together from the actions of their parts: literals, member and call chains, assignments,
and the patterns that take values apart. Operands are evaluated from left to right, and conversions happen only
when all operands of an operation are there.
-/

namespace GuestScript

/-- The value of a part of a chain, with the receiver for a call of it. -/
structure Reference where
  receiver : Value
  value : Value

/-- A part of an object pattern, as an action. -/
inductive PartAction where
  | property (key : Eval Key) (bind : Value → Eval Unit)
  | rest (bind : Value → Eval Unit)

namespace Eval

/-! ## 1. Literals -/

/-- The values of arguments; spread ones give several. -/
def arguments : List (Eval Completion × Bool) → Array Value → Eval (Array Value)
  | [], acc => pure acc
  | (x, false) :: rest, acc => do
    let v ← valueOf x
    arguments rest (acc.push v)
  | (x, true) :: rest, acc => do
    let v ← valueOf x
    let items ← iterate v (← display v)
    arguments rest (acc ++ items)

/-- The elements of an array literal; a hole is `undefined`, and a spread element has a label. -/
def arrayElements : List (Option (Eval Completion × Option String)) → Array Value →
    Eval (Array Value)
  | [], acc => pure acc
  | none :: rest, acc => arrayElements rest (acc.push .undefined)
  | some (x, none) :: rest, acc => do
    let v ← valueOf x
    arrayElements rest (acc.push v)
  | some (x, some label) :: rest, acc => do
    let items ← iterate (← valueOf x) label
    arrayElements rest (acc ++ items)

def arrayLiteral (elements : List (Option (Eval Completion × Option String))) :
    Eval Completion :=
  return .value (← newArray (← arrayElements elements #[]))

/-- An object literal: its parts are added one after the other. -/
def objectLiteral (parts : List (ObjectId → Eval Unit)) : Eval Completion := do
  let id ← newPlain
  parts.forM fun part => part id
  pure (.value (.object id))

/-- Add a property with a value; one under a symbol is not enumerable. -/
def addValue (key : Eval Key) (value : Eval Completion) (id : ObjectId) : Eval Unit := do
  let key ← key
  let v ← valueOf value
  let enumerable := key.name?.isSome
  discard <| defineOwn id key (.data v true enumerable true)

def addGetter (key : Eval Key) (function : Eval Completion) (id : ObjectId) : Eval Unit := do
  let key ← key
  let f ← valueOf function
  discard <| defineOwn id key
    { getter := some f, enumerable := some true, configurable := some true }

def addSetter (key : Eval Key) (function : Eval Completion) (id : ObjectId) : Eval Unit := do
  let key ← key
  let f ← valueOf function
  discard <| defineOwn id key
    { setter := some f, enumerable := some true, configurable := some true }

def addSpread (source : Eval Completion) (id : ObjectId) : Eval Unit := do
  copyProperties id (← valueOf source)

/-- A function expression; arrow functions keep the current receiver. -/
def functionValue (template : Template) : Eval Completion := do
  let current ← currentReceiver
  let kept := if template.isArrow then some current else none
  return .value (.object (← newFunction (.closure template (← currentScope) kept)))

def this : Eval Completion := do
  return .value (← hideGlobal (← currentReceiver))

/-- A template literal: texts and expressions in turn. -/
def templateText : List String → List (Eval Completion) → String → Eval String
  | [], _, acc => pure acc
  | text :: texts, [], acc => templateText texts [] (acc ++ text)
  | text :: texts, x :: rest, acc => do
    let piece ← toText (← valueOf x)
    templateText texts rest (acc ++ text ++ piece)

/-! ## 2. Members and calls -/

def computedKey (x : Eval Completion) : Eval Key := do
  toKey (← valueOf x)

/-- Read a member of the part of a chain before it; an optional one ends the chain on nothing. -/
def memberLink (position : Option Position) (object : Eval (Option Reference)) (key : Eval Key)
    (optional : Bool) : Eval (Option Reference) := do
  tick position
  match ← object with
  | none => pure none
  | some target =>
    if optional && target.value.isNullish then pure none
    else
      let key ← key
      let v ← getMember target.value key position
      pure (some ⟨target.value, v⟩)

/-- Read a member of the parent class's prototype. -/
def superMemberLink (position : Option Position) (key : Eval Key) : Eval (Option Reference) := do
  tick position
  let parent ← readName "super" position
  let prototype ← getNamed parent "prototype"
  let key ← key
  let v ← get prototype key
  pure (some ⟨← currentReceiver, v⟩)

/-- Call the parent class on the current receiver. -/
def superCallLink (position : Option Position) (args : List (Eval Completion × Bool)) :
    Eval (Option Reference) := do
  tick position
  match ← readName "super" position with
  | .object parent =>
    let values ← arguments args #[]
    discard <| initParent parent (← currentReceiver) values
    pure (some ⟨.undefined, .undefined⟩)
  | _ => raise .isNotConstructor "super" position

/-- Call a value, with its source text for the message when it is no function. -/
def callValue (function receiver : Value) (values : Array Value) (label : String)
    (position : Option Position) : Eval Value := do
  if ← isCallable function then hideGlobal (← call function receiver values)
  else raise .functionUndefined label position

/-- Evaluate text for a call of `eval` by name: in the caller's scope when the name is the built-in one, else
globally. -/
def evalByName (scope : ScopeKind) (values : Array Value) : Eval Value := do
  match scope with
  | .super | .root | .global =>
    evalText values[0]? (← currentScope) (← currentReceiver)
  | _ =>
    let m ← read fun m => (m.globalScope, m.bindings)
    evalText values[0]? m.1 (.object m.2)

/-- Whether a value is the function that evaluates text. -/
def isEvalText (v : Value) : Eval Bool := do
  match ← callable? v with
  | some .evalText => pure true
  | _ => pure false

def callNameLink (position : Option Position) (name : String)
    (args : List (Eval Completion × Bool)) (optional : Bool) (label : String) :
    Eval (Option Reference) := do
  tick position
  let (scope, function) ← resolveValue name position
  if optional && function.isNullish then pure none
  else
    let values ← arguments args #[]
    let s ← scopeAt scope
    if name == "eval" && (← isEvalText function) then
      let v ← evalByName s.kind values
      pure (some ⟨.undefined, v⟩)
    else
      let receiver := if s.kind = .withObject then .object s.data else .undefined
      let v ← callValue function receiver values label position
      pure (some ⟨.undefined, v⟩)

/-- Call the part of a chain before it. -/
def callLink (position : Option Position) (callee : Eval (Option Reference))
    (args : List (Eval Completion × Bool)) (optional : Bool) (label : String) :
    Eval (Option Reference) := do
  tick position
  match ← callee with
  | none => pure none
  | some target =>
    if optional && target.value.isNullish then pure none
    else
      let values ← arguments args #[]
      let v ← callValue target.value target.receiver values label position
      pure (some ⟨.undefined, v⟩)

def chain (link : Eval (Option Reference)) : Eval Completion := do
  match ← link with
  | some r => pure (.value r.value)
  | none => pure (.value .undefined)

/-- An expression with `new`. -/
def constructValue (callee : Eval Completion) (args : List (Eval Completion × Bool)) (label : String)
    (position : Option Position) : Eval Completion := do
  let function ← valueOf callee
  let values ← arguments args #[]
  if ← isConstructor function then return .value (← construct function values)
  else raise .isNotConstructor label position

/-- The values of expressions, one after the other. -/
def values : List (Eval Completion) → Array Value → Eval (Array Value)
  | [], acc => pure acc
  | x :: rest, acc => do
    let v ← valueOf x
    values rest (acc.push v)

/-- A tagged template: the tag gets the texts, with their written forms beside them, and the values. -/
def taggedTemplate (tag : Eval (Option Reference)) (cooked raw : List Value)
    (expressions : List (Eval Completion)) (label : String) (position : Option Position) :
    Eval Completion := do
  let target := (← tag).getD ⟨.undefined, .undefined⟩
  let written ← newArray raw.toArray
  let texts ← allocate
    { prototype := some Intrinsic.arrayPrototype.id, sort := .array, elements := some cooked.toArray
      properties := #[(.string "raw", .hidden written)] }
  let args ← values expressions #[.object texts]
  return .value (← callValue target.value target.receiver args label position)

/-! ## 3. Assignments -/

/-- Add to a name's number. -/
def updateName (name : String) (delta : Float) (isPrefix : Bool) (position : Option Position) :
    Eval Completion := do
  let old ← toNumber (← readName name position)
  let new := old + delta
  assignName name (.number new) position
  pure (.value (.number (if isPrefix then new else old)))

/-- Add to a member's number. -/
def updateMember (object : Eval Completion) (key : Eval Key) (delta : Float) (isPrefix : Bool)
    (position : Option Position) : Eval Completion := do
  let target ← valueOf object
  let key ← key
  let old ← toNumber (← getMember target key position)
  let new := old + delta
  put target key (.number new)
  pure (.value (.number (if isPrefix then new else old)))

/-- The value that an assignment writes, from the current value; `none` when a logical assignment leaves the
current value alone. -/
def assignedValue (operator : AssignmentOperator) (current : Value) (x : Eval Completion) :
    Eval (Option Value) := do
  match operator with
  | .or => if current.truthy then pure none else return some (← valueOf x)
  | .and => if current.truthy then return some (← valueOf x) else pure none
  | .nullish => if current.isNullish then return some (← valueOf x) else pure none
  | _ =>
    match operator.binary? with
    | some op =>
      let v ← valueOf x
      return some (← binary op current v)
    | none => return some (← valueOf x)

/-- Whether an assignment needs the current value. -/
def readsCurrent (operator : AssignmentOperator) : Bool :=
  match operator with
  | .or | .and | .nullish => true
  | _ => operator.binary?.isSome

/-- Assign by an operator, given how the current value is read and how the new one is written. -/
def assignBy (operator : AssignmentOperator) (current : Eval Value) (write : Value → Eval Unit)
    (x : Eval Completion) : Eval Completion := do
  if readsCurrent operator then
    let old ← current
    match ← assignedValue operator old x with
    | some v =>
      write v
      pure (.value v)
    | none => pure (.value old)
  else
    let v ← valueOf x
    write v
    pure (.value v)

def assignNameBy (operator : AssignmentOperator) (name : String) (x : Eval Completion)
    (position : Option Position) : Eval Completion :=
  assignBy operator (readName name position) (fun v => assignName name v position) x

def assignMemberBy (operator : AssignmentOperator) (object : Eval Completion) (key : Eval Key)
    (x : Eval Completion) (position : Option Position) : Eval Completion := do
  let target ← valueOf object
  let key ← key
  assignBy operator (getMember target key position) (fun v => put target key v) x

/-- Assign by taking a value apart. -/
def assignPattern (bind : Value → Eval Unit) (x : Eval Completion) : Eval Completion := do
  let v ← valueOf x
  bind v
  pure (.value v)

/-- An operator that may leave its right side alone. -/
def logical (operator : LogicalOperator) (left right : Eval Completion) : Eval Completion := do
  let l ← valueOf left
  let decided :=
    match operator with
    | .or => l.truthy
    | .and => !l.truthy
    | _ => !l.isNullish
  if decided then pure (.value l) else right

/-! ## 4. Patterns -/

def bindName (mode : BindingMode) (name : String) (position : Option Position) (v : Value) :
    Eval Unit :=
  match mode with
  | .var | .assign => assignName name v position
  | .lexical => initializeName name v position
  | .parameter => setLocal name v

/-- Assign a member. -/
def bindMember (object : Eval Completion) (key : Eval Key) (v : Value) : Eval Unit := do
  let target ← valueOf object
  let key ← key
  put target key v

/-- Bind a value, or a default in place of `undefined`. -/
def bindDefault (bind : Value → Eval Unit) (default : Eval Completion) (v : Value) : Eval Unit := do
  if v.isUndefined then bind (← valueOf default) else bind v

/-- A new object with the enumerable properties of a value that have not been used. -/
def restObject (source : Value) (used : List Key) : Eval ObjectId := do
  let rest ← newPlain
  match source with
  | .object id =>
    let names ← read fun m => (m.objectAt id).enumerableNames
    names.forM fun name => do
      if used.any fun key => key.isName name then pure ()
      else
        let v ← getNamed source name
        modifyObject rest fun o => o.insertValue name v
  | _ => pure ()
  pure rest

/-- Bind the parts of an object one after the other. -/
def bindParts (source : Value) : List PartAction → List Key → Eval Unit
  | [], _ => pure ()
  | .property key bind :: rest, used => do
    let key ← key
    let v ← get source key
    bind v
    bindParts source rest (key :: used)
  | .rest bind :: rest, used => do
    bind (.object (← restObject source used))
    bindParts source rest used

/-- Take an object apart. -/
def bindObject (parts : List PartAction) (label : String) (v : Value) : Eval Unit := do
  if v.isNullish then
    throwTypeError ("Cannot destructure '" ++ label ++ "' as it is " ++ (← display v) ++ ".")
  else bindParts v parts []

/-- Bind elements from a place on; a hole takes an element and binds nothing. -/
def bindElements (items : Array Value) :
    List (Option ((Value → Eval Unit) × Bool)) → Nat → Eval Unit
  | [], _ => pure ()
  | none :: rest, i => bindElements items rest (i + 1)
  | some (bind, takesRest) :: rest, i => do
    if takesRest then bind (← newArray (items.extract i items.size))
    else bind (items.getD i .undefined)
    bindElements items rest (i + 1)

/-- Take a list of values apart. -/
def bindArray (elements : List (Option ((Value → Eval Unit) × Bool))) (label : String) (v : Value) :
    Eval Unit := do
  bindElements (← iterate v label) elements 0

end Eval

end GuestScript
