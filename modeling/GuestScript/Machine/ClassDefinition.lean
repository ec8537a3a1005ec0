import GuestScript.Machine.Expression

/-!
# Class definitions

A class is made in order: its parent, its scopes, its constructor, then the keys of its members, the class
object with its prototype, the methods, and last the static fields. A derived class keeps its parent under the
name `super` in a scope around its constructor.
-/

namespace GuestScript

/-- A member of a class, as an action. -/
inductive MemberAction where
  | method (key : Eval Key) (template : Template) (isStatic : Bool)
  | accessor (isGetter : Bool)
  | field (key : Eval Key) (init : Option Code) (isArrow : Bool)
  | staticField (key : Eval Key) (init : Option (Eval Completion))

def MemberAction.staticInit? : MemberAction → Option (Option (Eval Completion))
  | staticField _ init => some init
  | _ => none

/-- The members of a class with their keys known. -/
structure ClassMembers where
  methods : List (Key × ObjectId × Bool) := []
  fields : List ClassField := []
  staticKeys : List Key := []

/-- What a class is made from, as actions. -/
structure ClassAction where
  name : String
  binding : Option String
  parent : Option (Eval Completion)
  constructor : Option Template
  members : List MemberAction
  source : Option String
  position : Option Position

namespace Eval

/-- The parent of a class: the parent class, if any, and the prototype of the class's own prototype. -/
def classParent (parent : Option (Eval Completion)) : Eval (Option ObjectId × Option ObjectId) := do
  match parent with
  | none => pure (none, some Intrinsic.objectPrototype.id)
  | some x =>
    let v ← valueOf x
    match v with
    | .null => pure (none, none)
    | _ =>
      if ← isConstructor v then
        match v with
        | .object id =>
          match (← object id).ownValue? "prototype" with
          | some (.object prototype) => pure (some id, some prototype)
          | some .null => pure (some id, none)
          | _ => pure (some id, some Intrinsic.objectPrototype.id)
        | _ => pure (none, none)
      else
        throwTypeError ("Class extends value " ++ (← display v) ++ " is not a constructor or null")

/-- The scope of a class body: one that binds the class's own name, or the current one. -/
def classScope (binding : Option String) : Eval ScopeId := do
  let outer ← currentScope
  match binding with
  | some name => newFrame .block outer [(name, .constant)]
  | none => pure outer

def classConstructor (template : Option Template) (parent : Option ObjectId) (scope : ScopeId) :
    Eval (Option ObjectId) := do
  match template, parent with
  | some t, some p =>
    let prelude ← newFrame .block scope [("super", .constant)]
    initializeIn prelude "super" (.object p)
    return some (← newFunction (.closure t prelude none))
  | some t, none => return some (← newFunction (.closure t scope none))
  | none, _ => pure none

/-- Find the keys of the members in order, and make the methods. -/
def classMembers (scope : ScopeId) (position : Option Position) :
    List MemberAction → ClassMembers → Eval ClassMembers
  | [], acc => pure acc
  | .accessor isGetter :: _, _ =>
    raise .normalError
      ("Class " ++ (if isGetter then "getter" else "setter") ++ " members are not supported") position
  | .method key template isStatic :: rest, acc => do
    let key ← key
    let id ← newFunction (.closure template scope none)
    classMembers scope position rest { acc with methods := acc.methods ++ [(key, id, isStatic)] }
  | .field key init isArrow :: rest, acc => do
    let key ← key
    classMembers scope position rest { acc with fields := acc.fields ++ [⟨key, init, isArrow⟩] }
  | .staticField key _ :: rest, acc => do
    let key ← key
    classMembers scope position rest { acc with staticKeys := acc.staticKeys ++ [key] }

/-- Give a class its static fields, each computed with the class as the receiver. -/
def staticFields (scope : ScopeId) (id : ObjectId) :
    List (Key × Option (Eval Completion)) → Eval Unit
  | [] => pure ()
  | (key, init) :: rest => do
    let v ←
      match init with
      | some x => inFrame scope (.object id) (valueOf x)
      | none => pure .undefined
    discard <| defineOwn id key (.ordinary v)
    staticFields scope id rest

def classObject (data : ClassFunction) (prototype : ObjectId) : Object :=
  (functionObject (.classFunction data) (data.parent.getD Intrinsic.functionPrototype.id)).insert "prototype"
    (.data (.object prototype) false false false)

/-- Make a class. -/
def defineClass (c : ClassAction) : Eval ObjectId := do
  let (parent, prototypeParent) ← classParent c.parent
  let prototype ← newObject prototypeParent
  let scope ← classScope c.binding
  let constructor ← classConstructor c.constructor parent scope
  let members ← classMembers scope c.position c.members {}
  let data : ClassFunction :=
    { name := c.name
      constructor := constructor
      arity := if constructor.isSome then (c.constructor.map Template.arity).getD 0 else 0
      parent := parent
      fields := members.fields
      scope := scope
      source := c.source }
  let id ← allocate (classObject data prototype)
  modifyObject prototype fun o => o.insertHidden "constructor" (.object id)
  members.methods.forM fun (key, method, isStatic) =>
    discard <| defineOwn (if isStatic then id else prototype) key (.data (.object method) true false true)
  match c.binding with
  | some name => initializeIn scope name (.object id)
  | none => pure ()
  staticFields scope id (members.staticKeys.zip (c.members.filterMap MemberAction.staticInit?))
  pure id

/-- A class declaration: the class is bound to its name, and is the result of the statement. -/
def classDeclaration (c : ClassAction) (position : Option Position) : Eval Completion := do
  let v := Value.object (← defineClass c)
  match c.binding with
  | some name => initializeName name v position
  | none => pure ()
  noteResult v
  pure (.value v)

end Eval

end GuestScript
