import GuestScript.Machine.Action

/-!
# Looking things up

Properties are looked up along the chain of prototypes, names along the chain of scopes. All walks are
bounded by the number of objects or scopes there are, which a chain without a repetition cannot pass. The
walk that collects names gives nothing when the bound is passed, since it would never end.

* `State.lookup?` finds a property on an object or its prototypes.
* `State.resolve` finds the scope that binds a name. A name that nothing binds belongs to the global scope,
  so that reading it can be reported and writing it can create it there.
-/

namespace GuestScript.State

/-! ## 1. Along prototypes -/

/-- Find a property on the first `fuel` objects of a chain. -/
def lookupFrom (m : State) (key : Key) : Nat → ObjectId → Option Property
  | 0, _ => none
  | fuel + 1, id =>
    let o := m.objectAt id
    match o.own? key with
    | some p => some p
    | none =>
      match o.prototype with
      | some parent => lookupFrom m key fuel parent
      | none => none

/-- Find a property on an object or its prototypes. -/
def lookup? (m : State) (id : ObjectId) (key : Key) : Option Property :=
  m.lookupFrom key (m.heap.size + 1) id

def hasProperty (m : State) (id : ObjectId) (key : Key) : Bool :=
  (m.lookup? id key).isSome

/-- The objects on a chain, from one of them on. The walk ends where it started; a chain that runs into a circle
elsewhere has no end. -/
def chainFrom (m : State) (start : ObjectId) : Nat → ObjectId → Option (List ObjectId)
  | 0, _ => none
  | fuel + 1, id =>
    match (m.objectAt id).prototype with
    | some parent => if parent = start then some [id] else (chainFrom m start fuel parent).map (id :: ·)
    | none => some [id]

/-- An object and its prototypes, if there is an end to them. -/
def chain? (m : State) (id : ObjectId) : Option (List ObjectId) :=
  m.chainFrom id (m.heap.size + 1) id

/-- Take note of a name: it is shown if it was not met before and is enumerable. -/
def noteName (noted : Std.HashSet String × Array String) (name : String) (enumerable : Bool) :
    Std.HashSet String × Array String :=
  match noted with
  | (met, shown) =>
    if met.contains name then (met, shown)
    else (met.insert name, if enumerable then shown.push name else shown)

/-- The names that are enumerable where they are listed first. -/
def shownNames (listed : List (String × Bool)) : Array String :=
  (listed.foldl (fun noted entry => noteName noted entry.1 entry.2) (∅, #[])).2

/-- The enumerable names of an object and its prototypes, each shadowed name once, if there is an end to them. -/
def enumerableNames? (m : State) (id : ObjectId) : Option (Array String) :=
  (m.chain? id).map fun ids => shownNames (ids.flatMap fun id => (m.objectAt id).listedNames)

/-- The value of a data property of an object or its prototypes; getters are not run. -/
def plainValue (m : State) (id : ObjectId) (name : String) : Value :=
  ((m.lookup? id (.string name)).bind Property.value?).getD .undefined

/-! ## 2. Along scopes -/

def holds (m : State) (s : Scope) (name : String) : Bool :=
  match s.kind with
  | .withObject | .root => m.hasProperty s.data (.string name)
  | _ => (m.objectAt s.data).hasOwn (.string name)

/-- What is about to be done with a name. -/
inductive Access where
  | use
  /-- The first write of a declaration, which may happen in the dead zone. -/
  | firstWrite
  deriving DecidableEq

/-- What resolving a name finds. -/
inductive Resolution where
  | found (scope : ScopeId)
  /-- A lexical name whose declaration has not run yet. -/
  | uninitialized

/-- Find the scope that binds a name among the next `fuel` scopes. The global scope that was passed on the
way, if any, stands in when no scope binds it; else the last scope does. -/
def resolveFrom (m : State) (name : String) (access : Access) :
    Nat → ScopeId → Option ScopeId → Resolution
  | 0, id, global => .found (global.getD id)
  | fuel + 1, id, global =>
    let s := m.scopeAt id
    match s.record? name with
    | some r => if r.initialized || access = .firstWrite then .found id else .uninitialized
    | none =>
      if m.holds s name then .found id
      else
        let global := if s.kind = .global && global.isNone then some id else global
        match s.parent with
        | some parent => resolveFrom m name access fuel parent global
        | none => .found (global.getD id)

/-- Find the scope that binds a name. -/
def resolve (m : State) (name : String) (access : Access) : Resolution :=
  m.resolveFrom name access (m.scopes.size + 1) m.scope none

/-- The nearest function or global scope among the next `fuel` scopes. -/
def variableScopeFrom (m : State) : Nat → ScopeId → ScopeId
  | 0, id => id
  | fuel + 1, id =>
    let s := m.scopeAt id
    if s.kind = .function || s.kind = .global then id
    else
      match s.parent with
      | some parent => variableScopeFrom m fuel parent
      | none => id

/-- The scope where `var` declarations land. -/
def variableScope (m : State) : ScopeId :=
  m.variableScopeFrom (m.scopes.size + 1) m.scope

end GuestScript.State

namespace GuestScript.Eval

/-! ## 3. As actions -/

/-- Find a property on an object or its prototypes. -/
def lookup? (id : ObjectId) (key : Key) : Eval (Option Property) :=
  read fun m => m.lookup? id key

def hasProperty (id : ObjectId) (key : Key) : Eval Bool :=
  read fun m => m.hasProperty id key

def enumerableNames (id : ObjectId) : Eval (Array String) := do
  match ← read fun m => m.enumerableNames? id with
  | some names => pure names
  | none => stop .exhausted

/-- The scope at an address. -/
def scopeAt (id : ScopeId) : Eval Scope :=
  read fun m => m.scopeAt id

def currentScope : Eval ScopeId :=
  read fun m => m.scope

/-- Make a scope of an object that is there already. -/
def newScope (s : Scope) : Eval ScopeId :=
  update (.newScope s)

/-- Make a scope with an object of its own, which holds some names from the start. -/
def openFrame (kind : ScopeKind) (parent : Option ScopeId) (lexical : List (String × LexicalRecord))
    (held : Array (Key × Property)) : Eval ScopeId :=
  update (.newFrame kind parent lexical held)

/-- Make a scope with an object of its own and the names of a frame, none of them initialized. -/
def newFrame (kind : ScopeKind) (parent : ScopeId) (frame : LexicalFrame) : Eval ScopeId :=
  openFrame kind (some parent) (Scope.recordsOf frame) #[]

def changeNames (id : ScopeId) (f : Object → Object) : Eval Unit :=
  update (.names id f)

def setVariable (id : ScopeId) (name : String) (value : Value) : Eval Unit :=
  changeNames id fun o => o.insertValue name value

/-- Set a lexical name in a scope itself, which ends its dead zone. -/
def initializeIn (id : ScopeId) (name : String) (value : Value) : Eval Unit := do
  setVariable id name value
  update (.unlock id name)

/-- A copy of a loop's scope for the next round, so that functions of the last round keep their values. Only names
with values are copied, and the object of such a scope holds nothing else. -/
def forkScope (id : ScopeId) : Eval ScopeId := do
  let s ← scopeAt id
  let held ← read fun m =>
    (m.objectAt s.data).properties.filter fun entry => entry.1.name?.isSome && !entry.2.isAccessor
  openFrame .block s.parent s.lexical held

end GuestScript.Eval
