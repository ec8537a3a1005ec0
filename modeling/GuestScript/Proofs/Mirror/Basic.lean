import GuestScript.Proofs.Log
import GuestScript.Proofs.Steady

/-!
# Mirrors

Addresses of objects and scopes and the numbers of symbols mean nothing to a script: a machine that holds the same
things at other addresses does the same. This module says what "the same things at other addresses" is.

* An `Embedding` sends addresses to addresses. It also says which objects a script can get hold of, the *open* ones,
  and which of them only hold the names of a scope, the *closed* ones. All others are out of its reach. A scope that is
  *clear* binds nothing and is sent to where its parent is sent.
* `image` moves anything along an embedding; `Within` says that nothing in it is out of reach or closed.
* `Embedding.Mirrors` relates two states: what is within reach in the one is found, moved, in the other.
-/

namespace GuestScript

/-! ## 1. Embeddings -/

/-- A way to move what a script can reach to other addresses. -/
structure Embedding where
  object : ObjectId → ObjectId
  scope : ScopeId → ScopeId
  serial : Nat → Nat
  /-- The objects that a script can get hold of. -/
  Open : ObjectId → Prop
  /-- The objects that only hold the names of a scope. -/
  Closed : ObjectId → Prop
  /-- The scopes that a script can run in. -/
  Scoped : ScopeId → Prop
  /-- The scopes that names are only passed on from. -/
  Clear : ScopeId → Prop
  /-- The ways in which declarations and assignments may bind a name. -/
  Sets : BindingMode → Prop
  /-- The names of constants in closed objects. -/
  Constant : ObjectId → String → Prop
  object_injective : ∀ {a b}, Open a ∨ Closed a → Open b ∨ Closed b → object a = object b → a = b
  scope_injective : ∀ {a b}, Scoped a ∧ ¬ Clear a → Scoped b ∧ ¬ Clear b → scope a = scope b → a = b
  serial_injective : ∀ {a b}, serial a = serial b → a = b
  apart : ∀ {id}, Open id → ¬ Closed id
  sets : ∀ mode, mode ≠ .parameter → Sets mode
  sets_parameter : Sets .parameter → ∀ id, ¬ Clear id
  intrinsic_open : ∀ i : Intrinsic, Open i.id
  intrinsic_fixed : ∀ i : Intrinsic, object i.id = i.id

/-- The scopes that a script can run in and bind names in. -/
def Embedding.Solid (e : Embedding) (id : ScopeId) : Prop :=
  e.Scoped id ∧ ¬ e.Clear id

/-- What can be moved along an embedding. -/
class Carried (α : Type) where
  /-- Whether nothing in it is out of reach or closed. -/
  Within : Embedding → α → Prop
  image : Embedding → α → α

export Carried (Within image)

/-- What holds no address. -/
@[reducible] def Carried.plain {α : Type} : Carried α where
  Within _ _ := True
  image _ a := a

instance : Carried Unit := .plain
instance : Carried Bool := .plain
instance : Carried Nat := .plain
instance : Carried UInt16 := .plain
instance : Carried Float := .plain
instance : Carried Char := .plain
instance : Carried String := .plain
instance : Carried Position := .plain
instance : Carried Regex := .plain
instance : Carried Regex.Match := .plain

instance : Carried ObjectId where
  Within e id := e.Open id
  image e id := e.object id

instance : Carried ScopeId where
  Within e id := e.Scoped id
  image e id := e.scope id

section

variable {α β : Type} [Carried α] [Carried β]

instance : Carried (Option α) where
  Within e o := ∀ a ∈ o, Within e a
  image e o := o.map (image e)

instance : Carried (List α) where
  Within e l := ∀ a ∈ l, Within e a
  image e l := l.map (image e)

instance : Carried (Array α) where
  Within e l := ∀ a ∈ l, Within e a
  image e l := l.map (image e)

instance : Carried (α × β) where
  Within e p := Within e p.1 ∧ Within e p.2
  image e p := (image e p.1, image e p.2)

end

/-! ## 2. Values -/

instance : Carried Symbol where
  Within _ _ := True
  image e
    | .made serial description => .made (e.serial serial) description
    | s => s

instance : Carried Key where
  Within _ _ := True
  image e
    | .symbol s => .symbol (image e s)
    | key => key

instance : Carried Value where
  Within e
    | .object id => e.Open id
    | _ => True
  image e
    | .object id => .object (e.object id)
    | .symbol s => .symbol (image e s)
    | v => v

instance : Carried Content where
  Within e
    | .data value _ => Within e value
    | .accessor getter setter => Within e getter ∧ Within e setter
  image e
    | .data value writable => .data (image e value) writable
    | .accessor getter setter => .accessor (image e getter) (image e setter)

instance : Carried Property where
  Within e p := Within e p.content
  image e p := { p with content := image e p.content }

instance : Carried Descriptor where
  Within e d := Within e d.value ∧ Within e d.getter ∧ Within e d.setter
  image e d :=
    { d with value := image e d.value, getter := image e d.getter, setter := image e d.setter }

instance : Carried Literal := .plain

/-! ## 3. Objects -/

instance : Carried ClassField where
  Within e field := Code.Firm? e.Sets field.init
  image e field := { field with key := image e field.key }

instance : Carried ClassFunction where
  Within e data :=
    Within e data.constructor ∧ Within e data.parent ∧ Within e data.fields ∧ Within e data.scope
  image e data :=
    { data with
      constructor := image e data.constructor, parent := image e data.parent,
      fields := image e data.fields, scope := image e data.scope }

instance : Carried Callable where
  Within e
    | .closure template scope receiver => template.Firm e.Sets ∧ Within e scope ∧ Within e receiver
    | .classFunction data => Within e data
    | .bound target receiver args _ _ _ => Within e target ∧ Within e receiver ∧ Within e args
    | .builtin _ | .evalText | .makeFunction => True
  image e
    | .closure template scope receiver => .closure template (image e scope) (image e receiver)
    | .classFunction data => .classFunction (image e data)
    | .bound target receiver args name arity isConstructor =>
      .bound (image e target) (image e receiver) (image e args) name arity isConstructor
    | .builtin function => .builtin function
    | .evalText => .evalText
    | .makeFunction => .makeFunction

/-- Whether nothing in an object is out of reach or closed. -/
structure Object.IsWithin (e : Embedding) (o : Object) : Prop where
  properties : Within e o.properties
  prototype : Within e o.prototype
  callable : Within e o.callable
  elements : Within e o.elements
  primitive : Within e o.primitive
  mapEntries : Within e o.mapEntries
  setEntries : Within e o.setEntries

instance : Carried Object where
  Within := Object.IsWithin
  image e o :=
    { o with
      properties := image e o.properties, prototype := image e o.prototype,
      callable := image e o.callable, elements := image e o.elements,
      primitive := image e o.primitive, mapEntries := image e o.mapEntries,
      setEntries := image e o.setEntries }

/-- Whether an object only holds names: it has no prototype and no special slots, and each of its properties holds
a value. -/
structure Object.HoldsNames (o : Object) : Prop where
  prototype : o.prototype = none
  elements : o.elements = none
  primitive : o.primitive = none
  values : ∀ entry ∈ o.properties, entry.2.isAccessor = false

/-- What declarations do to an object that holds names: they set a name, or add one unless it is there. -/
inductive Object.Declares : (Object → Object) → Prop where
  | set (name : String) (v : Value) : Declares fun o => o.insertValue name v
  | add (name : String) : Declares fun o => if o.hasOwn (.string name) then o else o.insertValue name .undefined

/-! ## 4. States -/

instance : Carried LexicalRecord := .plain

/-- Whether a scope holds its names in an object that fits its sort, and whether its parent can be run in. -/
structure Scope.IsWithin (e : Embedding) (s : Scope) : Prop where
  closed : s.kind.ownsNames = true → e.Closed s.data
  opened : s.kind.ownsNames = false → e.Open s.data
  constant : s.kind.ownsNames = true → ∀ name, e.Constant s.data name → ∃ r, s.record? name = some r ∧ r.kind = .constant
  parent : Within e s.parent

instance : Carried Scope where
  Within := Scope.IsWithin
  image e s := { s with data := e.object s.data, parent := image e s.parent }

instance : Carried Registers where
  Within e r :=
    Within e r.scope ∧ Within e r.receiver ∧ Within e r.result ∧ Within e r.newTarget ∧ Within e r.joining
  image e r :=
    { r with
      scope := image e r.scope, receiver := image e r.receiver, result := image e r.result,
      newTarget := image e r.newTarget, joining := image e r.joining }

instance : Carried Rules where
  Within e r := Within e r.rootContext ∧ Within e r.plainReceiver
  image e r := { r with rootContext := image e r.rootContext, plainReceiver := image e r.plainReceiver }

/-- Whether every scope is younger than its parent. -/
def State.Ordered (s : State) : Prop :=
  ∀ id : ScopeId, ∀ parent ∈ (s.scopeAt id).parent, parent.index < id.index

/-- Whether an object has a place in an embedding. -/
def Embedding.Holds (e : Embedding) (id : ObjectId) : Prop :=
  e.Open id ∨ e.Closed id

/-- Whether a scope binds nothing and has no place of its own in an embedding: it stands where its parent does, and its
object is out of reach. -/
structure Embedding.Elides (e : Embedding) (s : State) (id : ScopeId) : Prop where
  kind : (s.scopeAt id).kind = .block
  lexical : (s.scopeAt id).lexical = []
  parent : ∃ parent, (s.scopeAt id).parent = some parent ∧ e.Scoped parent ∧ e.scope id = e.scope parent
  index_lt : id.index < s.scopes.size
  data_lt : (s.scopeAt id).data.index < s.heap.size
  data : ¬ e.Holds (s.scopeAt id).data
  empty : ∀ name, (s.objectAt (s.scopeAt id).data).hasOwn (.string name) = false

/-- Whether a state holds all that is within reach of a script in another one, moved along an embedding. The
addresses that come next correspond, too, so the two states can go on together. -/
structure Embedding.Mirrors (e : Embedding) (s s' : State) : Prop where
  within_registers : Within e s.toRegisters
  registers : s'.toRegisters = image e s.toRegisters
  within_object : ∀ {id}, e.Holds id → Within e (s.objectAt id)
  object : ∀ {id}, e.Holds id → s'.objectAt (e.object id) = image e (s.objectAt id)
  names : ∀ {id}, e.Closed id → (s.objectAt id).HoldsNames
  object_lt : ∀ {id}, e.Holds id → ((e.object id).index < s'.heap.size ↔ id.index < s.heap.size)
  object_next : ∀ k, e.object ⟨s.heap.size + k⟩ = ⟨s'.heap.size + k⟩
  within_scope : ∀ {id}, e.Solid id → Within e (s.scopeAt id)
  scope : ∀ {id}, e.Solid id → s'.scopeAt (e.scope id) = image e (s.scopeAt id)
  clear : ∀ {id}, e.Clear id → e.Elides s id
  scope_lt : ∀ {id}, e.Scoped id → ((e.scope id).index < s'.scopes.size ↔ id.index < s.scopes.size)
  scope_next : ∀ k, e.scope ⟨s.scopes.size + k⟩ = ⟨s'.scopes.size + k⟩
  ordered : s.Ordered
  ordered' : s'.Ordered
  serial_next : ∀ k, e.serial (s.nextSymbol + k) = s'.nextSymbol + k
  within_globals : Within e s.realm.globals
  globals : s'.realm.globals = image e s.realm.globals
  label : ∀ {id}, e.Holds id → s'.realm.label? (e.object id) = s.realm.label? id
  within_rules : Within e s.rules
  rules : s'.rules = image e s.rules
  within_bindings : e.Open s.bindings
  bindings : s'.bindings = e.object s.bindings
  within_superScope : e.Solid s.superScope
  superScope : s'.superScope = e.scope s.superScope
  within_globalScope : e.Scoped s.globalScope
  globalScope : s'.globalScope = e.scope s.globalScope
  lastPosition : s'.lastPosition = s.lastPosition

/-- Whether a machine mirrors another one: it has counted the same steps under the same limits, too. -/
structure Embedding.Reflects (e : Embedding) (m m' : Machine) : Prop where
  state : e.Mirrors m.toState m'.toState
  limits : m'.limits = m.limits
  steps : m'.steps = m.steps

end GuestScript
