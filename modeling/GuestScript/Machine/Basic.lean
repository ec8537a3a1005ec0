import GuestScript.Object.Basic
import GuestScript.Tree.Parser

/-!
# The machine

All state of an evaluator. What scripts work on is the `State`: the heap, the scopes, the symbols, and the
`Registers` of the function that is running. The `Machine` adds the counted steps and their `Limits`, which no
script can look at.
-/

namespace GuestScript

/-! ## 1. Scopes -/

/-- The sorts of scopes. -/
inductive ScopeKind where
  /-- The built-in names. -/
  | super
  /-- A fresh object in front of the host's root context. -/
  | root
  /-- The host's bindings. -/
  | global
  | function
  | block
  | withObject
  deriving DecidableEq

/-- Whether a scope of some sort has an object of its own, which holds nothing but its names. -/
def ScopeKind.ownsNames : ScopeKind → Bool
  | super | function | block => true
  | root | global | withObject => false

/-- The state of a lexical name. -/
structure LexicalRecord where
  initialized : Bool
  kind : LexicalKind

/-- A scope: an object that holds the values, and the lexical names declared in it. -/
structure Scope where
  data : ObjectId
  parent : Option ScopeId
  kind : ScopeKind
  lexical : List (String × LexicalRecord) := []

namespace Scope

instance : Inhabited Scope := ⟨{ data := ⟨0⟩, parent := none, kind := .global }⟩

def setRecord (name : String) (record : LexicalRecord) :
    List (String × LexicalRecord) → List (String × LexicalRecord)
  | [] => [(name, record)]
  | (n, r) :: rest =>
    if n == name then (n, record) :: rest else (n, r) :: setRecord name record rest

/-- The records of the names of a frame, none of them initialized. -/
def recordsOf (frame : LexicalFrame) : List (String × LexicalRecord) :=
  frame.foldl (fun records entry => setRecord entry.1 ⟨false, entry.2⟩ records) []

def record? (s : Scope) (name : String) : Option LexicalRecord :=
  s.lexical.lookup name

def markInitialized (s : Scope) (name : String) : Scope :=
  match s.record? name with
  | some r => { s with lexical := setRecord name { r with initialized := true } s.lexical }
  | none => s

end Scope

/-! ## 2. Options -/

/-- What turns text into a syntax tree. -/
abbrev TextParser := String → ParseOptions → Except ParseError Node

/-- How long an evaluation may run. -/
structure Limits where
  /-- The time limit in milliseconds; zero is no limit. -/
  timeout : Nat := 100
  /-- How many steps pass in one millisecond of the machine's own clock. -/
  pace : Nat := 4096
  /-- Where the machine's own clock starts, in milliseconds from the start of 1970. -/
  clockStart : Nat := 1700000000000
  maxSteps : Nat := 1024

/-- The rules of an evaluation that scripts can notice. -/
structure Rules where
  ecmaVersion : String := "latest"
  maxCallDepth : Nat := 256
  /-- The object whose properties are seen between the built-in names and the bindings. -/
  rootContext : Option ObjectId := none
  plainReceiver : Value := .undefined
  parser : Option TextParser := none

/-- Everything that a host chooses for one evaluation. -/
structure Options extends Rules, Limits

/-- The built-in parser fills in when there is none. -/
def Options.withDefaultParser (o : Options) : Options :=
  match o.parser with
  | some _ => o
  | none => { o with parser := some parse }

/-! ## 3. Intrinsic objects -/

/-- The objects that every heap starts with, in order. -/
inductive Intrinsic where
  | objectPrototype
  | functionPrototype
  | errorPrototype (kind : ErrorKind)
  | arrayPrototype
  | stringPrototype
  | numberPrototype
  | booleanPrototype
  | symbolPrototype
  | datePrototype
  | regexPrototype
  | collectionPrototype (kind : CollectionKind)
  | evalText
  | makeFunction
  deriving DecidableEq

def Intrinsic.id : Intrinsic → ObjectId
  | objectPrototype => ⟨0⟩
  | functionPrototype => ⟨1⟩
  | errorPrototype .error => ⟨2⟩
  | errorPrototype .typeError => ⟨3⟩
  | errorPrototype .referenceError => ⟨4⟩
  | errorPrototype .syntaxError => ⟨5⟩
  | errorPrototype .rangeError => ⟨6⟩
  | errorPrototype .uriError => ⟨7⟩
  | errorPrototype .evalError => ⟨8⟩
  | arrayPrototype => ⟨9⟩
  | stringPrototype => ⟨10⟩
  | numberPrototype => ⟨11⟩
  | booleanPrototype => ⟨12⟩
  | symbolPrototype => ⟨13⟩
  | datePrototype => ⟨14⟩
  | regexPrototype => ⟨15⟩
  | collectionPrototype .map => ⟨16⟩
  | collectionPrototype .set => ⟨17⟩
  | collectionPrototype .weakMap => ⟨18⟩
  | collectionPrototype .weakSet => ⟨19⟩
  | evalText => ⟨20⟩
  | makeFunction => ⟨21⟩

/-- The built-in part of a heap: the global names, and for each protected object the name that it is reported
under. -/
structure Realm where
  globals : List (String × Value) := []
  labels : Array (Option String) := #[]

/-- The name under which a protected object is reported. -/
def Realm.label? (r : Realm) (id : ObjectId) : Option String :=
  (r.labels[id.index]?).join

/-! ## 4. The machine -/

/-- What belongs to the function that is running. -/
structure Registers where
  scope : ScopeId := ⟨0⟩
  /-- The current receiver, `this`. -/
  receiver : Value := .undefined
  /-- The value of the last expression statement outside all functions. -/
  result : Value := .undefined
  /-- The names of the functions that are running, the innermost first. -/
  calls : List String := []
  depth : Nat := 0
  /-- The function that a built-in constructor was called for with `new`. -/
  newTarget : Option ObjectId := none
  /-- The arrays whose elements are being joined, the innermost first. -/
  joining : List ObjectId := []

/-- What scripts work on. -/
structure State extends Registers where
  heap : Array Object := #[]
  scopes : Array Scope := #[]
  realm : Realm := {}
  rules : Rules := {}
  bindings : ObjectId := ⟨0⟩
  superScope : ScopeId := ⟨0⟩
  globalScope : ScopeId := ⟨0⟩
  lastPosition : Option Position := none
  nextSymbol : Nat := 0

/-- The state of an evaluator. -/
structure Machine extends State where
  limits : Limits := {}
  /-- How many steps the running evaluation has counted. -/
  steps : Nat := 0

/-- The names of the functions that are running, the outermost first. -/
def Registers.callStack (r : Registers) : Array String :=
  r.calls.reverse.toArray

end GuestScript
