import GuestScript.Number.Arithmetic
import GuestScript.Number.Notation

/-!
# Guest values

The values that scripts compute with. Objects live on the heap of a machine and are named by their address;
symbols are told apart by a serial number. The three equalities differ only on numbers: `strictEquals`
sets not-a-number apart from itself, `sameValue` tells the zeros apart, `sameValueZero` does neither.
-/

namespace GuestScript

/-! ## 1. Addresses -/

/-- The address of an object. -/
structure ObjectId where
  index : Nat
  deriving DecidableEq

/-- The address of a scope. -/
structure ScopeId where
  index : Nat
  deriving DecidableEq

/-! ## 2. Symbols -/

/-- The symbols that every script shares. -/
inductive WellKnownSymbol where
  | iterator
  | asyncIterator
  | hasInstance
  | toPrimitive
  | toStringTag
  deriving DecidableEq

def WellKnownSymbol.name : WellKnownSymbol → String
  | iterator => "iterator"
  | asyncIterator => "asyncIterator"
  | hasInstance => "hasInstance"
  | toPrimitive => "toPrimitive"
  | toStringTag => "toStringTag"

/-- The shared symbols, in the order in which they are listed. -/
def WellKnownSymbol.all : List WellKnownSymbol :=
  [iterator, asyncIterator, hasInstance, toPrimitive, toStringTag]

/-- A symbol: one of the shared ones, the one that is registered under a name, or one that a script made. Made
symbols differ by their serial number; the description is only shown. -/
inductive Symbol where
  | wellKnown (symbol : WellKnownSymbol)
  | registered (name : String)
  | made (serial : Nat) (description : Option String)

namespace Symbol

def same : Symbol → Symbol → Bool
  | wellKnown a, wellKnown b => a = b
  | registered a, registered b => a == b
  | made a _, made b _ => a = b
  | _, _ => false

def description? : Symbol → Option String
  | wellKnown s => some ("Symbol." ++ s.name)
  | registered name => some name
  | made _ description => description

def registeredName? : Symbol → Option String
  | registered name => some name
  | _ => none

def text (s : Symbol) : String :=
  "Symbol(" ++ s.description?.getD "" ++ ")"

end Symbol

/-! ## 3. Values -/

/-- A guest value. -/
inductive Value where
  | undefined
  | null
  | boolean (b : Bool)
  | number (x : Float)
  | string (s : String)
  | symbol (s : Symbol)
  | object (id : ObjectId)

namespace Value

instance : Inhabited Value := ⟨undefined⟩

/-- Whether a value is `undefined`. -/
def isUndefined : Value → Bool
  | undefined => true
  | _ => false

/-- Whether a value is `undefined` or `null`. -/
def isNullish : Value → Bool
  | undefined | null => true
  | _ => false

def isObject : Value → Bool
  | object _ => true
  | _ => false

def isString : Value → Bool
  | string _ => true
  | _ => false

/-- The address of an object. -/
def object? : Value → Option ObjectId
  | object id => some id
  | _ => none

def truthy : Value → Bool
  | undefined | null => false
  | boolean b => b
  | number x => x != 0.0 && !x.isNaN
  | string s => !s.isEmpty
  | symbol _ | object _ => true

/-- The number that counts something. -/
def ofNat (n : Nat) : Value :=
  number (Number.ofNat n)

/-- An optional text, absent as `undefined`. -/
def ofText? : Option String → Value
  | some s => string s
  | none => undefined

/-- Equality without conversion. -/
def strictEquals : Value → Value → Bool
  | undefined, undefined => true
  | null, null => true
  | boolean a, boolean b => a == b
  | number a, number b => Number.equal a b
  | string a, string b => a == b
  | symbol a, symbol b => a.same b
  | object a, object b => a = b
  | _, _ => false

/-- Identity: like `strictEquals`, with not-a-number the same as itself and the two zeros different. -/
def sameValue : Value → Value → Bool
  | number a, number b => Number.same a b
  | a, b => a.strictEquals b

/-- Identity up to the sign of zero. -/
def sameValueZero : Value → Value → Bool
  | number a, number b => Number.sameZero a b
  | a, b => a.strictEquals b

end Value

/-- A value that can be written down in a program. -/
inductive Literal where
  | undefined
  | null
  | boolean (b : Bool)
  | number (x : Float)
  | string (s : String)

/-- What a literal stands for. -/
def Literal.value : Literal → Value
  | undefined => .undefined
  | null => .null
  | boolean b => .boolean b
  | number x => .number x
  | string s => .string s

/-! ## 4. Property keys -/

/-- The key of a property. -/
inductive Key where
  | string (name : String)
  | symbol (s : Symbol)

namespace Key

instance : Inhabited Key := ⟨string ""⟩

/-- Whether two keys are the same one. -/
def same : Key → Key → Bool
  | string a, string b => a == b
  | symbol a, symbol b => a.same b
  | _, _ => false

/-- Whether a key is the string `name`. -/
def isName (key : Key) (name : String) : Bool :=
  match key with
  | string s => s == name
  | symbol _ => false

def name? : Key → Option String
  | string s => some s
  | symbol _ => none

def toValue : Key → Value
  | string s => .string s
  | symbol s => .symbol s

/-- A key as it is shown in messages. -/
def text : Key → String
  | string s => s
  | symbol s => s.text

/-- The key of an array element. -/
def index (i : Nat) : Key :=
  string (toString i)

end Key

end GuestScript
