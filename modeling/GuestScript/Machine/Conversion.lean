import GuestScript.Machine.Lookup
import GuestScript.Number.Radix
import GuestScript.Text.Blank

/-!
# Conversions

How a value becomes a primitive, a number, a text, a key or an object. An object is turned into a primitive by
its own methods; every other conversion starts from that primitive.

* `toPrimitive`, `toNumber`, `toInteger`, `toText`, `toKey` and `toObject`.
* `get` reads a property with the value itself as the receiver; primitives read from their prototypes.
-/

namespace GuestScript

/-! ## 1. Text to numbers -/

/-- The value of digits to a radix, added up from the front; `none` when a character is no digit. -/
def digitsToNumber? (radix : Nat) (cs : List Char) : Option Float :=
  cs.foldl
    (fun acc c =>
      match acc, Number.digitOf? radix c with
      | some x, some d => some (x * Number.ofNat radix + Number.ofNat d)
      | _, _ => none)
    (some 0.0)

/-- The number of a text with a radix mark in front. -/
def radixLiteral? (cs : List Char) : Option Float :=
  let value (radix : Nat) (digits : List Char) : Option Float :=
    some (if digits.isEmpty then Number.nan else (digitsToNumber? radix digits).getD Number.nan)
  match cs with
  | '0' :: 'x' :: rest | '0' :: 'X' :: rest => value 16 rest
  | '0' :: 'o' :: rest | '0' :: 'O' :: rest => value 8 rest
  | '0' :: 'b' :: rest | '0' :: 'B' :: rest => value 2 rest
  | _ => none

/-- The number that a text spells: blanks around it are left out, nothing is zero, and anything that is no
number is not-a-number. -/
def textToNumber (s : String) : Float :=
  let trimmed := Text.trimBy (fun c => Text.isBlank c || c == Text.byteOrderMark) s
  if trimmed.isEmpty then 0.0
  else
    match radixLiteral? trimmed.toList with
    | some x => x
    | none =>
      if trimmed == "Infinity" || trimmed == "+Infinity" then Number.infinity
      else if trimmed == "-Infinity" then -Number.infinity
      else if trimmed.all fun c =>
          c.isDigit || c == '.' || c == 'e' || c == 'E' || c == '+' || c == '-' then
        (Number.read? trimmed).getD Number.nan
      else Number.nan

/-! ## 2. Conversions -/

/-- The kind of primitive that is asked for. -/
inductive Hint where
  | default
  | number
  | string
  deriving DecidableEq

/-- The name of a hint. -/
def Hint.text : Hint → String
  | default => "default"
  | number => "number"
  | string => "string"

namespace Eval

/-- The prototype that a primitive reads its properties from. -/
def prototypeOf? : Value → Option ObjectId
  | .boolean _ => some Intrinsic.booleanPrototype.id
  | .number _ => some Intrinsic.numberPrototype.id
  | .string _ => some Intrinsic.stringPrototype.id
  | .symbol _ => some Intrinsic.symbolPrototype.id
  | _ => none

def readProperty (receiver : Value) : Option Property → Eval Value
  | none => pure .undefined
  | some p =>
    match p.content with
    | .data value _ => pure value
    | .accessor (.object id) _ => call (.object id) receiver #[]
    | .accessor _ _ => pure .undefined

def get (target : Value) (key : Key) : Eval Value := do
  match target with
  | .object id => readProperty target (← lookup? id key)
  | .undefined | .null =>
    throwTypeError ("Cannot read properties of " ++ (← display target) ++ " (reading '" ++ key.text ++ "')")
  | .string s =>
    match key.name? with
    | some "length" => pure (.ofNat (Text.size s))
    | name =>
      match name.bind Text.index? with
      | some i => pure (if i < Text.size s then .string (Text.slice s i (i + 1)) else .undefined)
      | none => readProperty target (← lookup? Intrinsic.stringPrototype.id key)
  | _ =>
    match prototypeOf? target with
    | some id => readProperty target (← lookup? id key)
    | none => pure .undefined

/-- Read a property by name. -/
def getNamed (target : Value) (name : String) : Eval Value :=
  get target (.string name)

/-- The fault of an object without a primitive form. -/
def noPrimitive {α : Type} : Eval α :=
  throwTypeError "Cannot convert object to primitive value"

/-- Try the method with a name; a result that is no object is the primitive form. -/
def primitiveBy? (v : Value) (name : String) : Eval (Option Value) := do
  let method ← getNamed v name
  if ← isCallable method then
    let result ← call method v #[]
    pure (if result.isObject then none else some result)
  else pure none

def toPrimitive (v : Value) (hint : Hint) : Eval Value := do
  match v with
  | .object id =>
    let convert ← get v (.symbol (.wellKnown .toPrimitive))
    if !convert.isNullish then
      let result ← call convert v #[.string hint.text]
      if result.isObject then noPrimitive else pure result
    else
      let isDate := (← object id).sort = .date
      let textFirst := hint = .string || (hint = .default && isDate)
      let (first, second) := if textFirst then ("toString", "valueOf") else ("valueOf", "toString")
      match ← primitiveBy? v first with
      | some p => pure p
      | none =>
        match ← primitiveBy? v second with
        | some p => pure p
        | none => noPrimitive
  | _ => pure v

def primitiveToNumber : Value → Eval Float
  | .undefined => pure Number.nan
  | .null => pure 0.0
  | .boolean b => pure (if b then 1.0 else 0.0)
  | .number x => pure x
  | .string s => pure (textToNumber s)
  | .symbol _ => throwTypeError "Cannot convert a Symbol value to a number"
  | .object _ => pure Number.nan

def toNumber (v : Value) : Eval Float := do
  match v with
  | .number x => pure x
  | .object _ => primitiveToNumber (← toPrimitive v .number)
  | _ => primitiveToNumber v

/-- The number of a value, cut to an integer. -/
def toInteger (v : Value) : Eval Float :=
  return Number.toInteger (← toNumber v)

def primitiveToText : Value → Eval String
  | .undefined => pure "undefined"
  | .null => pure "null"
  | .boolean b => pure (if b then "true" else "false")
  | .number x => pure (Number.text x)
  | .string s => pure s
  | .symbol _ => throwTypeError "Cannot convert a Symbol value to a string"
  | .object _ => pure ""

def toText (v : Value) : Eval String := do
  match v with
  | .string s => pure s
  | .object _ => primitiveToText (← toPrimitive v .string)
  | _ => primitiveToText v

def primitiveToKey (v : Value) : Eval Key :=
  match v with
  | .symbol s => pure (.symbol s)
  | _ => return .string (← primitiveToText v)

def toKey (v : Value) : Eval Key := do
  match v with
  | .string s => pure (.string s)
  | .object _ => primitiveToKey (← toPrimitive v .string)
  | _ => primitiveToKey v

/-- The sort of the object that wraps a primitive. -/
def wrapperSort : Value → ObjectClass
  | .boolean _ => .boolean
  | .number _ => .number
  | .string _ => .string
  | .symbol _ => .symbol
  | _ => .object

/-- The object of a value; primitives are wrapped. -/
def toObject (v : Value) : Eval ObjectId := do
  match v with
  | .object id => pure id
  | .undefined | .null => throwTypeError ("Cannot convert " ++ (← display v) ++ " to object")
  | _ => allocate { prototype := prototypeOf? v, sort := wrapperSort v, primitive := some v }

def typeName (v : Value) : Eval String :=
  match v with
  | .undefined => pure "undefined"
  | .null => pure "object"
  | .boolean _ => pure "boolean"
  | .number _ => pure "number"
  | .string _ => pure "string"
  | .symbol _ => pure "symbol"
  | .object _ => return if ← isCallable v then "function" else "object"

end Eval

end GuestScript
