import GuestScript.Builtin.Catalogue
import GuestScript.Code
import GuestScript.Object.Property
import GuestScript.Regex.Match
import GuestScript.Text.Index

/-!
# Objects

An object has a list of properties in the order in which they were made, and slots for what makes arrays,
functions, wrapped primitives, collections and regular expressions special. The elements and the length of
an array, and the units and the length of a wrapped string, are *virtual* properties: they are read from the
slot and stand before all stored ones.

* `own?` reads an own property, `define` and `delete` change one and say whether the object took the change,
  and `ownKeys` lists the keys: indices in ascending order, then names, then symbols.
-/

namespace GuestScript

/-! ## 1. Functions -/

/-- A field that every instance of a class gets. -/
structure ClassField where
  key : Key
  init : Option Code
  isArrow : Bool

/-- A class: its constructor function, its parent, and the fields of its instances. -/
structure ClassFunction where
  name : String
  constructor : Option ObjectId
  arity : Nat
  parent : Option ObjectId
  fields : List ClassField
  scope : ScopeId
  source : Option String

/-- What a function object does when it is called. -/
inductive Callable where
  /-- A function of the script with the scope that it was made in; arrow functions also keep the receiver
  that was current there. -/
  | closure (template : Template) (scope : ScopeId) (receiver : Option Value)
  | builtin (function : Builtin)
  | classFunction (data : ClassFunction)
  /-- A function with its receiver and its first arguments fixed, named after its target. -/
  | bound (target : ObjectId) (receiver : Value) (arguments : Array Value) (targetName : String)
      (targetArity : Nat) (targetIsConstructor : Bool)
  | evalText
  | makeFunction

namespace Callable

def name : Callable → String
  | closure template _ _ => template.name
  | builtin function => function.name
  | classFunction data => data.name
  | bound _ _ _ targetName _ _ => "bound " ++ targetName
  | evalText => "eval"
  | makeFunction => "Function"

/-- How many arguments a function announces. -/
def arity : Callable → Nat
  | closure template _ _ => template.arity
  | builtin function => function.arity
  | classFunction data => data.arity
  | bound _ _ arguments _ targetArity _ => targetArity - arguments.size
  | evalText | makeFunction => 1

/-- Whether a function can be used with `new`. -/
def isConstructor : Callable → Bool
  | closure template _ _ => !template.isArrow
  | builtin function => function.isConstructor
  | classFunction _ => true
  | bound _ _ _ _ _ targetIsConstructor => targetIsConstructor
  | evalText => false
  | makeFunction => true

/-- The text of a function. -/
def sourceText (c : Callable) : String :=
  let written :=
    match c with
    | closure template _ _ => template.source
    | classFunction data => data.source
    | _ => none
  written.getD ("function " ++ c.name ++ "() \x7b [native code] \x7d")

end Callable

/-! ## 2. Objects -/

/-- The sort of an object, which decides how it is shown and which methods take it. -/
inductive ObjectClass where
  | object
  | array
  | function
  | error
  | boolean
  | number
  | string
  | symbol
  | date
  | regex
  | math
  | arguments
  | collection (kind : CollectionKind)
  deriving DecidableEq

def ObjectClass.name : ObjectClass → String
  | object => "Object"
  | array => "Array"
  | function => "Function"
  | error => "Error"
  | boolean => "Boolean"
  | number => "Number"
  | string => "String"
  | symbol => "Symbol"
  | date => "Date"
  | regex => "RegExp"
  | math => "Math"
  | arguments => "Arguments"
  | collection kind => kind.name

/-- An object. -/
structure Object where
  properties : Array (Key × Property) := #[]
  prototype : Option ObjectId := none
  callable : Option Callable := none
  /-- The elements of an array or of a list of arguments. -/
  elements : Option (Array Value) := none
  sort : ObjectClass := .object
  extensible : Bool := true
  /-- Set when the object is frozen; it makes the elements and the length read-only too. -/
  frozen : Bool := false
  /-- The value of a wrapped primitive, and the time of a date. -/
  primitive : Option Value := none
  /-- The entries of a keyed collection in order; deleted ones leave a gap. -/
  mapEntries : Option (Array (Option (Value × Value))) := none
  /-- The members of a set in order; deleted ones leave a gap. -/
  setEntries : Option (Array (Option Value)) := none
  regex : Option Regex := none

namespace Object

instance : Inhabited Object := ⟨{}⟩

/-- The place of a stored property. -/
def find? (o : Object) (key : Key) : Option Nat :=
  o.properties.findIdx? fun entry => entry.1.same key

def stored? (o : Object) (key : Key) : Option Property :=
  (o.properties.find? fun entry => entry.1.same key).map Prod.snd

def text? (o : Object) : Option String :=
  match o.primitive with
  | some (.string s) => if o.sort = .string then some s else none
  | _ => none

def isArray (o : Object) : Bool :=
  o.sort = .array && o.elements.isSome

def arrayProperty? (elements : Array Value) (frozen : Bool) (name : String) : Option Property :=
  if name == "length" then some (.data (.ofNat elements.size) (!frozen) false false)
  else
    match Text.index? name with
    | some i => elements[i]?.map fun v => .data v (!frozen) true (!frozen)
    | none => none

/-- The virtual property of a wrapped string. -/
def textProperty? (s : String) (name : String) : Option Property :=
  if name == "length" then some (.data (.ofNat (Text.size s)) false false false)
  else
    match Text.index? name with
    | some i =>
      if i < Text.size s then some (.data (.string (Text.slice s i (i + 1))) false true false)
      else none
    | none => none

def virtual? (o : Object) (name : String) : Option Property :=
  let ofArray :=
    match o.elements with
    | some elements => arrayProperty? elements o.frozen name
    | none => none
  match ofArray with
  | some p => some p
  | none =>
    match o.text? with
    | some s => textProperty? s name
    | none => none

/-- An own property. -/
def own? (o : Object) (key : Key) : Option Property :=
  match key with
  | .symbol _ => o.stored? key
  | .string name =>
    match o.virtual? name with
    | some p => some p
    | none => o.stored? key

/-- Whether an object has an own property. -/
def hasOwn (o : Object) (key : Key) : Bool :=
  (o.own? key).isSome

/-- The own value of a data property. -/
def ownValue? (o : Object) (name : String) : Option Value :=
  (o.own? (.string name)).bind Property.value?

/-! ## 3. Changes -/

/-- How far past the end of an array an index may be to count as an element. -/
def elementGap : Nat := 1048576

/-- Set an element, filling up with `undefined` in front of it. -/
def setElement (elements : Array Value) (i : Nat) (value : Value) : Array Value :=
  if i < elements.size then elements.setIfInBounds i value
  else (elements ++ Array.replicate (i - elements.size) Value.undefined).push value

/-- Cut elements off, or fill up with `undefined`. -/
def resize (elements : Array Value) (size : Nat) : Array Value :=
  if size ≤ elements.size then elements.take size
  else elements ++ Array.replicate (size - elements.size) Value.undefined

/-- Store a property, in its old place if it is there. -/
def store (o : Object) (key : Key) (property : Property) : Object :=
  match o.find? key with
  | some i => { o with properties := o.properties.setIfInBounds i (key, property) }
  | none => { o with properties := o.properties.push (key, property) }

/-- Put a property into an object without asking; a value with an index becomes an element of an array. -/
def insert (o : Object) (name : String) (property : Property) : Object :=
  match o.elements, Text.index? name, property.content with
  | some elements, some i, .data value _ =>
    if i < elements.size + elementGap then
      let o := { o with elements := none }
      { o with elements := some (setElement elements i value) }
    else o.store (.string name) property
  | _, _, _ => o.store (.string name) property

/-- Put an ordinary property into an object. -/
def insertValue (o : Object) (name : String) (value : Value) : Object :=
  o.insert name (.ordinary value)

/-- Put a property of the shape of built-in methods into an object. -/
def insertHidden (o : Object) (name : String) (value : Value) : Object :=
  o.insert name (.hidden value)

/-- Define a stored property: overlay it if it is there and takes the change, or add it if the object is
extensible. -/
def defineStored (o : Object) (key : Key) (d : Descriptor) : Object × Bool :=
  match o.find? key with
  | some i =>
    match o.properties[i]? with
    | some (_, current) =>
      if !current.configurable && !current.admits d then (o, false)
      else ({ o with properties := o.properties.setIfInBounds i (key, current.overlay d) }, true)
    | none => (o, false)
  | none =>
    if o.extensible then ({ o with properties := o.properties.push (key, d.complete) }, true)
    else (o, false)

/-- Whether a number can be the length of an array. -/
def isLength (x : Float) : Bool :=
  !(x < 0.0) && Number.isIntegral x && x ≤ 4294967295.0

/-- Define the length of an array; only a number changes it. -/
def defineLength (o : Object) (elements : Array Value) (d : Descriptor) : Object × Bool :=
  match d.value with
  | some (.number x) =>
    if isLength x then
      let o := { o with elements := none }
      ({ o with elements := some (resize elements (Number.toNatural64 x)) }, !d.isAccessor)
    else (o, false)
  | _ => (o, !d.isAccessor)

/-- Define a property with a string key on an object that is no wrapped string's own part. -/
def defineNamed (o : Object) (name : String) (d : Descriptor) : Object × Bool :=
  match o.text? with
  | some s => if (textProperty? s name).isSome then (o, false) else o.defineStored (.string name) d
  | none => o.defineStored (.string name) d

/-- Define an element of an array. An index far past the end makes a stored property instead. -/
def defineElement (o : Object) (elements : Array Value) (name : String) (i : Nat) (d : Descriptor) :
    Object × Bool :=
  if (o.find? (.string name)).isSome then o.defineNamed name d
  else if d.isAccessor then (o, false)
  else if i < elements.size + elementGap then
    if elements.size ≤ i && !o.extensible then (o, false)
    else
      let o := { o with elements := none }
      ({ o with elements := some (setElement elements i (d.value.getD .undefined)) }, true)
  else o.defineNamed name d

/-- Define an own property, and say whether the object took the change. -/
def define (o : Object) (key : Key) (d : Descriptor) : Object × Bool :=
  match key with
  | .symbol _ => o.defineStored key d
  | .string name =>
    match o.elements with
    | none => o.defineNamed name d
    | some elements =>
      if name == "length" then
        if o.frozen then (o, false) else o.defineLength elements d
      else
        match Text.index? name with
        | none => o.defineNamed name d
        | some i => if o.frozen then (o, false) else o.defineElement elements name i d

/-- Take an element out: the last one is cut off, others leave `undefined` behind. -/
def dropElement (elements : Array Value) (i : Nat) : Array Value :=
  if i + 1 = elements.size then elements.pop else elements.setIfInBounds i .undefined

/-- Delete a stored property, if it is configurable. -/
def deleteStored (o : Object) (key : Key) : Object × Bool :=
  match o.find? key with
  | some i =>
    match o.properties[i]? with
    | some (_, current) =>
      if current.configurable then ({ o with properties := o.properties.eraseIdxIfInBounds i }, true)
      else (o, false)
    | none => (o, true)
  | none => (o, true)

/-- Delete a property with a string key that is no element. -/
def deleteNamed (o : Object) (name : String) : Object × Bool :=
  match o.text? with
  | some _ => if o.hasOwn (.string name) then (o, false) else o.deleteStored (.string name)
  | none => o.deleteStored (.string name)

/-- Delete an own property, and say whether it is gone. -/
def delete (o : Object) (key : Key) : Object × Bool :=
  match key with
  | .symbol _ => o.deleteStored key
  | .string name =>
    match o.elements with
    | none => o.deleteNamed name
    | some elements =>
      if name == "length" then (o, false)
      else
        match Text.index? name with
        | none => o.deleteNamed name
        | some i =>
          if o.frozen then (o, false)
          else if i < elements.size then
            let o := { o with elements := none }
            ({ o with elements := some (dropElement elements i) }, true)
          else o.deleteNamed name

/-- Change the elements of an object in place. A frozen object keeps them, and so does one that has none. -/
def changeElements {α : Type} (o : Object) (f : Array Value → Array Value × α) : Object × α :=
  let elements := o.elements.getD #[]
  if o.frozen || o.elements.isNone then (o, (f elements).2)
  else
    let o := { o with elements := none }
    let (elements, a) := f elements
    ({ o with elements := some elements }, a)

/-- Make every property read-only and fixed, and the object itself closed. -/
def freeze (o : Object) : Object :=
  { o with
    extensible := false
    frozen := true
    properties := o.properties.map fun entry => (entry.1, entry.2.freeze) }

/-! ## 4. Keys -/

/-- The stored keys that are indices, in ascending order. -/
def indexKeys (o : Object) : List (Nat × String) :=
  (o.properties.toList.filterMap fun entry =>
    entry.1.name?.bind fun name => (Text.index? name).map fun i => (i, name)).mergeSort
      fun a b => a.1 ≤ b.1

/-- The stored keys that are names and no indices, in the order in which they were made. -/
def nameKeys (o : Object) : List String :=
  o.properties.toList.filterMap fun entry =>
    entry.1.name?.filter fun name => (Text.index? name).isNone

/-- The stored symbols. -/
def symbolKeys (o : Object) : List Symbol :=
  o.properties.toList.filterMap fun entry =>
    match entry.1 with
    | .symbol s => some s
    | .string _ => none

/-- The string keys: indices in ascending order, then the length of an array or a wrapped string, then names
in the order in which they were made. -/
def stringKeys (o : Object) : List String :=
  let elementKeys := (List.range ((o.elements.map Array.size).getD 0)).map toString
  let unitKeys := (List.range ((o.text?.map Text.size).getD 0)).map toString
  let lengthKeys := if o.elements.isSome || o.text?.isSome then ["length"] else []
  elementKeys ++ unitKeys ++ o.indexKeys.map Prod.snd ++ lengthKeys ++ o.nameKeys

/-- The keys of the own properties. -/
def ownKeys (o : Object) : List Key :=
  o.stringKeys.map Key.string ++ o.symbolKeys.map Key.symbol

/-- Whether an own property is enumerable. -/
def isEnumerable (o : Object) (key : Key) : Bool :=
  match o.own? key with
  | some p => p.enumerable
  | none => false

/-- The string keys of the enumerable own properties. -/
def enumerableNames (o : Object) : List String :=
  o.stringKeys.filter fun name => o.isEnumerable (.string name)

/-- The string keys, and for each of them whether the property is enumerable. -/
def listedNames (o : Object) : List (String × Bool) :=
  o.stringKeys.map fun name => (name, o.isEnumerable (.string name))

/-- The keys of the enumerable own properties. -/
def enumerableKeys (o : Object) : List Key :=
  o.ownKeys.filter o.isEnumerable

/-- An object as it is shown in messages. -/
def summary (o : Object) : String :=
  match o.callable with
  | some c => "[Function: " ++ c.name ++ "]"
  | none =>
    match o.elements with
    | some elements =>
      if o.sort = .array then "[Array(" ++ toString elements.size ++ ")]"
      else "[object " ++ o.sort.name ++ "]"
    | none => "[object " ++ o.sort.name ++ "]"

end Object

end GuestScript
