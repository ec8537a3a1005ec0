import GuestScript.Object.Basic
import Std.Data.HashMap

/-!
# Property stores

How an object keeps its properties in memory: in a map from names to properties, in a list of the names in the order in
which they were made, and in a list of the symbols with their properties. The map has no order and the list of names has
no properties, so operations that make or delete a name have to change both.

`Object` has one list of properties in their place. It shows what the stores hold after every sequence of operations
(`Stores.operate_inStep`).
-/

namespace GuestScript

/-- An object with its properties in stores. -/
structure Stores where
  /-- What is no stored property. The list of properties of this object is not used. -/
  slots : Object
  map : Std.HashMap String Property := ∅
  order : List String := []
  symbols : List (Symbol × Property) := []

namespace Stores

open Object (textProperty? elementGap setElement dropElement)

def symbol? (o : Stores) (s : Symbol) : Option Property :=
  (o.symbols.find? fun entry => entry.1.same s).map Prod.snd

/-- An own property. -/
def own? (o : Stores) : Key → Option Property
  | .symbol s => o.symbol? s
  | .string name =>
    match o.slots.virtual? name with
    | some p => some p
    | none => o.map[name]?

/-- Whether an object has an own property. -/
def hasOwn (o : Stores) (key : Key) : Bool :=
  (o.own? key).isSome

def withElements (o : Stores) (elements : Array Value) : Stores :=
  { o with slots := { o.slots with elements := some elements } }

/-! ## 1. Symbols -/

/-- Put a property of a symbol in, in its old place if it is there. -/
def insertSymbol (o : Stores) (s : Symbol) (p : Property) : Stores :=
  match o.symbols.findIdx? fun entry => entry.1.same s with
  | some i => { o with symbols := o.symbols.set i (s, p) }
  | none => { o with symbols := o.symbols ++ [(s, p)] }

def defineSymbol (o : Stores) (s : Symbol) (d : Descriptor) : Stores × Bool :=
  match o.symbol? s with
  | some current =>
    if !current.configurable && !current.admits d then (o, false) else (o.insertSymbol s (current.overlay d), true)
  | none => if o.slots.extensible then (o.insertSymbol s d.complete, true) else (o, false)

def deleteSymbol (o : Stores) (s : Symbol) : Stores × Bool :=
  match o.symbol? s with
  | some current =>
    if current.configurable then ({ o with symbols := o.symbols.eraseP fun entry => entry.1.same s }, true)
    else (o, false)
  | none => (o, true)

/-! ## 2. Names -/

/-- Put a property into the map; a new name comes last. -/
def insertNamed (o : Stores) (name : String) (p : Property) : Stores :=
  let order := if o.map.contains name then o.order else o.order ++ [name]
  { o with order := order, map := o.map.insert name p }

/-- Define a property of the map: overlay it if it is there and takes the change, or add it if the object is
extensible. -/
def defineEntry (o : Stores) (name : String) (d : Descriptor) : Stores × Bool :=
  match o.map[name]? with
  | some current =>
    if !current.configurable && !current.admits d then (o, false)
    else ({ o with map := o.map.insert name (current.overlay d) }, true)
  | none =>
    if o.slots.extensible then ({ o with order := o.order ++ [name], map := o.map.insert name d.complete }, true)
    else (o, false)

def defineNamed (o : Stores) (name : String) (d : Descriptor) : Stores × Bool :=
  if (o.slots.text?.bind fun s => textProperty? s name).isSome then (o, false) else o.defineEntry name d

/-- Delete a property of the map, if it is configurable. -/
def deleteEntry (o : Stores) (name : String) : Stores × Bool :=
  match o.map[name]? with
  | some current =>
    if current.configurable then
      ({ o with map := o.map.erase name, order := o.order.filter fun n => n != name }, true)
    else (o, false)
  | none => (o, true)

def deleteNamed (o : Stores) (name : String) : Stores × Bool :=
  if o.slots.text?.isSome && o.hasOwn (.string name) then (o, false) else o.deleteEntry name

/-! ## 3. Operations -/

/-- Put a property into an object without asking; a value with an index becomes an element of an array. -/
def insert (o : Stores) (name : String) (p : Property) : Stores :=
  match o.slots.elements, Text.index? name, p.content with
  | some elements, some i, .data value _ =>
    if i < elements.size + elementGap then o.withElements (setElement elements i value) else o.insertNamed name p
  | _, _, _ => o.insertNamed name p

/-- Define an own property, and say whether the object took the change. -/
def define (o : Stores) (key : Key) (d : Descriptor) : Stores × Bool :=
  match key with
  | .symbol s => o.defineSymbol s d
  | .string name =>
    match o.slots.elements with
    | none => o.defineNamed name d
    | some elements =>
      if name == "length" then
        if o.slots.frozen then (o, false)
        else
          let (slots, taken) := o.slots.defineLength elements d
          ({ o with slots := slots }, taken)
      else
        match Text.index? name with
        | none => o.defineNamed name d
        | some i =>
          if o.slots.frozen then (o, false)
          else if o.map.contains name then o.defineNamed name d
          else if d.isAccessor then (o, false)
          else if i < elements.size + elementGap then
            if elements.size ≤ i && !o.slots.extensible then (o, false)
            else (o.withElements (setElement elements i (d.value.getD .undefined)), true)
          else o.defineNamed name d

/-- Delete an own property, and say whether it is gone. -/
def delete (o : Stores) (key : Key) : Stores × Bool :=
  match key with
  | .symbol s => o.deleteSymbol s
  | .string name =>
    match o.slots.elements with
    | none => o.deleteNamed name
    | some elements =>
      if name == "length" then (o, false)
      else
        match Text.index? name with
        | none => o.deleteNamed name
        | some i =>
          if o.slots.frozen then (o, false)
          else if i < elements.size then (o.withElements (dropElement elements i), true)
          else o.deleteNamed name

/-- The keys of the own properties: indices in ascending order, then names in their order, then symbols. -/
def ownKeys (o : Stores) : List Key :=
  let elementKeys := (List.range ((o.slots.elements.map Array.size).getD 0)).map toString
  let unitKeys := (List.range ((o.slots.text?.map Text.size).getD 0)).map toString
  let indices := (o.order.filterMap fun name => (Text.index? name).map fun i => (i, name)).mergeSort
    fun a b => a.1 ≤ b.1
  let lengthKeys := if o.slots.elements.isSome || o.slots.text?.isSome then ["length"] else []
  let names := o.order.filter fun name => (Text.index? name).isNone
  (elementKeys ++ unitKeys ++ indices.map Prod.snd ++ lengthKeys ++ names).map Key.string ++
    o.symbols.map fun entry => Key.symbol entry.1

end Stores

end GuestScript
