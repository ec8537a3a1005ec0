import GuestScript.Builtin.Basic

/-!
# `Object`

Listing, copying, freezing and defining properties, and what all objects inherit.
-/

namespace GuestScript

namespace Eval

/-! ## 1. Descriptors as objects -/

/-- The value of a field, if the object or a prototype has it. -/
def field? (id : ObjectId) (name : String) : Eval (Option Value) := do
  if ← hasProperty id (.string name) then return some (← getNamed (.object id) name)
  else pure none

/-- A field that holds a function or `undefined`. -/
def accessorField? (id : ObjectId) (name : String) : Eval (Option Value) := do
  match ← field? id name with
  | none => pure none
  | some f =>
    if f.isUndefined || (← isCallable f) then pure (some f)
    else throwTypeError (name ++ "ter must be a function: " ++ (← display f))

def toDescriptor (v : Value) : Eval Descriptor := do
  match v with
  | .object id =>
    let enumerable ← field? id "enumerable"
    let configurable ← field? id "configurable"
    let value ← field? id "value"
    let writable ← field? id "writable"
    let getter ← accessorField? id "get"
    let setter ← accessorField? id "set"
    let d : Descriptor :=
      { value := value
        writable := writable.map Value.truthy
        getter := getter
        setter := setter
        enumerable := enumerable.map Value.truthy
        configurable := configurable.map Value.truthy }
    if d.isAccessor && d.isData then
      throwTypeError
        "Invalid property descriptor. Cannot both specify accessors and a value or writable attribute"
    else pure d
  | _ => throwTypeError ("Property description must be an object: " ++ (← display v))

/-- The object that spells a property. -/
def ofProperty (p : Property) : Eval Value := do
  let content :=
    match p.content with
    | .accessor getter setter => [("get", getter), ("set", setter)]
    | .data value writable => [("value", value), ("writable", .boolean writable)]
  let fields := content ++
    [("enumerable", .boolean p.enumerable), ("configurable", .boolean p.configurable)]
  let id ← newPlain
  modifyObject id fun o => fields.foldl (fun o entry => o.insertValue entry.1 entry.2) o
  pure (.object id)

/-- Define all properties that an object describes; the descriptors are read first. -/
def defineAll (target : ObjectId) (props : Value) : Eval Unit := do
  let source ← toObject props
  let keys ← read fun m => (m.objectAt source).enumerableKeys
  let descriptors ← keys.mapM fun key => do
    let d ← toDescriptor (← get (.object source) key)
    pure (key, d)
  descriptors.forM fun entry => defineOrThrow target entry.1 entry.2

/-! ## 2. Listing -/

/-- The enumerable own entries with string keys, read through getters. -/
def ownEntries (v : Value) : Eval (List (String × Value)) := do
  let id ← toObject v
  let names ← read fun m => (m.objectAt id).enumerableNames
  names.mapM fun name => return (name, ← getNamed (.object id) name)

/-- Assign the enumerable own properties of a source to an object. -/
def assignFrom (target : ObjectId) (source : Value) : Eval Unit := do
  if source.isNullish then pure ()
  else
    let id ← toObject source
    let keys ← read fun m => (m.objectAt id).enumerableKeys
    keys.forM fun key => do
      let v ← get (.object id) key
      put (.object target) key v

def prototypeArgument (v : Value) : Eval (Option ObjectId) := do
  match v with
  | .object id => pure (some id)
  | .null => pure none
  | _ => throwTypeError ("Object prototype may only be an Object or null: " ++ (← display v))

/-- The object that entries make. -/
def ofEntries (entries : Array Value) : Eval Value := do
  let id ← newPlain
  entries.toList.forM fun entry => do
    if entry.isObject then
      let key ← toKey (← getNamed entry "0")
      let value ← getNamed entry "1"
      discard <| defineOwn id key (.ordinary value)
    else throwTypeError ("Iterator value " ++ (← display entry) ++ " is not an entry object")
  pure (.object id)

/-- Change the prototype of an object; it must not inherit from the object itself. -/
def setPrototype (id : ObjectId) (prototype : Option ObjectId) : Eval Unit := do
  checkMutable id
  if ← update (.link id prototype) then pure () else throwTypeError "Cyclic __proto__ value"

def builtinTag (o : Object) : String :=
  if o.callable.isSome then "Function"
  else
    match o.sort with
    | .array | .function | .error | .boolean | .number | .string | .date | .regex | .arguments =>
      o.sort.name
    | _ => "Object"

def taggedText (v : Value) : Eval String := do
  match v with
  | .undefined => pure "[object Undefined]"
  | .null => pure "[object Null]"
  | _ =>
    let id ← toObject v
    match ← get (.object id) (.symbol (.wellKnown .toStringTag)) with
    | .string tag => pure ("[object " ++ tag ++ "]")
    | _ => return "[object " ++ builtinTag (← object id) ++ "]"

end Eval

/-- Whether an object is frozen: closed, with every element and every named property fixed. -/
def Object.isFrozen (o : Object) : Bool :=
  let elementsFixed := o.frozen || (o.elements.getD #[]).isEmpty
  !o.extensible && elementsFixed && o.properties.all fun entry =>
    entry.1.name?.isNone || (!entry.2.configurable && !entry.2.isWritable)

/-! ## 3. The functions -/

open Eval in
/-- What the functions of `Object` do. -/
def ObjectMethod.run (method : ObjectMethod) (receiver : Value) (args : Array Value) :
    Eval Value := do
  let first := argument args 0
  let second := argument args 1
  match method with
  | .make =>
    if first.isNullish then
      match ← constructing? receiver with
      | some id => pure (.object id)
      | none => return .object (← newPlain)
    else return .object (← toObject first)
  | .keys =>
    let id ← toObject first
    let names ← read fun m => (m.objectAt id).enumerableNames
    newArray (names.map Value.string).toArray
  | .values => newArray ((← ownEntries first).map Prod.snd).toArray
  | .entries =>
    let entries ← ownEntries first
    newArray (← newPairs (entries.map fun entry => (.string entry.1, entry.2)))
  | .assign =>
    let target ← toObject first
    checkMutable target
    (args.toList.drop 1).forM (assignFrom target)
    pure (.object target)
  | .freeze =>
    if let .object id := first then
      checkMutable id
      modifyObject id Object.freeze
    pure first
  | .isFrozen =>
    match first with
    | .object id => return .boolean (← object id).isFrozen
    | _ => pure (.boolean true)
  | .preventExtensions =>
    if let .object id := first then
      checkMutable id
      modifyObject id fun o => { o with extensible := false }
    pure first
  | .isExtensible =>
    match first with
    | .object id => return .boolean (← object id).extensible
    | _ => pure (.boolean false)
  | .create =>
    let id ← newObject (← prototypeArgument first)
    if !second.isUndefined then defineAll id second
    pure (.object id)
  | .getPrototypeOf => prototypeValue (← toObject first)
  | .setPrototypeOf =>
    if first.isNullish then throwTypeError "Object.setPrototypeOf called on null or undefined"
    else
      let prototype ← prototypeArgument second
      if let .object id := first then setPrototype id prototype
      pure first
  | .defineProperty =>
    match first with
    | .object id =>
      let key ← toKey second
      let d ← toDescriptor (argument args 2)
      defineOrThrow id key d
      pure first
    | _ => throwTypeError "Object.defineProperty called on non-object"
  | .defineProperties =>
    match first with
    | .object id =>
      defineAll id second
      pure first
    | _ => throwTypeError "Object.defineProperties called on non-object"
  | .getOwnPropertyNames =>
    let id ← toObject first
    newArray ((← object id).stringKeys.map Value.string).toArray
  | .getOwnPropertySymbols =>
    let id ← toObject first
    newArray ((← object id).symbolKeys.map Value.symbol).toArray
  | .getOwnPropertyDescriptor =>
    let id ← toObject first
    let key ← toKey second
    match (← object id).own? key with
    | some p => ofProperty p
    | none => pure .undefined
  | .fromEntries => ofEntries (← iterate first "Object.fromEntries")
  | .is => pure (.boolean (first.sameValue second))
  | .hasOwnProperty =>
    let key ← toKey first
    let id ← toObject receiver
    return .boolean ((← object id).hasOwn key)
  | .isPrototypeOf =>
    match first with
    | .object child =>
      let id ← toObject receiver
      return .boolean (← read fun m => m.inheritsFrom child id)
    | _ => pure (.boolean false)
  | .propertyIsEnumerable =>
    let key ← toKey first
    let id ← toObject receiver
    return .boolean ((← object id).isEnumerable key)
  | .toString => return .string (← taggedText receiver)
  | .toLocaleString => call (← getNamed receiver "toString") receiver #[]
  | .valueOf => return .object (← toObject receiver)

end GuestScript
