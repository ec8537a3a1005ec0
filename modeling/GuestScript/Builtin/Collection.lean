import GuestScript.Builtin.Basic

/-!
# The keyed collections

`Map`, `Set` and their weak forms. Entries stay in the order in which they were made, and a deleted entry
leaves a gap, so that a walk over the entries can go on by place: it sees what is added while it runs and
never meets an entry twice.
-/

namespace GuestScript

/-! ## 1. Entries -/

namespace Collection

/-- The form in which a key is kept: there is one zero. -/
def normalKey (key : Value) : Value :=
  match key with
  | .number x => if x == 0.0 then .number 0.0 else key
  | _ => key

/-- The place of a key. -/
def findKey? (entries : Array (Option (Value × Value))) (key : Value) : Option Nat :=
  entries.findIdx? fun entry => entry.any fun e => e.1.sameValueZero key

/-- The place of a member. -/
def findMember? (members : Array (Option Value)) (member : Value) : Option Nat :=
  members.findIdx? fun entry => entry.any fun v => v.sameValueZero member

/-- Set the value of a key, in its old place if it has one. -/
def insertEntry (entries : Array (Option (Value × Value))) (key value : Value) :
    Array (Option (Value × Value)) :=
  let key := normalKey key
  match findKey? entries key with
  | some i => entries.setIfInBounds i (some (key, value))
  | none => entries.push (some (key, value))

/-- Add a member, unless it is there. -/
def insertMember (members : Array (Option Value)) (member : Value) : Array (Option Value) :=
  let member := normalKey member
  match findMember? members member with
  | some _ => members
  | none => members.push (some member)

/-- The entries of members; a member counts as its own value. -/
def memberSlots (members : Array (Option Value)) : Array (Option (Value × Value)) :=
  members.map fun m => m.map fun v => (v, v)

/-- All places of an object's entries. An object that is both keyed and a set has its keyed entries. -/
def slots (o : Object) : Array (Option (Value × Value)) :=
  match o.mapEntries, o.setEntries with
  | some entries, _ => entries
  | none, some members => memberSlots members
  | none, none => #[]

/-- The places that a walk over an object's entries goes through. In an object that is both keyed and a set it goes on
with the members at later places. -/
def walkedSlots (o : Object) : Array (Option (Value × Value)) :=
  match o.mapEntries, o.setEntries with
  | some entries, some members => entries ++ memberSlots (members.extract entries.size members.size)
  | _, _ => slots o

def entries (o : Object) : List (Value × Value) :=
  (slots o).toList.filterMap id

def has (o : Object) (key : Value) : Bool :=
  (findKey? (slots o) key).isSome

def value? (o : Object) (key : Value) : Option Value :=
  (findKey? (slots o) key).bind fun i => ((slots o)[i]?.join).map Prod.snd

/-- Take a key out, and say whether it was there. -/
def erase (o : Object) (key : Value) : Object × Bool :=
  match findKey? (slots o) key with
  | none => (o, false)
  | some i =>
    match o.mapEntries with
    | some es => ({ o with mapEntries := some (es.setIfInBounds i none) }, true)
    | none => ({ o with setEntries := o.setEntries.map fun ms => ms.setIfInBounds i none }, true)

/-- Take all entries out. -/
def clear (o : Object) : Object :=
  { o with mapEntries := o.mapEntries.map fun _ => #[], setEntries := o.setEntries.map fun _ => #[] }

/-- The first entry from a place on, and the place after it. -/
def nextEntry? (o : Object) (start : Nat) : Option ((Value × Value) × Nat) :=
  let es := walkedSlots o
  ((es.extract start es.size).findIdx? Option.isSome).bind fun i =>
    (es[start + i]?.join).map fun e => (e, start + i + 1)

end Collection

/-! ## 2. Actions -/

namespace Eval

def receiverCollection (receiver : Value) (kind : CollectionKind) (method : String) :
    Eval ObjectId := do
  let refuse : Eval ObjectId := do
    throwTypeError ("Method " ++ kind.name ++ ".prototype." ++ method
      ++ " called on incompatible receiver " ++ (← display receiver))
  match receiver with
  | .object id =>
    let o ← object id
    let hasEntries := if kind.isKeyed then o.mapEntries.isSome else o.setEntries.isSome
    if o.sort = .collection kind && hasEntries then pure id else refuse
  | _ => refuse

/-- Refuse a key that a weak collection does not take. -/
def checkWeakKey (kind : CollectionKind) (key : Value) : Eval Unit := do
  if kind.isWeak && !key.isObject then
    throwTypeError ("Invalid value used as "
      ++ (if kind.isKeyed then "weak map key" else "value in weak set"))

def insertEntry (id : ObjectId) (key value : Value) : Eval Unit :=
  modifyObject id fun o =>
    match o.mapEntries with
    | some es =>
      let o := { o with mapEntries := none }
      { o with mapEntries := some (Collection.insertEntry es key value) }
    | none => o

/-- Add a member. -/
def insertMember (id : ObjectId) (member : Value) : Eval Unit :=
  modifyObject id fun o =>
    match o.setEntries with
    | some ms =>
      let o := { o with setEntries := none }
      { o with setEntries := some (Collection.insertMember ms member) }
    | none => o

/-- Put an item of a constructor's argument into a new collection. -/
def insertItem (kind : CollectionKind) (id : ObjectId) (item : Value) : Eval Unit := do
  charge
  if kind.isKeyed then
    if !item.isObject then
      throwTypeError ("Iterator value " ++ (← display item) ++ " is not an entry object")
    let key ← getNamed item "0"
    let value ← getNamed item "1"
    checkWeakKey kind key
    insertEntry id key value
  else
    checkWeakKey kind item
    insertMember id item

/-- Set up a new collection with the items of an argument. -/
def makeCollection (kind : CollectionKind) (receiver : Value) (args : Array Value) :
    Eval Value := do
  match ← constructing? receiver with
  | none => throwTypeError ("Constructor " ++ kind.name ++ " requires 'new'")
  | some id =>
    modifyObject id fun o =>
      if kind.isKeyed then { o with sort := .collection kind, mapEntries := some #[] }
      else { o with sort := .collection kind, setEntries := some #[] }
    let source := argument args 0
    if !source.isNullish then
      (← iterate source kind.name).toList.forM (insertItem kind id)
    pure (.object id)

/-- Call a function for each entry, from the first place on. -/
def forEachEntry (f receiver : Value) (id : ObjectId) (this : Value) : Eval Unit :=
  loop
    (fun start => do
      match Collection.nextEntry? (← object id) start with
      | none => pure (.leave ())
      | some ((key, value), next) =>
        discard <| callback f receiver #[value, key, this]
        pure (.proceed next))
    0

end Eval

/-! ## 3. The functions -/

open Eval in
/-- What the functions of a collection do. -/
def CollectionMethod.run (kind : CollectionKind) (method : CollectionMethod) (receiver : Value)
    (args : Array Value) : Eval Value := do
  let name := if method = .size then "size" else method.signature.1
  let id ← receiverCollection receiver kind name
  let first := argument args 0
  match method with
  | .has => return .boolean (Collection.has (← object id) first)
  | .delete => return .boolean (← updateObject id fun o => Collection.erase o first)
  | .get => return (Collection.value? (← object id) first).getD .undefined
  | .set =>
    checkWeakKey kind first
    insertEntry id first (argument args 1)
    pure receiver
  | .add =>
    checkWeakKey kind first
    insertMember id first
    pure receiver
  | .clear =>
    modifyObject id Collection.clear
    pure .undefined
  | .forEach =>
    requireCallable first "forEach"
    forEachEntry first (argument args 1) id receiver
    pure .undefined
  | .keys => newArray ((Collection.entries (← object id)).map Prod.fst).toArray
  | .values => newArray ((Collection.entries (← object id)).map Prod.snd).toArray
  | .entries => newArray (← newPairs (Collection.entries (← object id)))
  | .size => return .ofNat (Collection.entries (← object id)).length

end GuestScript
