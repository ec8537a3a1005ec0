import GuestScript.Machine.Conversion

/-!
# Writing, deleting and listing

All writes of scripts go through `put`, `defineOrThrow` and `deleteProperty`. Each of them first asks
`checkMutable`, which refuses protected objects; that is what keeps the built-in objects as they are.
-/

namespace GuestScript.Eval

/-! ## 1. Writes -/

/-- Refuse a protected object. -/
def checkMutable (id : ObjectId) : Eval Unit := do
  match ← read fun m => m.realm.label? id with
  | some name => raise .builtInPrototypeChange name (← read State.lastPosition)
  | none => pure ()

/-- Define an own property without asking for permission, and say whether the object took the change. -/
def defineOwn (id : ObjectId) (key : Key) (d : Descriptor) : Eval Bool :=
  updateObject id fun o => o.define key d

/-- Assign a property of a value. Assignments that an object refuses are passed over. -/
def put (target : Value) (key : Key) (value : Value) : Eval Unit := do
  match target with
  | .object id =>
    checkMutable id
    if key.isName "__proto__" then pure ()
    else
      match ← lookup? id key with
      | none => addOwn id
      | some p =>
        match p.content with
        | .accessor _ (.object setter) => discard <| call (.object setter) target #[value]
        | .accessor _ _ => pure ()
        | .data _ false => pure ()
        | .data _ true =>
          if (← object id).hasOwn key then discard <| defineOwn id key { value := some value }
          else addOwn id
  | .undefined | .null =>
    throwTypeError ("Cannot set properties of " ++ (← display target) ++ " (setting '" ++ key.text ++ "')")
  | _ => pure ()
where
  /-- Add the property to the object itself, if it is extensible. -/
  addOwn (id : ObjectId) : Eval Unit := do
    if (← object id).extensible then discard <| defineOwn id key (.ordinary value)

/-- Assign a property by name. -/
def putNamed (target : Value) (name : String) (value : Value) : Eval Unit :=
  put target (.string name) value

/-- Define a property, and throw when the object refuses. -/
def defineOrThrow (id : ObjectId) (key : Key) (d : Descriptor) : Eval Unit := do
  checkMutable id
  if key.isName "__proto__" then pure ()
  else if ← defineOwn id key d then pure ()
  else throwTypeError ("Cannot redefine property: " ++ key.text)

/-- Delete a property of a value, and say whether it is gone. -/
def deleteProperty (target : Value) (key : Key) : Eval Bool := do
  match target with
  | .object id =>
    checkMutable id
    updateObject id fun o => o.delete key
  | .undefined | .null => throwTypeError ("Cannot convert " ++ (← display target) ++ " to object")
  | _ => pure true

/-! ## 2. Reads of scripts -/

def prototypeValue (id : ObjectId) : Eval Value := do
  match (← object id).prototype with
  | some p => pure (.object p)
  | none => pure .null

/-- Read a member: the prototypes of protected objects are out of reach. -/
def getMember (target : Value) (key : Key) (position : Option Position) : Eval Value := do
  let asksPrototype := key.isName "__proto__"
  if asksPrototype || key.isName "prototype" then
    match target with
    | .object id =>
      match ← read fun m => m.realm.label? id with
      | some name => raise .builtInPrototypeChange name position
      | none => pure ()
    | _ => pure ()
  if asksPrototype then
    match target with
    | .undefined | .null => get target key
    | _ => prototypeValue (← toObject target)
  else hideGlobal (← get target key)

/-! ## 3. Lists of values -/

def characters (s : String) : Array Value :=
  (s.toList.map fun c => Value.string (String.ofList [c])).toArray

/-- Arrays of two, one for each entry. -/
def newPairs (entries : List (Value × Value)) : Eval (Array Value) :=
  entries.foldlM (fun acc entry => return acc.push (← newArray #[entry.1, entry.2])) #[]

/-- The entries of a keyed collection that are there. -/
def presentEntries (entries : Array (Option (Value × Value))) : List (Value × Value) :=
  entries.toList.filterMap id

/-- The members of a set that are there. -/
def presentMembers (members : Array (Option Value)) : List Value :=
  members.toList.filterMap id

/-- The values that spreading a value gives; the label is for the message when there are none. -/
def iterate (v : Value) (label : String) : Eval (Array Value) := do
  match v with
  | .string s => pure (characters s)
  | .object id =>
    let o ← object id
    match o.elements with
    | some elements => pure elements
    | none =>
      match o.sort, o.mapEntries, o.setEntries, o.primitive with
      | .collection .map, some entries, _, _ => newPairs (presentEntries entries)
      | .collection .set, _, some members, _ => pure (presentMembers members).toArray
      | _, _, _, some (.string s) => pure (characters s)
      | _, _, _, _ => raise .notIterable label (← read State.lastPosition)
  | _ => raise .notIterable label (← read State.lastPosition)

/-- Read `count` elements by their index, a step each. -/
def readElements (target : Value) : Nat → Nat → Array Value → Eval (Array Value)
  | 0, _, acc => pure acc
  | count + 1, i, acc => do
    charge
    let v ← get target (.index i)
    readElements target count (i + 1) (acc.push v)

/-- The elements of an array, or of an object with a length. -/
def listOf (v : Value) : Eval (Array Value) := do
  match v with
  | .object id =>
    match (← object id).elements with
    | some elements => pure elements
    | none =>
      let length ← toInteger (← getNamed v "length")
      let count := if length ≥ 4294967295.0 then 4294967295 else Number.toNatural64 length
      readElements v count 0 #[]
  | .string s => pure (characters s)
  | _ => pure #[]

/-- Copy the enumerable own properties of a value onto an object. -/
def copyProperties (target : ObjectId) (source : Value) : Eval Unit := do
  if source.isNullish then pure ()
  else
    let id ← toObject source
    let keys ← read fun m => (m.objectAt id).enumerableKeys
    keys.forM fun key => do
      let v ← get (.object id) key
      discard <| defineOwn target key (.ordinary v)

end GuestScript.Eval
