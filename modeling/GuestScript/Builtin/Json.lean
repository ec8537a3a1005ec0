import GuestScript.Builtin.Basic
import GuestScript.Json.Reader
import GuestScript.Json.Writer

/-!
# `JSON`

Values made from JSON text, and the JSON text of values. A value asks its `toJSON` method first, then the
replacer; what has no JSON form is left out of objects and `null` in arrays.
-/

namespace GuestScript

namespace Eval

/-! ## 1. Documents as values -/

mutual

def ofJson : Json → Eval Value
  | .null => pure .null
  | .bool b => pure (.boolean b)
  | .number n => pure (.number n.toFloat)
  | .string s => pure (.string s)
  | .array items => do newArray (← ofJsonItems items #[])
  | .object members => do
    let id ← newPlain
    ofJsonMembers id members
    pure (.object id)

def ofJsonItems : List Json → Array Value → Eval (Array Value)
  | [], acc => pure acc
  | item :: rest, acc => do
    let v ← ofJson item
    ofJsonItems rest (acc.push v)

/-- Give an object the members of a document. -/
def ofJsonMembers (id : ObjectId) : List (String × Json) → Eval Unit
  | [] => pure ()
  | (name, value) :: rest => do
    let v ← ofJson value
    discard <| defineOwn id (.string name) (.ordinary v)
    ofJsonMembers id rest

end

/-! ## 2. Revivers -/

/-- Visit a property and all below it, the innermost first, and let a function replace each value; one that is
`undefined` deletes the property. -/
def revive (reviver : Value) : Nat → Value → String → Eval Value
  | 0, _, _ => stop .exhausted
  | fuel + 1, holder, name => do
    let v ← getNamed holder name
    if let .object id := v then
      let names ← read fun m => (m.objectAt id).enumerableNames
      names.forM fun k => do
        let revived ← revive reviver fuel v k
        if revived.isUndefined then discard <| updateObject id fun o => o.delete (.string k)
        else discard <| defineOwn id (.string k) (.ordinary revived)
    call reviver holder #[.string name, v]

/-- The value of a JSON text, revived if there is a function for it. -/
def parseJson (text : String) (reviver : Value) : Eval Value := do
  match Json.parse text with
  | .error e => throwFault .syntaxError ("JSON.parse: " ++ e.text)
  | .ok document =>
    let v ← ofJson document
    if ← isCallable reviver then
      let root ← newPlain
      modifyObject root fun o => o.insertValue "" v
      revive reviver nestingLimit (.object root) ""
    else pure v

/-! ## 3. Values as text -/

/-- How values are written. -/
structure JsonStyle where
  replacer : Option Value := none
  /-- The only names that are written, if there is a choice. -/
  allowed : Option (List String) := none
  /-- What each level is indented by; nothing for a single line. -/
  gap : String := ""

namespace JsonStyle

/-- Parts between brackets, on one line or on a line each. -/
def wrap (style : JsonStyle) (opening closing : String) (parts : List String) (outer : String) :
    String :=
  if parts.isEmpty then opening ++ closing
  else if style.gap.isEmpty then opening ++ ",".intercalate parts ++ closing
  else
    let line := "\n" ++ outer ++ style.gap
    opening ++ line ++ ("," ++ line).intercalate parts ++ "\n" ++ outer ++ closing

end JsonStyle

/-- What the `toJSON` of an object gives, if it has one. -/
def jsonConverted (name : String) (v : Value) : Eval Value := do
  if v.isObject then
    let convert ← getNamed v "toJSON"
    if ← isCallable convert then call convert v #[.string name] else pure v
  else pure v

/-- What the replacer gives, if there is one. -/
def jsonReplaced (style : JsonStyle) (holder : Value) (name : String) (v : Value) : Eval Value :=
  match style.replacer with
  | some replacer => call replacer holder #[.string name, v]
  | none => pure v

/-- The primitive that a wrapper is written as. -/
def jsonUnwrapped (v : Value) : Eval Value := do
  match v with
  | .object id =>
    let o ← object id
    if o.sort = .number || o.sort = .string || o.sort = .boolean then
      match o.primitive with
      | some (.number _) => return .number (← toNumber v)
      | some (.string _) => return .string (← toText v)
      | some p => pure p
      | none => pure v
    else pure v
  | _ => pure v

/-- The value that is written for a property: what `toJSON` and the replacer make of it. -/
def jsonForm (style : JsonStyle) (holder : Value) (name : String) (value : Value) : Eval Value := do
  jsonUnwrapped (← jsonReplaced style holder name (← jsonConverted name value))

/-- Write the elements of an array, from an index on. -/
def jsonElements (write : String → Value → Eval (Option String)) :
    List Value → Nat → List String → Eval (List String)
  | [], _, acc => pure acc.reverse
  | v :: rest, i, acc => do
    let part ← write (toString i) v
    jsonElements write rest (i + 1) (part.getD "null" :: acc)

/-- Write the properties of an object with the given names. -/
def jsonProperties (write : String → Value → Eval (Option String)) (target : Value)
    (separator : String) : List String → List String → Eval (List String)
  | [], acc => pure acc.reverse
  | name :: rest, acc => do
    let v ← getNamed target name
    match ← write name v with
    | some text => jsonProperties write target separator rest ((Json.quote name ++ separator ++ text) :: acc)
    | none => jsonProperties write target separator rest acc

/-- Write a property; `none` when its value has no JSON form. -/
def jsonProperty (style : JsonStyle) :
    Nat → List ObjectId → String → Value → String → Value → Eval (Option String)
  | 0, _, _, _, _, _ => stop .exhausted
  | fuel + 1, around, indent, holder, name, value => do
    charge
    let v ← jsonForm style holder name value
    match v with
    | .null => pure (some "null")
    | .boolean b => pure (some (if b then "true" else "false"))
    | .string s => pure (some (Json.quote s))
    | .number x => pure (some (if x.isFinite then Number.text x else "null"))
    | .undefined | .symbol _ => pure none
    | .object id =>
      let o ← object id
      if o.callable.isSome then pure none
      else if around.contains id then throwTypeError "Converting circular structure to JSON"
      else
        let write := jsonProperty style fuel (id :: around) (indent ++ style.gap) v
        if o.isArray then
          let parts ← jsonElements write (← listOf v).toList 0 []
          pure (some (style.wrap "[" "]" parts indent))
        else
          let names := style.allowed.getD o.enumerableNames
          let separator := if style.gap.isEmpty then ":" else ": "
          let parts ← jsonProperties write v separator names []
          pure (some (style.wrap "\x7b" "\x7d" parts indent))

/-- The names that an array of names allows, each once. -/
def allowedNames : List Value → List String → Eval (List String)
  | [], acc => pure acc
  | v :: rest, acc => do
    let name ←
      match v with
      | .string s => pure (some s)
      | .number x => pure (some (Number.text x))
      | _ => pure none
    match name with
    | some s => allowedNames rest (if acc.contains s then acc else acc ++ [s])
    | none => allowedNames rest acc

/-- What each level is indented by. -/
def gapOf : Value → String
  | .number x =>
    let n := Number.toInteger x
    let n := if n < 0.0 then 0.0 else if n > 10.0 then 10.0 else n
    String.ofList (List.replicate (Number.toNatural64 n) ' ')
  | .string s => String.ofList (s.toList.take 10)
  | _ => ""

/-- The replacer and the names that an argument stands for. -/
def styleOf (replacer : Value) : Eval JsonStyle := do
  match replacer with
  | .object id =>
    let o ← object id
    if o.callable.isSome then pure { replacer := some replacer }
    else if o.isArray then
      pure { allowed := some (← allowedNames (← listOf replacer).toList []) }
    else pure {}
  | _ => pure {}

/-- The space argument, without its wrapper. -/
def spaceOf (space : Value) : Eval Value := do
  match space with
  | .object id => pure ((← object id).primitive.getD .undefined)
  | v => pure v

/-- The JSON text of a value; `none` when it has none. -/
def jsonText (value replacer space : Value) : Eval (Option String) := do
  let style ← styleOf replacer
  let space ← spaceOf space
  let root ← newPlain
  modifyObject root fun o => o.insertValue "" value
  jsonProperty { style with gap := gapOf space } nestingLimit [] "" (.object root) "" value

end Eval

open Eval in
/-- What the functions of `JSON` do. -/
def JsonMethod.run (method : JsonMethod) (args : Array Value) : Eval Value := do
  match method with
  | .parse => parseJson (← toText (argument args 0)) (argument args 1)
  | .stringify =>
    return Value.ofText? (← jsonText (argument args 0) (argument args 1) (argument args 2))

end GuestScript
