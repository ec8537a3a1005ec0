/-!
# JSON documents

A JSON value keeps what its text shows: members of an object stand in the order in which they were
first written, and a number is either an integer of 64 bits or a double.
-/

namespace GuestScript

/-- A JSON number: an integer that fits 64 bits, or any other value as a double. -/
inductive Json.Numeral where
  /-- A natural number below `2 ^ 64`. -/
  | natural (n : Nat)
  /-- The negative integer `- n`, with `0 < n ≤ 2 ^ 63`. -/
  | negative (n : Nat)
  | real (x : Float)

/-- A JSON value. -/
inductive Json where
  | null
  | bool (b : Bool)
  | number (n : Json.Numeral)
  | string (s : String)
  | array (items : List Json)
  | object (members : List (String × Json))

namespace Json

instance : Inhabited Json := ⟨null⟩

/-- The double that a number stands for. -/
def Numeral.toFloat : Numeral → Float
  | natural n => n.toUInt64.toFloat
  | negative n => -n.toUInt64.toFloat
  | real x => x

/-- Add a member: a name that is already there keeps its place and takes the new value. -/
def insertMember (name : String) (value : Json) : List (String × Json) → List (String × Json)
  | [] => [(name, value)]
  | (n, v) :: rest =>
    if n = name then (n, value) :: rest else (n, v) :: insertMember name value rest

def member? (name : String) : Json → Option Json
  | object members => members.lookup name
  | _ => none

/-- The text of a string value. -/
def string? : Json → Option String
  | string s => some s
  | _ => none

/-- The value of a number without sign and fraction. -/
def natural? : Json → Option Nat
  | number (.natural n) => some n
  | _ => none

/-- The truth value of a boolean. -/
def bool? : Json → Option Bool
  | bool b => some b
  | _ => none

def items? : Json → Option (List Json)
  | array items => some items
  | _ => none

end Json

end GuestScript
