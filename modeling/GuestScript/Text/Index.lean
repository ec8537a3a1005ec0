/-!
# Canonical indices

A property name is an index when it is the decimal text of a natural number below `2 ^ 32 - 1`, with
no leading zero. The split between the elements of an array and its named properties rests on this.
-/

namespace GuestScript.Text

/-- The number written by ASCII digits, if the characters are only such digits. -/
def digits? (cs : List Char) : Option Nat :=
  if cs.all Char.isDigit then some (cs.foldl (fun n c => n * 10 + (c.toNat - '0'.toNat)) 0) else none

def indexBound : Nat := 4294967295

/-- The index that a name spells canonically. -/
def index? (s : String) : Option Nat :=
  if s.utf8ByteSize = 0 || s.utf8ByteSize > 10 then none
  else
    match s.toList with
    | '0' :: _ :: _ => none
    | cs =>
      match digits? cs with
      | some n => if n < indexBound then some n else none
      | none => none

end GuestScript.Text
