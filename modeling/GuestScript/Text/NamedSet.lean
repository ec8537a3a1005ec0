import GuestScript.Text.Ranges

/-!
# Sets of characters with names

The character standard names many sets of characters and builds some of them from others. A *named set* says
how: the sets that are joined, those that are taken out again, and the single characters that are added and
removed at last. In a list of named sets each one is built from sets that come after it.

* `looseName` is the form in which names are compared: case, blanks, hyphens and underscores do not count,
  and neither does `is` in front.
* `NamedSet.resolve` is the set of a name in a list.
-/

namespace GuestScript.Text

/-! ## 1. Names -/

/-- The form in which names are compared. -/
def looseName (name : String) : String :=
  let squeeze (cs : List Char) : String :=
    String.ofList ((cs.filter fun c =>
      c.toNat < 0x80 && c != ' ' && c != '_' && c != '-').map Char.toLower)
  match name.toList with
  | a :: b :: rest =>
    if a.toLower = 'i' && b.toLower = 's' then
      let short := squeeze rest
      if short == "c" then "isc" else short
    else squeeze (a :: b :: rest)
  | cs => squeeze cs

def isNamed (name : String) (names : List String) : Bool :=
  names.any fun n => looseName n == name

/-! ## 2. Sets -/

/-- A set of characters by its names: the characters of `parts` that are not in `without`, and those of the
table `extra`, but none of the table `missing`. -/
structure NamedSet where
  names : List String
  parts : List String := []
  without : List String := []
  extra : String := ""
  missing : String := ""

namespace NamedSet

/-- The characters of some sets. -/
def join (sets : List Ranges) : Ranges :=
  Ranges.ofList (sets.flatMap Array.toList)

/-- Build a set from the sets that `part` knows. -/
def build (d : NamedSet) (part : String → Option Ranges) : Ranges :=
  let parts := join (d.parts.filterMap part)
  let kept := if d.without.isEmpty then parts else parts.diff (join (d.without.filterMap part))
  let all := if d.extra.isEmpty then kept else kept.union (Ranges.ofText d.extra)
  if d.missing.isEmpty then all else all.diff (Ranges.ofText d.missing)

/-- The first set of a list with suitable names, built from the sets after it. -/
def resolve : List NamedSet → (List String → Bool) → Option Ranges
  | [], _ => none
  | d :: rest, suits =>
    if suits d.names then some (d.build fun p => resolve rest fun names => names.contains p)
    else resolve rest suits

/-- The set of a loose name among `values`, built from the sets of `base`. -/
def resolveIn (base values : List NamedSet) (name : String) : Option Ranges :=
  (values.find? fun d => isNamed name d.names).map fun d =>
    d.build fun p => resolve base fun names => names.contains p

end NamedSet

end GuestScript.Text
