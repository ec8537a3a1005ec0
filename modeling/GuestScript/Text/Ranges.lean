
/-!
# Tables and sets of code points

A property of characters is held as an array of ranges of code points in increasing order, and looked up
by halving the part of the array that can still hold the character. Longer tables are written as text, one
*run* of code points a word: `41-5A` for all code points between the two, `100-12E/2` for every other one. A number
of at most two digits stands in the *page* of the number before it: `1D400-19 34-4D` is `1D400-1D419 1D434-1D44D`.

As a set, every array of ranges is kept in its one normal form, in increasing order and with gaps between the
ranges; the other operations come from union and complement.
-/

namespace GuestScript.Text

/-! ## 1. Ranges -/

/-- Ranges of code points, ends included, in increasing order and apart from each other. -/
abbrev Ranges := Array (Nat × Nat)

/-- Search the ranges with index from `low` up to `high`, `high` excluded. -/
def Ranges.searchIn (table : Ranges) (n : Nat) : Nat → Nat → Nat → Bool
  | 0, _, _ => false
  | fuel + 1, low, high =>
    if low < high then
      let middle := (low + high) / 2
      match table[middle]? with
      | none => false
      | some (first, last) =>
        if n < first then Ranges.searchIn table n fuel low middle
        else if last < n then Ranges.searchIn table n fuel (middle + 1) high
        else true
    else false

/-- Whether a code point lies in one of the ranges. -/
def Ranges.contains (table : Ranges) (n : Nat) : Bool :=
  table.searchIn n (table.size + 1) 0 table.size

/-! ## 2. Tables as text -/

def words (text : String) : List (List Char) :=
  (text.toList.foldr
    (fun c acc =>
      if c.isWhitespace then [] :: acc
      else
        match acc with
        | word :: rest => (c :: word) :: rest
        | [] => [[c]])
    [[]]).filter fun word => !word.isEmpty

/-- The value of an upper-case hexadecimal digit. -/
def tableDigit (c : Char) : Nat :=
  if c.isDigit then c.toNat - '0'.toNat else c.toNat - 'A'.toNat + 10

/-- A hexadecimal number at the front of a word, and what follows it. -/
def readHex (word : List Char) : Nat × List Char :=
  let isDigit (c : Char) : Bool := c.isDigit || ('A' ≤ c && c ≤ 'F')
  ((word.takeWhile isDigit).foldl (fun n c => 16 * n + tableDigit c) 0, word.dropWhile isDigit)

/-- A code point at the front of a word, in the page of another one when it has at most two digits. -/
def readPoint (before : Nat) (word : List Char) : Nat × List Char :=
  let (n, rest) := readHex word
  (if word.length ≤ rest.length + 2 then before / 0x100 * 0x100 + n else n, rest)

/-- Code points from the first to the last one, `step` apart. -/
structure Run where
  first : Nat
  last : Nat
  step : Nat
  deriving DecidableEq

namespace Run

/-- A run at the front of a word, and what follows it. -/
def read (before : Nat) (word : List Char) : Run × List Char :=
  match readPoint before word with
  | (first, '-' :: rest) =>
    match readPoint first rest with
    | (last, '/' :: rest) =>
      let (step, rest) := readHex rest
      (⟨first, last, step⟩, rest)
    | (last, rest) => (⟨first, last, 1⟩, rest)
  | (first, rest) => (⟨first, first, 1⟩, rest)

/-- The runs of some words, each with what follows it in its word. -/
def readAll : Nat → List (List Char) → List (Run × List Char)
  | _, [] => []
  | before, word :: rest =>
    let run := read before word
    run :: readAll run.1.last rest

/-- Whether a code point belongs to a run. -/
def contains (r : Run) (n : Nat) : Bool :=
  r.first ≤ n && n ≤ r.last && (n - r.first) % r.step == 0

/-- The code points of a run, counted from the first one. -/
def points (r : Run) : List Nat :=
  (List.range ((r.last - r.first) / r.step + 1)).map fun i => r.first + i * r.step

def ranges (r : Run) : List (Nat × Nat) :=
  if r.step = 1 then [(r.first, r.last)] else r.points.map fun n => (n, n)

end Run

/-- Read a table. -/
def Ranges.ofText (text : String) : Ranges :=
  ((Run.readAll 0 (words text)).flatMap fun run => run.1.ranges).toArray

end GuestScript.Text

/-! ## 3. Ranges as sets -/

namespace GuestScript.Text.Ranges

/-- The greatest code point. -/
def maxPoint : Nat := 0x10FFFF

/-- Add a range to the end of a set in normal form; it must not start before the last range of the set. -/
def append (set : Ranges) (range : Nat × Nat) : Ranges :=
  match set.back? with
  | none => set.push range
  | some (first, last) =>
    if range.1 ≤ last + 1 then set.pop.push (first, max last range.2) else set.push range

/-- The set of any ranges. -/
def ofList (ranges : List (Nat × Nat)) : Ranges :=
  (ranges.mergeSort fun a b => a.1 ≤ b.1).foldl append #[]

def full : Ranges := #[(0, maxPoint)]

def single (n : Nat) : Ranges := #[(n, n)]

/-- The code points of either set. -/
def union (a b : Ranges) : Ranges :=
  ofList (a.toList ++ b.toList)

/-- The gaps before, between and after ranges, from a code point on. -/
def gaps : Nat → List (Nat × Nat) → List (Nat × Nat)
  | start, [] => if start ≤ maxPoint then [(start, maxPoint)] else []
  | start, (first, last) :: rest =>
    if start < first then (start, first - 1) :: gaps (last + 1) rest else gaps (last + 1) rest

/-- The code points that are not in a set. -/
def complement (a : Ranges) : Ranges :=
  (gaps 0 a.toList).toArray

/-- The code points of both sets. -/
def inter (a b : Ranges) : Ranges :=
  complement (union (complement a) (complement b))

/-- The code points of the first set that are not in the second one. -/
def diff (a b : Ranges) : Ranges :=
  inter a (complement b)

/-- The code points of just one of two sets. -/
def symmDiff (a b : Ranges) : Ranges :=
  diff (union a b) (inter a b)

end GuestScript.Text.Ranges
