/-!
# Text in sixteen-bit units

Scripts count and cut text in the sixteen-bit units of UTF-16, while text itself is held as Unicode
characters. A cut through a surrogate pair leaves a lone surrogate, which is read back as the
replacement character.

* `units` and `ofUnits` go between text and units; `ofUnits (units s) = s`.
* `size`, `slice`, `indexOf?` and `lastIndexOf?` work in units. Text whose characters all take one
  byte is cut directly, since its bytes, its characters and its units are the same positions.
-/

namespace GuestScript.Text

/-! ## 1. Units of characters -/

/-- The units of one character: itself, or a surrogate pair above the basic plane. -/
def charUnits (c : Char) : List UInt16 :=
  if c.toNat < 0x10000 then [c.toNat.toUInt16]
  else
    let v := c.toNat - 0x10000
    [(0xD800 + v / 0x400).toUInt16, (0xDC00 + v % 0x400).toUInt16]

/-- How many units a character takes. -/
def charSize (c : Char) : Nat :=
  if c.toNat < 0x10000 then 1 else 2

/-- The units of a text. -/
def units (s : String) : Array UInt16 :=
  s.foldl (fun acc c => (charUnits c).foldl Array.push acc) #[]

/-- Whether a unit is the first half of a surrogate pair. -/
def isHigh (u : UInt16) : Bool := 0xD800 ≤ u && u < 0xDC00

/-- Whether a unit is the second half of a surrogate pair. -/
def isLow (u : UInt16) : Bool := 0xDC00 ≤ u && u < 0xE000

/-- The character that stands for a lone surrogate. -/
def replacement : Char := Char.ofNat 0xFFFD

/-- The character of a surrogate pair. -/
def pairChar (high low : UInt16) : Char :=
  Char.ofNat (0x10000 + (high.toNat - 0xD800) * 0x400 + (low.toNat - 0xDC00))

/-- The character of a unit outside a pair. -/
def unitChar (u : UInt16) : Char :=
  if isHigh u || isLow u then replacement else Char.ofNat u.toNat

/-- The characters that a list of units spells. -/
def decode : List UInt16 → List Char
  | [] => []
  | [u] => [unitChar u]
  | u :: v :: rest =>
    if isHigh u && isLow v then pairChar u v :: decode rest else unitChar u :: decode (v :: rest)

/-- The text that a list of units spells. -/
def ofUnits (us : List UInt16) : String :=
  String.ofList (decode us)

/-! ## 2. Length and cuts -/

/-- Whether every character takes one byte. -/
def isAscii (s : String) : Bool :=
  s.length == s.utf8ByteSize

/-- The length of a text in units. -/
def size (s : String) : Nat :=
  if isAscii s then s.utf8ByteSize else s.foldl (fun n c => n + charSize c) 0

/-- The part of an array of units between two positions, as text. -/
def sliceUnits (us : Array UInt16) (start stop : Nat) : String :=
  ofUnits (us.extract start stop).toList

/-- The part of a text between two positions, counted in units; positions past the end count as the
end, and crossed positions give the empty text. -/
def slice (s : String) (start stop : Nat) : String :=
  if isAscii s then String.Pos.Raw.extract s ⟨min start s.utf8ByteSize⟩ ⟨min stop s.utf8ByteSize⟩
  else sliceUnits (units s) start stop

/-- The unit at a position. -/
def unitAt? (s : String) (i : Nat) : Option UInt16 :=
  if isAscii s then
    if i < s.utf8ByteSize then some (String.Pos.Raw.get s ⟨i⟩).toNat.toUInt16 else none
  else (units s)[i]?

/-! ## 3. Search -/

/-- Whether the units from a position on begin with a needle. -/
def matchesAt (us needle : Array UInt16) (i : Nat) : Bool :=
  (us.extract i (i + needle.size)) == needle

/-- The first position, among `count` ones from `i` on, where a needle stands. -/
def searchUp (us needle : Array UInt16) : Nat → Nat → Option Nat
  | 0, _ => none
  | count + 1, i => if matchesAt us needle i then some i else searchUp us needle count (i + 1)

/-- The last position up to `i` where a needle stands. -/
def searchDown (us needle : Array UInt16) : Nat → Option Nat
  | 0 => if matchesAt us needle 0 then some 0 else none
  | i + 1 => if matchesAt us needle (i + 1) then some (i + 1) else searchDown us needle i

/-- The first position from `start` on where a needle stands. The empty needle stands everywhere up to
the end. -/
def indexOfUnits? (us needle : Array UInt16) (start : Nat) : Option Nat :=
  if needle.isEmpty then (if start ≤ us.size then some start else none)
  else if us.size < start + needle.size then none
  else searchUp us needle (us.size - needle.size - start + 1) start

/-- The first position from `start` on where a text holds another one. -/
def indexOf? (s needle : String) (start : Nat) : Option Nat :=
  indexOfUnits? (units s) (units needle) start

/-- The last position up to `start` where a text holds another one. -/
def lastIndexOf? (s needle : String) (start : Nat) : Option Nat :=
  let us := units s
  let n := units needle
  if n.isEmpty then some (min start us.size)
  else if us.size < n.size then none
  else searchDown us n (min start (us.size - n.size))

/-! ## 4. Order -/

/-- Order of unit lists, position by position. -/
def unitsBefore : List UInt16 → List UInt16 → Bool
  | _, [] => false
  | [], _ :: _ => true
  | a :: as, b :: bs => a < b || (a == b && unitsBefore as bs)

/-- Whether a text comes before another one in the order of their units. For text of one-byte
characters this is the order of characters. -/
def before (a b : String) : Bool :=
  if isAscii a && isAscii b then a < b else unitsBefore (units a).toList (units b).toList

end GuestScript.Text
