/-!
# Blank characters

Two sets of blanks are in use. The property `White_Space` of the character standard decides for numbers and
dates; the set of the script language leaves out U+0085, takes in the byte order mark, and decides for trimming.
-/

namespace GuestScript.Text

/-- The byte order mark. -/
def byteOrderMark : Char := Char.ofNat 0xFEFF

/-- Whether a character has the property `White_Space`. -/
def isBlank (c : Char) : Bool :=
  let n := c.toNat
  (9 ≤ n && n ≤ 13) || n == 0x20 || n == 0x85 || n == 0xA0 || n == 0x1680
    || (0x2000 ≤ n && n ≤ 0x200A) || n == 0x2028 || n == 0x2029 || n == 0x202F || n == 0x205F
    || n == 0x3000

/-- Whether a character is a blank of the script language. -/
def isScriptBlank (c : Char) : Bool :=
  (isBlank c && c.toNat != 0x85) || c == byteOrderMark

/-- A list without the items at its front that satisfy a condition. -/
def dropFront (p : Char → Bool) (cs : List Char) : List Char :=
  cs.dropWhile p

/-- A list without the items at its end that satisfy a condition. -/
def dropBack (p : Char → Bool) (cs : List Char) : List Char :=
  (cs.reverse.dropWhile p).reverse

/-- A text without the characters at its front that satisfy a condition. -/
def trimStartBy (p : Char → Bool) (s : String) : String :=
  String.ofList (dropFront p s.toList)

/-- A text without the characters at its end that satisfy a condition. -/
def trimEndBy (p : Char → Bool) (s : String) : String :=
  String.ofList (dropBack p s.toList)

/-- A text without the characters at both ends that satisfy a condition. -/
def trimBy (p : Char → Bool) (s : String) : String :=
  String.ofList (dropBack p (dropFront p s.toList))

end GuestScript.Text
