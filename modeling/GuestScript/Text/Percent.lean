import GuestScript.Number.Radix
import GuestScript.Text.Units

/-!
# Percent escapes

Two ways to write any text with few characters. A *link* is written byte by byte in UTF-8, `%XX` for every
byte of a character outside a kept set; reading it back refuses what is not UTF-8. The older form is written
unit by unit, `%XX` or `%uXXXX`, and reading it leaves alone what is no escape.
-/

namespace GuestScript.Text

/-- A number in hexadecimal with upper-case digits, in at least `width` places. -/
def upperHex (n width : Nat) : List Char :=
  let digits := (Nat.toDigits 16 n).map Char.toUpper
  List.replicate (width - digits.length) '0' ++ digits

/-- Whether a character is an ASCII letter or digit. -/
def isAsciiAlphanumeric (c : Char) : Bool :=
  c.isAlpha || c.isDigit

/-! ## 1. Links -/

def linkSeparators : List Char := ";/?:@&=+$,#".toList

/-- Whether a character stands for itself in every part of a link. -/
def isLinkPlain (c : Char) : Bool :=
  isAsciiAlphanumeric c || "-_.!~*'()".toList.contains c

def escapeBytes (c : Char) : List Char :=
  (String.ofList [c]).toUTF8.toList.flatMap fun b => '%' :: upperHex b.toNat 2

/-- Write a link, or a part of one when no separators are kept. -/
def encodeLink (kept : List Char) (s : String) : String :=
  String.ofList <| s.toList.flatMap fun c =>
    if isLinkPlain c || kept.contains c then [c] else escapeBytes c

/-- The number of two hexadecimal digits; a plus sign may stand for the first one. -/
def hexPair? (a b : Char) : Option Nat :=
  match Number.digitOf? 16 b with
  | none => none
  | some low =>
    if a = '+' then some low else (Number.digitOf? 16 a).map fun high => 16 * high + low

/-- The byte of an escape at the front of a text, and what follows it. -/
def readByte? : List Char → Option (Nat × List Char)
  | '%' :: a :: b :: rest => (hexPair? a b).map fun n => (n, rest)
  | _ => none

/-- How many bytes a character takes whose first byte is not ASCII. -/
def sequenceWidth? (first : Nat) : Option Nat :=
  if first < 0xC0 then none
  else if first < 0xE0 then some 2
  else if first < 0xF0 then some 3
  else if first < 0xF8 then some 4
  else none

/-- The bytes of a number of escapes, and what follows them. -/
def readBytes? : Nat → List Char → Option (List Nat × List Char)
  | 0, cs => some ([], cs)
  | count + 1, cs => do
    let (n, rest) ← readByte? cs
    let (ns, rest) ← readBytes? count rest
    pure (n :: ns, rest)

def ofBytes? (bytes : List Nat) : Option (List Char) :=
  (String.fromUTF8? (ByteArray.mk (bytes.map Nat.toUInt8).toArray)).map String.toList

/-- Read one character or one escaped character; the escapes of kept characters stay as they are. -/
def readLinkChar? (kept : List Char) : List Char → Option (List Char × List Char)
  | [] => none
  | c :: rest =>
    if c = '%' then do
      let (first, after) ← readByte? (c :: rest)
      if first < 0x80 then
        if kept.contains (Char.ofNat first) then pure (c :: rest.take 2, after)
        else pure ([Char.ofNat first], after)
      else do
        let width ← sequenceWidth? first
        let (more, after) ← readBytes? (width - 1) after
        pure (← ofBytes? (first :: more), after)
    else some ([c], rest)

/-- Read a link of at most `fuel` characters. -/
def decodeLinkFrom? (kept : List Char) : Nat → List Char → List Char → Option (List Char)
  | 0, _, acc => some acc.reverse
  | _, [], acc => some acc.reverse
  | fuel + 1, cs, acc => do
    let (out, rest) ← readLinkChar? kept cs
    decodeLinkFrom? kept fuel rest (out.reverse ++ acc)

/-- Read a link; the escapes of kept characters stay as they are. -/
def decodeLink? (kept : List Char) (s : String) : Option String :=
  (decodeLinkFrom? kept s.length s.toList []).map String.ofList

/-! ## 2. Escapes of units -/

/-- Whether a character stands for itself in the older form. -/
def isUnitPlain (c : Char) : Bool :=
  isAsciiAlphanumeric c || "@*_+-./".toList.contains c

def escapeUnit (u : UInt16) : List Char :=
  let n := u.toNat
  if n < 0x80 && isUnitPlain (Char.ofNat n) then [Char.ofNat n]
  else if n < 0x100 then '%' :: upperHex n 2
  else '%' :: 'u' :: upperHex n 4

/-- Write a text in the older form. -/
def escapeUnits (s : String) : String :=
  String.ofList ((units s).toList.flatMap escapeUnit)

/-- The number of some hexadecimal digits. -/
def unitsHex? (us : List UInt16) : Option UInt16 :=
  (us.foldl
    (fun acc u =>
      match acc, Number.digitOf? 16 (unitChar u) with
      | some n, some d => some (16 * n + d)
      | _, _ => none)
    (some 0)).map Nat.toUInt16

/-- An escape at the front of a list of units, and how many units after the percent sign it takes. -/
def readUnitEscape? (us : List UInt16) : Option (UInt16 × Nat) :=
  let long :=
    match us with
    | u :: a :: b :: c :: d :: _ => if u == 0x75 then unitsHex? [a, b, c, d] else none
    | _ => none
  match long with
  | some n => some (n, 5)
  | none =>
    match us with
    | a :: b :: _ => (unitsHex? [a, b]).map fun n => (n, 2)
    | _ => none

/-- Read units in the older form, at most `fuel` of them. -/
def unescapeFrom : Nat → List UInt16 → List UInt16
  | 0, us => us
  | _, [] => []
  | fuel + 1, u :: rest =>
    let escaped := if u == 0x25 then readUnitEscape? rest else none
    match escaped with
    | some (n, taken) => n :: unescapeFrom fuel (rest.drop taken)
    | none => u :: unescapeFrom fuel rest

/-- Read a text in the older form. -/
def unescapeUnits (s : String) : String :=
  let us := units s
  ofUnits (unescapeFrom us.size us.toList)

end GuestScript.Text
