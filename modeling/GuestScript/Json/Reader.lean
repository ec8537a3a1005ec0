import GuestScript.Json.Basic

/-!
# Reading JSON text

The reader takes a whole text or names the first fault with its place: a line, counted from one, and a
column, counted in bytes. A fault that is seen before its character is taken is placed just after that
character, so a line break ahead moves the place to the next line.

A number is read through its first digits, as many as fit 64 bits, and one multiplication or division by
a power of ten per 308 places; the result is not always the nearest double.

* `Json.read depth text` reads a text whose values nest at most `depth` deep.
* `Json.parse` is the reader with the usual limit.
-/

namespace GuestScript.Json

/-! ## 1. Faults and places -/

/-- What can be wrong with a JSON text. -/
inductive Fault where
  | endInList
  | endInObject
  | endInString
  | endInValue
  | expectedColon
  | expectedCommaOrBracket
  | expectedCommaOrBrace
  | expectedWord
  | expectedValue
  | invalidEscape
  | invalidNumber
  | numberOutOfRange
  | controlCharacter
  | keyNotString
  | loneSurrogate
  | trailingComma
  | trailingCharacters
  | endOfEscape
  | tooDeep
  deriving DecidableEq

def Fault.wording : Fault → String
  | endInList => "EOF while parsing a list"
  | endInObject => "EOF while parsing an object"
  | endInString => "EOF while parsing a string"
  | endInValue => "EOF while parsing a value"
  | expectedColon => "expected `:`"
  | expectedCommaOrBracket => "expected `,` or `]`"
  | expectedCommaOrBrace => "expected `,` or `\x7d`"
  | expectedWord => "expected ident"
  | expectedValue => "expected value"
  | invalidEscape => "invalid escape"
  | invalidNumber => "invalid number"
  | numberOutOfRange => "number out of range"
  | controlCharacter => "control character (\\u0000-\\u001F) found while parsing a string"
  | keyNotString => "key must be a string"
  | loneSurrogate => "lone leading surrogate in hex escape"
  | trailingComma => "trailing comma"
  | trailingCharacters => "trailing characters"
  | endOfEscape => "unexpected end of hex escape"
  | tooDeep => "recursion limit exceeded"

/-- A fault and its place. -/
structure ReadError where
  fault : Fault
  line : Nat
  column : Nat
  deriving DecidableEq

def ReadError.text (e : ReadError) : String :=
  e.fault.wording ++ " at line " ++ toString e.line ++ " column " ++ toString e.column

/-- The text that is left, and the place reached: the line and the bytes taken of it. -/
structure Cursor where
  rest : List Char
  line : Nat
  column : Nat

/-- How many bytes a character takes in UTF-8. -/
def byteSize (c : Char) : Nat :=
  if c.toNat < 0x80 then 1 else if c.toNat < 0x800 then 2 else if c.toNat < 0x10000 then 3 else 4

/-- A reader of part of a text. -/
abbrev Read (α : Type) := Cursor → Except ReadError (α × Cursor)

namespace Cursor

/-- The cursor after one character. -/
def next (k : Cursor) : Cursor :=
  match k.rest with
  | [] => k
  | '\n' :: r => { rest := r, line := k.line + 1, column := 0 }
  | c :: r => { rest := r, line := k.line, column := k.column + byteSize c }

/-- The cursor after a number of bytes, the last character perhaps taken in part only. -/
def nextBytes : Nat → Cursor → Cursor
  | 0, k => k
  | n + 1, k =>
    match k.rest with
    | [] => k
    | '\n' :: r => nextBytes n { rest := r, line := k.line + 1, column := 0 }
    | c :: r =>
      let size := byteSize c
      if size ≤ n + 1 then
        nextBytes (n + 1 - size) { rest := r, line := k.line, column := k.column + size }
      else { k with column := k.column + (n + 1) }
termination_by n => n
decreasing_by
  · omega
  · have : 0 < byteSize c := by unfold byteSize; split <;> (try split) <;> (try split) <;> omega
    omega

/-- How many bytes are left. -/
def bytesLeft (k : Cursor) : Nat :=
  k.rest.foldl (fun n c => n + byteSize c) 0

/-- A fault at the place reached. -/
def here (k : Cursor) (f : Fault) : ReadError :=
  { fault := f, line := k.line, column := k.column }

/-- A fault at the first byte that is not yet taken. -/
def ahead (k : Cursor) (f : Fault) : ReadError :=
  (k.nextBytes 1).here f

def skipBlanks (k : Cursor) : Cursor :=
  go k.rest k.line k.column
where
  /-- Skip blanks from a place on. -/
  go : List Char → Nat → Nat → Cursor
    | ' ' :: r, l, c => go r l (c + 1)
    | '\t' :: r, l, c => go r l (c + 1)
    | '\r' :: r, l, c => go r l (c + 1)
    | '\n' :: r, l, _ => go r (l + 1) 0
    | r, l, c => { rest := r, line := l, column := c }

end Cursor

/-! ## 2. Words -/

/-- Take the rest of a word. -/
def readWord (value : Json) : List Char → Read Json
  | [], k => .ok (value, k)
  | w :: ws, k =>
    match k.rest with
    | [] => .error (k.here .endInValue)
    | c :: _ => if c = w then readWord value ws k.next else .error (k.ahead .expectedWord)

/-! ## 3. Numbers -/

/-- `10 ^ n` as a double, for `n ≤ 308`. -/
def powerOfTen (n : Nat) : Float :=
  Float.ofScientific 1 false n

/-- Scale a significand: one division by `10 ^ 308` at a time while the exponent is beyond the table of
powers, then one step for what is left. -/
def scale : Nat → Float → Int → Option Float
  | 0, _, _ => none
  | fuel + 1, f, e =>
    if e.natAbs ≤ 308 then
      if e ≥ 0 then
        let r := f * powerOfTen e.natAbs
        if r.isInf then none else some r
      else some (f / powerOfTen e.natAbs)
    else if f == 0.0 then some f
    else if e ≥ 0 then none
    else scale fuel (f / powerOfTen 308) (e + 308)

/-- The double of a sign, a significand and a decimal exponent. -/
def assemble (positive : Bool) (significand : Nat) (exponent : Int) (k : Cursor) :
    Except ReadError (Numeral × Cursor) :=
  match scale 64 significand.toUInt64.toFloat exponent with
  | some f => .ok (.real (if positive then f else -f), k)
  | none => .error (k.here .numberOutOfRange)

/-- The largest 64-bit significand. -/
def maxSignificand : Nat := 18446744073709551615

/-- Keep an exponent within 32 bits. -/
def clampExponent (e : Int) : Int :=
  max (-2147483648) (min 2147483647 e)

def skipDigits (k : Cursor) : Cursor :=
  let (ds, r) := k.rest.span Char.isDigit
  { k with rest := r, column := k.column + ds.length }

/-- The digits of an exponent after its first one; `none` when it no longer fits 32 bits. -/
def exponentDigits : List Char → Nat → Nat → Nat → Option Nat × List Char × Nat
  | [], _, e, taken => (some e, [], taken)
  | c :: r, limit, e, taken =>
    if c.isDigit then
      let e' := e * 10 + (c.toNat - 48)
      if e' > limit then (none, r, taken + 1) else exponentDigits r limit e' (taken + 1)
    else (some e, c :: r, taken)

/-- The sign of an exponent, which may be left out. -/
def exponentSign (k : Cursor) : Bool × Cursor :=
  match k.rest with
  | '+' :: _ => (true, k.next)
  | '-' :: _ => (false, k.next)
  | _ => (true, k)

/-- An exponent, from its mark on. -/
def readExponent (positive : Bool) (significand : Nat) (start : Int) (mark : Cursor) :
    Except ReadError (Numeral × Cursor) :=
  let (positiveExp, k) := exponentSign mark.next
  match k.rest with
  | [] => .error (k.here .endInValue)
  | c :: r =>
    if c.isDigit then
      let (e?, r', taken) := exponentDigits r 2147483647 (c.toNat - 48) 1
      let k' : Cursor := { k with rest := r', column := k.column + taken }
      match e? with
      | some e =>
        assemble positive significand (clampExponent (if positiveExp then start + e else start - e)) k'
      | none =>
        if significand ≠ 0 ∧ positiveExp then .error (k'.here .numberOutOfRange)
        else .ok (.real (if positive then 0.0 else -0.0), skipDigits k')
    else .error (k.ahead .invalidNumber)

/-- What may follow the digits of a number that is already known to be a double. -/
def readTail (positive : Bool) (significand : Nat) (exponent : Int) (k : Cursor) :
    Except ReadError (Numeral × Cursor) :=
  match k.rest with
  | 'e' :: _ => readExponent positive significand exponent k
  | 'E' :: _ => readExponent positive significand exponent k
  | _ => assemble positive significand exponent k

/-- Digits taken into a significand as long as it fits 64 bits: the significand, how many digits were
taken, and what is left. -/
def significandDigits : List Char → Nat → Nat → Nat × Nat × List Char
  | [], s, n => (s, n, [])
  | c :: r, s, n =>
    if c.isDigit then
      let s' := s * 10 + (c.toNat - 48)
      if s' > maxSignificand then (s, n, c :: r) else significandDigits r s' (n + 1)
    else (s, n, c :: r)

/-- A fraction, from its point on. -/
def readFraction (positive : Bool) (significand : Nat) (exponent : Int) (point : Cursor) :
    Except ReadError (Numeral × Cursor) :=
  let k := point.next
  let (s, n, r) := significandDigits k.rest significand 0
  let k : Cursor := { k with rest := r, column := k.column + n }
  let overflows := r.head?.any Char.isDigit
  if overflows then readTail positive s (exponent - n) (skipDigits k)
  else if n = 0 then .error (k.ahead (if r.isEmpty then .endInValue else .invalidNumber))
  else readTail positive s (exponent - n) k

/-- What follows the digits of an integer. -/
def readAfterInteger (positive : Bool) (significand : Nat) (k : Cursor) :
    Except ReadError (Numeral × Cursor) :=
  match k.rest with
  | '.' :: _ => readFraction positive significand 0 k
  | 'e' :: _ => readExponent positive significand 0 k
  | 'E' :: _ => readExponent positive significand 0 k
  | _ =>
    if positive then .ok (.natural significand, k)
    else if significand = 0 ∨ significand > 9223372036854775808 then
      .ok (.real (-significand.toUInt64.toFloat), k)
    else .ok (.negative significand, k)

/-- An integer beyond 64 bits: its further digits only count as places. -/
def readLongInteger (positive : Bool) (significand : Nat) (k : Cursor) :
    Except ReadError (Numeral × Cursor) :=
  let k' := skipDigits k
  let places : Int := (k'.column : Int) - k.column
  match k'.rest with
  | '.' :: _ => readFraction positive significand places k'
  | _ => readTail positive significand places k'

/-- A number without its sign. -/
def readNumber (positive : Bool) (k : Cursor) : Except ReadError (Numeral × Cursor) :=
  match k.rest with
  | [] => .error (k.here .endInValue)
  | '0' :: r =>
    if r.head?.any Char.isDigit then .error (k.next.ahead .invalidNumber)
    else readAfterInteger positive 0 k.next
  | c :: r =>
    if c.isDigit then
      let (s, n, r') := significandDigits (c :: r) 0 0
      let k' : Cursor := { k with rest := r', column := k.column + n }
      if r'.head?.any Char.isDigit then readLongInteger positive s k'
      else readAfterInteger positive s k'
    else .error (k.ahead .invalidNumber)

/-! ## 4. Strings -/

/-- The value of a hexadecimal digit. -/
def hexDigit? (c : Char) : Option Nat :=
  if '0' ≤ c ∧ c ≤ '9' then some (c.toNat - 48)
  else if 'a' ≤ c ∧ c ≤ 'f' then some (c.toNat - 87)
  else if 'A' ≤ c ∧ c ≤ 'F' then some (c.toNat - 55)
  else none

/-- Four hexadecimal digits. -/
def hexEscape (k : Cursor) : Except ReadError (Nat × Cursor) :=
  if k.bytesLeft < 4 then .error ((k.nextBytes 4).here .endInString)
  else
    match k.rest with
    | a :: b :: c :: d :: _ =>
      match hexDigit? a, hexDigit? b, hexDigit? c, hexDigit? d with
      | some a, some b, some c, some d =>
        .ok (((a * 16 + b) * 16 + c) * 16 + d, k.nextBytes 4)
      | _, _, _, _ => .error ((k.nextBytes 4).here .invalidEscape)
    | _ => .error ((k.nextBytes 4).here .invalidEscape)

/-- Take one expected character inside an escape. -/
def escapeMark (expected : Char) (k : Cursor) : Except ReadError Cursor :=
  match k.rest with
  | [] => .error (k.here .endInString)
  | c :: _ => if c = expected then .ok k.next else .error (k.ahead .endOfEscape)

/-- An escape by number, after its `u`; a pair of surrogates is one character. -/
def unicodeEscape (k : Cursor) : Except ReadError (Char × Cursor) := do
  let (n, k) ← hexEscape k
  if 0xDC00 ≤ n ∧ n ≤ 0xDFFF then .error (k.here .loneSurrogate)
  else if n < 0xD800 ∨ 0xDBFF < n then .ok (Char.ofNat n, k)
  else
    let k ← escapeMark '\\' k
    let k ← escapeMark 'u' k
    let (m, k) ← hexEscape k
    if m < 0xDC00 ∨ 0xDFFF < m then .error (k.here .loneSurrogate)
    else .ok (Char.ofNat (0x10000 + (n - 0xD800) * 0x400 + (m - 0xDC00)), k)

/-- An escape, after its backslash. -/
def readEscape (k : Cursor) : Except ReadError (Char × Cursor) :=
  match k.rest with
  | [] => .error (k.here .endInString)
  | c :: _ =>
    match c with
    | '"' => .ok ('"', k.next)
    | '\\' => .ok ('\\', k.next)
    | '/' => .ok ('/', k.next)
    | 'b' => .ok (Char.ofNat 8, k.next)
    | 'f' => .ok (Char.ofNat 12, k.next)
    | 'n' => .ok ('\n', k.next)
    | 'r' => .ok ('\r', k.next)
    | 't' => .ok ('\t', k.next)
    | 'u' => unicodeEscape k.next
    | _ => .error (k.ahead .invalidEscape)

/-- The characters of a string up to its closing quote, put before those already read in reverse. -/
def stringChars : Nat → List Char → Cursor → Except ReadError (List Char × Cursor)
  | 0, _, k => .error (k.here .endInString)
  | fuel + 1, acc, k =>
    match k.rest with
    | [] => .error (k.here .endInString)
    | '"' :: _ => .ok (acc.reverse, k.next)
    | '\\' :: _ => do
      let (c, k) ← readEscape k.next
      stringChars fuel (c :: acc) k
    | c :: _ =>
      if c.toNat < 0x20 then .error (k.ahead .controlCharacter)
      else stringChars fuel (c :: acc) k.next

/-- A string, after its opening quote. -/
def readString (k : Cursor) : Except ReadError (String × Cursor) := do
  let (cs, k) ← stringChars (k.rest.length + 1) [] k
  .ok (String.ofList cs, k)

/-! ## 5. Arrays and objects -/

/-- The items of an array after its opening bracket, in reverse. -/
def readItems (item : Read Json) : Nat → Bool → List Json → Read (List Json)
  | 0, _, _, k => .error (k.here .endInList)
  | fuel + 1, first, acc, k =>
    let k := k.skipBlanks
    match k.rest with
    | [] => .error (k.ahead .endInList)
    | ']' :: _ => .ok (acc, k.next)
    | c :: _ =>
      if first then do
        let (v, k) ← item k
        readItems item fuel false (v :: acc) k
      else if c = ',' then
        let k := k.next.skipBlanks
        match k.rest with
        | [] => .error (k.ahead .endInValue)
        | ']' :: _ => .error (k.ahead .trailingComma)
        | _ => do
          let (v, k) ← item k
          readItems item fuel false (v :: acc) k
      else .error (k.ahead .expectedCommaOrBracket)

/-- A member of an object, from the quote of its name on. -/
def readMember (item : Read Json) (k : Cursor) : Except ReadError ((String × Json) × Cursor) := do
  let (name, k) ← readString k.next
  let k := k.skipBlanks
  match k.rest with
  | [] => .error (k.ahead .endInObject)
  | ':' :: _ =>
    let (v, k) ← item k.next
    .ok ((name, v), k)
  | _ => .error (k.ahead .expectedColon)

/-- The members of an object after its opening brace. -/
def readMembers (item : Read Json) :
    Nat → Bool → List (String × Json) → Read (List (String × Json))
  | 0, _, _, k => .error (k.here .endInObject)
  | fuel + 1, first, acc, k =>
    let k := k.skipBlanks
    match k.rest with
    | [] => .error (k.ahead .endInObject)
    | '}' :: _ => .ok (acc, k.next)
    | c :: _ =>
      if first then
        if c = '"' then do
          let ((n, v), k) ← readMember item k
          readMembers item fuel false (insertMember n v acc) k
        else .error (k.ahead .keyNotString)
      else if c = ',' then
        let k := k.next.skipBlanks
        match k.rest with
        | [] => .error (k.ahead .endInValue)
        | '"' :: _ => do
          let ((n, v), k) ← readMember item k
          readMembers item fuel false (insertMember n v acc) k
        | '}' :: _ => .error (k.ahead .trailingComma)
        | _ => .error (k.ahead .keyNotString)
      else .error (k.ahead .expectedCommaOrBrace)

/-! ## 6. Values -/

/-- A value from its first character on. What stands inside arrays and objects is read by `inner`, if they may stand
here at all. -/
def readFrom (inner : Option (Read Json)) (k : Cursor) : Except ReadError (Json × Cursor) :=
  match k.rest with
  | [] => .error (k.ahead .endInValue)
  | c :: _ =>
    match c with
    | 'n' => readWord .null ['u', 'l', 'l'] k.next
    | 't' => readWord (.bool true) ['r', 'u', 'e'] k.next
    | 'f' => readWord (.bool false) ['a', 'l', 's', 'e'] k.next
    | '"' => do
      let (s, k) ← readString k.next
      .ok (.string s, k)
    | '-' => do
      let (n, k) ← readNumber false k.next
      .ok (.number n, k)
    | '[' =>
      match inner with
      | none => .error (k.ahead .tooDeep)
      | some item => do
        let (items, k') ← readItems item (k.rest.length + 1) true [] k.next
        .ok (.array items.reverse, k')
    | '{' =>
      match inner with
      | none => .error (k.ahead .tooDeep)
      | some item => do
        let (members, k') ← readMembers item (k.rest.length + 1) true [] k.next
        .ok (.object members, k')
    | c =>
      if c.isDigit then do
        let (n, k) ← readNumber true k
        .ok (.number n, k)
      else .error (k.ahead .expectedValue)

/-- A value whose arrays and objects nest at most `depth` deep. -/
def readValue : Nat → Read Json
  | 0, k => readFrom none k.skipBlanks
  | depth + 1, k => readFrom (some (readValue depth)) k.skipBlanks

/-- Read a whole text as one value that nests at most `depth` deep. -/
def read (depth : Nat) (text : String) : Except ReadError Json := do
  let (v, k) ← readValue depth { rest := text.toList, line := 1, column := 0 }
  let k := k.skipBlanks
  if k.rest.isEmpty then .ok v else .error (k.ahead .trailingCharacters)

/-- How deep the values of a text may nest. -/
def depthLimit : Nat := 127

/-- Read a whole text as one value. -/
def parse (text : String) : Except ReadError Json :=
  read depthLimit text

end GuestScript.Json
