import GuestScript.Token.Basic
import GuestScript.Number.Literal

/-!
# Reading tokens

The lexer goes through a text character by character and keeps the place reached: the byte offset, the
line and the column. A fault leaves the lexer where the fault was seen, which the pieces of a template
rely on: there an invalid escape is no fault, it only leaves the piece without a text to stand for.

* `Lexer.token` is the next token, a line break among them; blanks and comments are passed over.
* `Lexer.regex` and `Lexer.templateRest` read on in the two places where the meaning of a character hangs
  on the grammar: after the slash of a regular expression, and after the brace of a substitution.
-/

namespace GuestScript

/-! ## 1. The state of a lexer -/

/-- A text that is being read, and the place reached. -/
structure Lexer where
  /-- The characters that are left. -/
  rest : List Char
  /-- The size of the whole text in bytes. -/
  size : Nat
  offset : Nat
  line : UInt32
  column : UInt32
  tokenStart : Nat
  tokenPosition : Position

/-- A reader of part of a text; a fault keeps the place where it was seen. -/
abbrev Lex := EStateM LexError Lexer

namespace Lexer

def ofText (source : String) : Lexer :=
  { rest := source.toList, size := source.utf8ByteSize, offset := 0, line := 1, column := 0,
    tokenStart := 0, tokenPosition := { line := 1, column := 0 } }

/-- The place reached. -/
def position (l : Lexer) : Position :=
  { line := l.line, column := l.column }

/-- A bound for the number of characters that are left, and one more. -/
def fuel (l : Lexer) : Nat :=
  l.size - l.offset + 1

/-- The lexer after one character. -/
def next (l : Lexer) : Lexer :=
  match l.rest with
  | [] => l
  | c :: r => { l with rest := r, offset := l.offset + c.utf8Size, column := l.column + 1 }

/-- Fail at the place reached. -/
def fail {α : Type} (message : String) : Lex α := fun l =>
  .error { message := message, position := l.position } l

/-- The next character, which stays. -/
def peek : Lex (Option Char) := fun l => .ok l.rest.head? l

def peekSecond : Lex (Option Char) := fun l => .ok l.rest.tail.head? l

def advance : Lex (Option Char) := fun l => .ok l.rest.head? l.next

/-- Take the next character if it is the expected one. -/
def eat (expected : Char) : Lex Bool := fun l =>
  if l.rest.head? = some expected then .ok true l.next else .ok false l

/-- Run a reader that takes fuel with as much as the text that is left can need. -/
def fuelled {α : Type} (reader : Nat → Lex α) : Lex α := fun l =>
  reader l.fuel l

/-! ## 2. Blanks and comments -/

/-- Whether a character ends a line. -/
def isLineBreak (c : Char) : Bool :=
  c = '\n' || c = '\r' || c.toNat = 0x2028 || c.toNat = 0x2029

/-- Whether a character is a blank within a line. -/
def isBlank (c : Char) : Bool :=
  let n := c.toNat
  n = 0x20 || n = 9 || n = 0xB || n = 0xC || n = 0x85 || n = 0xA0 || n = 0x1680 ||
    (0x2000 ≤ n && n ≤ 0x200A) || n = 0x202F || n = 0x205F || n = 0x3000 || n = 0xFEFF

/-- Pass over characters as long as they satisfy a predicate. -/
def skipWhile (p : Char → Bool) : Nat → Lexer → Lexer
  | 0, l => l
  | fuel + 1, l =>
    match l.rest with
    | c :: _ => if p c then skipWhile p fuel l.next else l
    | [] => l

/-- Go to the next line; a carriage return takes the line feed after it along. -/
def newLine (c : Char) : Lex Unit := fun l =>
  let l := if c = '\r' && l.rest.head? = some '\n' then l.next else l
  .ok () { l with line := l.line + 1, column := 0 }

/-- The rest of a block comment; the answer says whether it spans lines. -/
def blockComment : Nat → Bool → Lex Bool
  | 0, _ => fail "Unterminated comment"
  | fuel + 1, broken => do
    match ← advance with
    | none => fail "Unterminated comment"
    | some '*' => if ← eat '/' then pure broken else blockComment fuel broken
    | some c =>
      if isLineBreak c then
        newLine c
        blockComment fuel true
      else blockComment fuel broken

/-! ## 3. Escapes -/

/-- The value of a hexadecimal digit. -/
def hexValue? (c : Char) : Option Nat :=
  if '0' ≤ c ∧ c ≤ '9' then some (c.toNat - 48)
  else if 'a' ≤ c ∧ c ≤ 'f' then some (c.toNat - 87)
  else if 'A' ≤ c ∧ c ≤ 'F' then some (c.toNat - 55)
  else none

/-- The value of a digit in a radix up to sixteen. -/
def digitValue? (radix : Nat) (c : Char) : Option Nat :=
  match hexValue? c with
  | some d => if d < radix then some d else none
  | none => none

/-- The character with a number, or the replacement character when there is none. -/
def scalar (n : Nat) : Char :=
  if n.isValidChar then Char.ofNat n else Char.ofNat 0xFFFD

/-- A hexadecimal digit of an escape. -/
def hexDigit : Lex Nat := do
  match (← advance).bind hexValue? with
  | some d => pure d
  | none => fail "Bad character escape sequence"

def bracedDigits : Nat → Nat → Nat → Lex Nat
  | 0, _, _ => fail "Bad character escape sequence"
  | fuel + 1, count, value => do
    match ← advance with
    | none => fail "Bad character escape sequence"
    | some c =>
      if c = '\x7d' && count > 0 then pure value
      else
        match hexValue? c with
        | none => fail "Bad character escape sequence"
        | some d =>
          let value := value * 16 + d
          if value > 0x10FFFF then fail "Code point out of bounds"
          else bracedDigits fuel (count + 1) value

/-- The number of an escape after its `u`: four digits, or any digits between braces. -/
def codePoint : Lex Nat := do
  if ← eat '\x7b' then fuelled (fun fuel => bracedDigits fuel 0 0)
  else
    let a ← hexDigit
    let b ← hexDigit
    let c ← hexDigit
    let d ← hexDigit
    pure (((a * 16 + b) * 16 + c) * 16 + d)

/-- The low surrogate that an escape at the front of a text spells. -/
def lowSurrogate? : List Char → Option Nat
  | '\\' :: 'u' :: a :: b :: c :: d :: _ =>
    match hexValue? a, hexValue? b, hexValue? c, hexValue? d with
    | some a, some b, some c, some d =>
      let n := ((a * 16 + b) * 16 + c) * 16 + d
      if 0xDC00 ≤ n ∧ n < 0xE000 then some n else none
    | _, _, _, _ => none
  | _ => none

/-- An escape by number after its `u`. Two escapes that spell a surrogate pair are one character. -/
def unicodeEscape : Lex (List Char) := do
  let code ← codePoint
  fun l =>
    match (if 0xD800 ≤ code ∧ code < 0xDC00 then lowSurrogate? l.rest else none) with
    | some low =>
      .ok [scalar (0x10000 + (code - 0xD800) * 0x400 + (low - 0xDC00))]
        l.next.next.next.next.next.next
    | none => .ok [scalar code] l

/-- An octal escape after its first digit: at most three digits, and a value below 256. -/
def octalEscape (first : Char) : Lex (List Char) := do
  let value := first.toNat - 48
  match (← peek).bind (digitValue? 8) with
  | none => pure [scalar value]
  | some d =>
    let _ ← advance
    let value := value * 8 + d
    if first ≤ '3' then
      match (← peek).bind (digitValue? 8) with
      | none => pure [scalar value]
      | some d =>
        let _ ← advance
        pure [scalar (value * 8 + d)]
    else pure [scalar value]

/-- An escape after its backslash: the characters it stands for. -/
def escape : Lex (List Char) := do
  match ← advance with
  | none => fail "Unterminated string constant"
  | some c =>
    match c with
    | 'n' => pure ['\n']
    | 'r' => pure ['\r']
    | 't' => pure ['\t']
    | 'b' => pure [Char.ofNat 8]
    | 'f' => pure [Char.ofNat 12]
    | 'v' => pure [Char.ofNat 11]
    | 'x' =>
      let high := (← advance).bind hexValue?
      let low := (← advance).bind hexValue?
      match high, low with
      | some h, some l => pure [scalar (h * 16 + l)]
      | _, _ => fail "Bad character escape sequence"
    | 'u' => unicodeEscape
    | c =>
      if '0' ≤ c ∧ c ≤ '7' then
        if c = '0' && !(← peek).any Char.isDigit then pure [Char.ofNat 0] else octalEscape c
      else if c = '8' || c = '9' then fail "Invalid escape sequence"
      else if isLineBreak c then
        newLine c
        pure []
      else pure [c]

/-! ## 4. Strings and templates -/

/-- The characters of a string up to its closing quote, added to those already read in reverse. -/
def stringChars (quote : Char) : Nat → List Char → Lex String
  | 0, _ => fail "Unterminated string constant"
  | fuel + 1, acc => do
    match ← advance with
    | none => fail "Unterminated string constant"
    | some c =>
      if c = quote then pure (String.ofList acc.reverse)
      else if c = '\n' || c = '\r' then fail "Unterminated string constant"
      else if c = '\\' then stringChars quote fuel ((← escape).reverse ++ acc)
      else stringChars quote fuel (c :: acc)

/-- A run of characters with every carriage return and line feed in a row made one line feed. -/
def joinLineFeeds : List Char → List Char
  | '\r' :: '\n' :: rest => '\n' :: joinLineFeeds rest
  | c :: rest => c :: joinLineFeeds rest
  | [] => []

/-- Try an escape: the characters it stands for, if it is valid, and those it is written with. -/
def tryEscape : Lex (Option (List Char) × List Char) := fun l =>
  let written (after : Lexer) : List Char :=
    joinLineFeeds (l.rest.take (l.rest.length - after.rest.length))
  match escape l with
  | .ok cs after => .ok (some cs, written after) after
  | .error _ after => .ok (none, written after) after

/-- The characters of a template piece up to a substitution or the end of the template; the answer says
whether it is the end. Both texts are collected in reverse. -/
def templateChars : Nat → Option (List Char) → List Char → Lex (Option String × String × Bool)
  | 0, _, _ => fail "Unterminated template"
  | fuel + 1, cooked, raw => do
    let done (last : Bool) : Option String × String × Bool :=
      (cooked.map (fun cs => String.ofList cs.reverse), String.ofList raw.reverse, last)
    match ← advance with
    | none => fail "Unterminated template"
    | some '`' => pure (done true)
    | some '\\' =>
      let (meaning, written) ← tryEscape
      let cooked :=
        match meaning, cooked with
        | some cs, some acc => some (cs.reverse ++ acc)
        | _, _ => none
      templateChars fuel cooked (written.reverse ++ '\\' :: raw)
    | some c =>
      if c = '$' && (← peek) == some '\x7b' then
        let _ ← advance
        pure (done false)
      else if isLineBreak c then
        newLine c
        let c := if c = '\r' then '\n' else c
        templateChars fuel (cooked.map (c :: ·)) (c :: raw)
      else templateChars fuel (cooked.map (c :: ·)) (c :: raw)

/-- The rest of a template piece, as a token for its last or for another place. -/
def templatePiece (last other : TemplatePlace) : Lex Token := do
  let (cooked, raw, isLast) ← fuelled (fun fuel => templateChars fuel (some []) [])
  pure (.template (if isLast then last else other) cooked raw)

/-- A template piece after the brace that closes a substitution. -/
def templateRest : Lex Token :=
  templatePiece .tail .middle

/-! ## 5. Numbers -/

/-- Decimal digits, which single underscores may separate, added in reverse to those already read. -/
def decimalDigits : Nat → List Char → Bool → Lex (List Char)
  | 0, acc, _ => pure acc
  | fuel + 1, acc, afterDigit => do
    match ← peek with
    | none => pure acc
    | some c =>
      if c.isDigit then
        let _ ← advance
        decimalDigits fuel (c :: acc) true
      else if c = '_' && afterDigit && (← peekSecond).any Char.isDigit then
        let _ ← advance
        decimalDigits fuel acc false
      else pure acc

/-- Decimal digits after those already read. -/
def moreDigits (acc : List Char) : Lex (List Char) :=
  fuelled (fun fuel => decimalDigits fuel acc (acc.head?.any Char.isDigit))

/-- An optional exponent. -/
def exponentPart (acc : List Char) : Lex (List Char) := do
  match ← peek with
  | some c =>
    if c = 'e' || c = 'E' then
      let _ ← advance
      let acc := c :: acc
      let acc ←
        match ← peek with
        | some s =>
          if s = '+' || s = '-' then do
            let _ ← advance
            pure (s :: acc)
          else pure acc
        | none => pure acc
      let digits ← moreDigits acc
      if digits.length = acc.length then fail "Invalid number" else pure digits
    else pure acc
  | none => pure acc

/-- What must not follow a number. -/
def checkAfterNumber (digitsToo : Bool) : Lex Unit := do
  match ← peek with
  | none => pure ()
  | some c =>
    if c = 'n' then fail "BigInt literals are not supported"
    else if Text.isIdentifierStart c || (digitsToo && c.isDigit) then
      fail "Identifier directly after number"
    else pure ()

/-- The token of a decimal number from its characters in reverse. -/
def decimalToken (acc : List Char) : Lex Token := do
  checkAfterNumber true
  match Number.read? (String.ofList acc.reverse) with
  | some value => pure (.number value)
  | none => fail "Invalid number"

/-- The digits of a number in a radix: its value and whether there is any digit. -/
def radixDigits (radix : Nat) : Nat → Float → Bool → Bool → Lex (Float × Bool)
  | 0, value, any, _ => pure (value, any)
  | fuel + 1, value, any, afterDigit => do
    match ← peek with
    | none => pure (value, any)
    | some c =>
      match digitValue? radix c with
      | some d =>
        let _ ← advance
        radixDigits radix fuel (value * Number.ofNat radix + Number.ofNat d) true true
      | none =>
        if c = '_' && afterDigit && ((← peekSecond).bind (digitValue? radix)).isSome then
          let _ ← advance
          radixDigits radix fuel value any false
        else pure (value, any)

/-- A number in a radix, after its mark. -/
def radixNumber (radix : Nat) : Lex Token := do
  let (value, any) ← fuelled (fun fuel => radixDigits radix fuel 0.0 false false)
  if any then
    checkAfterNumber false
    pure (.number value)
  else fail ("Expected number in radix " ++ toString radix)

/-- Plain digits, added in reverse to those already read. -/
def plainDigits : Nat → List Char → Lex (List Char)
  | 0, acc => pure acc
  | fuel + 1, acc => do
    match ← peek with
    | some c =>
      if c.isDigit then
        let _ ← advance
        plainDigits fuel (c :: acc)
      else pure acc
    | none => pure acc

/-- A number that starts with a zero and another digit: octal when all of its digits are below eight, and
decimal otherwise. -/
def zeroNumber : Lex Token := do
  let acc ← fuelled (fun fuel => plainDigits fuel ['0'])
  if acc.all (fun c => c < '8') then
    checkAfterNumber false
    pure (.number (acc.reverse.foldl (fun v c => v * 8.0 + Number.ofNat (c.toNat - 48)) 0.0))
  else
    let acc ←
      if (← peek) == some '.' then do
        let _ ← advance
        moreDigits ('.' :: acc)
      else pure acc
    decimalToken (← exponentPart acc)

/-- A decimal number after its first character. -/
def decimalNumber (first : Char) : Lex Token := do
  let acc ←
    if first = '.' then pure [first]
    else do
      let acc ← moreDigits [first]
      if (← peek) == some '.' then
        let _ ← advance
        pure ('.' :: acc)
      else pure acc
  decimalToken (← exponentPart (← moreDigits acc))

/-- A number after its first character. -/
def number (first : Char) : Lex Token := do
  if first = '0' then
    match ← peek with
    | none => decimalNumber first
    | some c =>
      let radix :=
        if c = 'x' || c = 'X' then some 16
        else if c = 'o' || c = 'O' then some 8
        else if c = 'b' || c = 'B' then some 2
        else none
      match radix with
      | some radix =>
        let _ ← advance
        radixNumber radix
      | none => if c.isDigit then zeroNumber else decimalNumber first
  else decimalNumber first

/-! ## 6. Words -/

/-- The character that an escape in a name stands for, after its backslash. -/
def nameEscape (isFirst : Bool) : Lex Char := do
  if ← eat 'u' then
    let code ← codePoint
    let c := Char.ofNat code
    let fits := if isFirst then Text.isIdentifierStart c else Text.isIdentifierPart c
    if code.isValidChar && fits then pure c else fail "Invalid Unicode escape"
  else fail "Expecting Unicode escape sequence \\uXXXX"

/-- A name from a character that has been taken on, with those already read in reverse; the answer says
whether it holds an escape. -/
def nameChars : Nat → Char → List Char → Bool → Lex (String × Bool)
  | 0, _, acc, escaped => pure (String.ofList acc.reverse, escaped)
  | fuel + 1, c, acc, escaped => do
    let (c', escaped) ←
      if c = '\\' then do
        let c' ← nameEscape acc.isEmpty
        pure (c', true)
      else pure (c, escaped)
    let acc := c' :: acc
    match ← peek with
    | some n =>
      if n = '\\' || Text.isIdentifierPart n then
        let _ ← advance
        nameChars fuel n acc escaped
      else pure (String.ofList acc.reverse, escaped)
    | none => pure (String.ofList acc.reverse, escaped)

/-- A name or reserved word after its first character. A reserved word holds no escapes. -/
def word (first : Char) : Lex Token := do
  let (name, escaped) ← fuelled (fun fuel => nameChars (fuel + 1) first [] false)
  let literal := name = "true" || name = "false" || name = "null"
  if escaped then
    if (Keyword.ofText? name).isSome || literal then fail "Keyword must not contain escaped characters"
    else pure (.identifier name)
  else if name = "true" then pure (.boolean true)
  else if name = "false" then pure (.boolean false)
  else if name = "null" then pure .null
  else
    match Keyword.ofText? name with
    | some k => pure (.keyword k)
    | none => pure (.identifier name)

/-! ## 7. Regular expressions -/

/-- The pattern of a regular expression up to its closing slash, added in reverse to what is read. -/
def regexChars : Nat → Bool → List Char → Lex String
  | 0, _, _ => fail "Unterminated regular expression"
  | fuel + 1, inClass, acc => do
    match ← advance with
    | none => fail "Unterminated regular expression"
    | some c =>
      if isLineBreak c then fail "Unterminated regular expression"
      else if c = '/' && !inClass then pure (String.ofList acc.reverse)
      else if c = '\\' then
        match ← advance with
        | some d =>
          if isLineBreak d then fail "Unterminated regular expression"
          else regexChars fuel inClass (d :: c :: acc)
        | none => fail "Unterminated regular expression"
      else if c = '[' then regexChars fuel true (c :: acc)
      else if c = ']' then regexChars fuel false (c :: acc)
      else regexChars fuel inClass (c :: acc)

/-- The flags of a regular expression, each at most once. -/
def regexFlags : Nat → List Char → Lex String
  | 0, acc => pure (String.ofList acc.reverse)
  | fuel + 1, acc => do
    match ← peek with
    | none => pure (String.ofList acc.reverse)
    | some c =>
      if Text.isIdentifierPart c then
        if "dgimsuyv".toList.contains c && !acc.contains c then
          let _ ← advance
          regexFlags fuel (c :: acc)
        else fail "Invalid regular expression flag"
      else pure (String.ofList acc.reverse)

/-- A regular expression after its opening slash and the characters of it already taken. -/
def regex (taken : String) : Lex Token := do
  let pattern ← fuelled (fun fuel => regexChars fuel false taken.toList.reverse)
  let flags ← fuelled (fun fuel => regexFlags fuel [])
  pure (.regex pattern flags)

/-! ## 8. Punctuators -/

/-- One of two punctuators, the second when an equals sign follows. -/
def withAssign (plain assigned : Punctuator) : Lex Token := do
  if ← eat '=' then pure (.punctuator assigned) else pure (.punctuator plain)

/-- A punctuator after its first character. -/
def punctuator (first : Char) : Lex Token := do
  let just (mark : Punctuator) : Lex Token := pure (.punctuator mark)
  match first with
  | '\x7b' => just .leftBrace
  | '\x7d' => just .rightBrace
  | '(' => just .leftParen
  | ')' => just .rightParen
  | '[' => just .leftBracket
  | ']' => just .rightBracket
  | ';' => just .semicolon
  | ',' => just .comma
  | '~' => just .tilde
  | ':' => just .colon
  | '#' => just .hash
  | '.' =>
    if (← peek) == some '.' && (← peekSecond) == some '.' then
      let _ ← advance
      let _ ← advance
      just .ellipsis
    else just .dot
  | '?' =>
    if ← eat '?' then withAssign .nullish .nullishAssign
    else if (← peek) == some '.' && !(← peekSecond).any Char.isDigit then
      let _ ← advance
      just .optionalChain
    else just .question
  | '<' =>
    if ← eat '<' then withAssign .leftShift .leftShiftAssign else withAssign .less .lessEqual
  | '>' =>
    if ← eat '>' then
      if ← eat '>' then withAssign .zeroRightShift .zeroRightShiftAssign
      else withAssign .rightShift .rightShiftAssign
    else withAssign .greater .greaterEqual
  | '=' =>
    if ← eat '>' then just .arrow
    else if ← eat '=' then withAssign .equal .strictEqual
    else just .assign
  | '!' => if ← eat '=' then withAssign .notEqual .strictNotEqual else just .bang
  | '+' => if ← eat '+' then just .increment else withAssign .plus .plusAssign
  | '-' => if ← eat '-' then just .decrement else withAssign .minus .minusAssign
  | '*' =>
    if ← eat '*' then withAssign .exponent .exponentAssign else withAssign .star .starAssign
  | '%' => withAssign .percent .percentAssign
  | '&' =>
    if ← eat '&' then withAssign .logicalAnd .logicalAndAssign
    else withAssign .ampersand .ampersandAssign
  | '|' =>
    if ← eat '|' then withAssign .logicalOr .logicalOrAssign else withAssign .pipe .pipeAssign
  | '^' => withAssign .caret .caretAssign
  | '/' => withAssign .slash .slashAssign
  | c => fun l =>
    .error { message := "Unexpected character '" ++ String.ofList [c] ++ "'",
             position := l.tokenPosition } l

/-! ## 9. Tokens -/

/-- A token from its first character on, which is no blank, line break or comment. -/
def tokenFrom (c : Char) : Lex Token := do
  let _ ← advance
  if c = '\'' || c = '"' then
    pure (.string (← fuelled (fun fuel => stringChars c fuel [])))
  else if c = '`' then templatePiece .whole .head
  else if c.isDigit then number c
  else if c = '.' && (← peek).any Char.isDigit then number c
  else if c = '\\' || Text.isIdentifierStart c then word c
  else punctuator c

/-- Pass over blanks and mark the start of a token. -/
def startToken : Lex Unit := fun l =>
  let l := skipWhile isBlank l.fuel l
  .ok () { l with tokenStart := l.offset, tokenPosition := l.position }

/-- Pass over the rest of a line. -/
def skipLine : Lex Unit := fun l =>
  .ok () (skipWhile (fun c => !isLineBreak c) l.fuel l)

/-- The next token, after any number of blanks and comments. A comment that spans lines counts as a line
break, and the first line of a text may be a comment that starts with `#!`. -/
def tokenLoop : Nat → Lex Token
  | 0 => pure .eof
  | fuel + 1 => do
    startToken
    let second ← peekSecond
    match ← peek with
    | none => pure .eof
    | some c =>
      if isLineBreak c then
        let _ ← advance
        newLine c
        pure .newline
      else if c = '/' && second == some '/' then
        skipLine
        tokenLoop fuel
      else if c = '/' && second == some '*' then
        let _ ← advance
        let _ ← advance
        if ← fuelled (fun fuel => blockComment fuel false) then pure .newline else tokenLoop fuel
      else if c = '#' && second == some '!' && (← get).offset == 0 then
        skipLine
        tokenLoop fuel
      else tokenFrom c

/-- The next token. -/
def token : Lex Token :=
  fuelled tokenLoop

end Lexer

end GuestScript
