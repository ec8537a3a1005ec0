import GuestScript.Token.Lexer
import GuestScript.Tree.Node

/-!
# The state of a parser

The parser holds one token ahead of what it has taken, the ends of the token before it, and the context
that decides what may stand where. Productions of the grammar that call each other are named by a `Goal`;
a production is a function of how the goals inside it are reached, and the knot is tied once, in the
module that defines `parse`.
-/

namespace GuestScript

/-! ## 1. Errors and options -/

/-- A text that is no program: the message with the place at its end, and the place. -/
structure ParseError where
  message : String
  position : Option Position
  deriving DecidableEq

/-- A parse error with its place added to the message. -/
def ParseError.of (message : String) (position : Option Position) : ParseError :=
  match position with
  | some p => { message := message ++ " " ++ p.text, position := position }
  | none => { message := message, position := none }

def ParseError.text (e : ParseError) : String :=
  "SyntaxError: " ++ e.message

/-- Which programs are accepted. -/
structure ParseOptions where
  /-- `latest`, a year from 2015 on, or an edition number. -/
  ecmaVersion : String := "latest"
  allowReturn : Bool := true

/-! ## 2. The state -/

/-- How deep statements and expressions may nest. -/
def maxNesting : Nat := 256

/-- A parser: the token ahead, the ends of the last token taken, and the context. -/
structure Parser where
  source : String
  lexer : Lexer
  current : Token
  currentStart : Nat
  currentStop : Nat
  currentPosition : Position
  currentStopPosition : Position
  lastStop : Nat
  lastStopPosition : Position
  /-- A line break stands before the token ahead. -/
  afterBreak : Bool
  strict : Bool
  /-- The syntax of the 2015 edition is allowed. -/
  modern : Bool
  allowReturn : Bool
  functions : Nat
  iterations : Nat
  switches : Nat
  /-- The labels around, the innermost first, and whether each stands before a loop. -/
  labels : List (String × Bool)
  /-- The word `in` ends an expression, as it does in the head of a loop. -/
  noIn : Bool
  depth : Nat

/-- A production of the grammar. -/
abbrev Parse := EStateM ParseError Parser

/-- The start of a node that is being read. -/
structure Marker where
  start : Nat
  position : Position

namespace Parser

/-! ## 3. Tokens -/

/-- Run the lexer, a fault of which is a parse error. -/
def lex (reader : Lex Token) : Parse Token := fun p =>
  match reader p.lexer with
  | .ok t l => .ok t { p with lexer := l }
  | .error e _ => .error (.of e.message (some e.position)) p

/-- The next token that is no line break, and whether line breaks stand before it. -/
def nextToken : Nat → Bool → Parse (Token × Bool)
  | 0, broken => pure (.eof, broken)
  | fuel + 1, broken => do
    let t ← lex Lexer.token
    if t.isNewline then nextToken fuel true else pure (t, broken)

/-- Take the token ahead. -/
def advance : Parse Token := do
  let fuel := (← get).lexer.fuel + 1
  let (next, broken) ← nextToken fuel false
  modifyGet fun p =>
    (p.current,
      { p with
        lastStop := p.currentStop
        lastStopPosition := p.currentStopPosition
        afterBreak := broken
        current := next
        currentStart := p.lexer.tokenStart
        currentPosition := p.lexer.tokenPosition
        currentStop := p.lexer.offset
        currentStopPosition := p.lexer.position })

/-- Put a token that was read anew from the same start in place of the token ahead. -/
def rescan (token : Token) : Parse Unit :=
  modify fun p =>
    { p with
      current := token, currentStop := p.lexer.offset, currentStopPosition := p.lexer.position }

def ahead : Parse Token := do
  pure (← get).current

/-- Whether the token ahead is a given punctuator. -/
def at? (mark : Punctuator) : Parse Bool := do
  pure ((← get).current.isMark mark)

/-- Whether the token ahead is a given reserved word. -/
def atWord? (word : Keyword) : Parse Bool := do
  pure ((← get).current.isWord word)

/-! ## 4. Failing -/

/-- Fail at a place that may be unknown. -/
def failAt {α : Type} (message : String) (position : Option Position) : Parse α :=
  throw (.of message position)

/-- Fail at the token ahead. -/
def fail {α : Type} (message : String) : Parse α := do
  failAt message (some (← get).currentPosition)

/-- Fail because the token ahead fits nothing. -/
def unexpected {α : Type} : Parse α := do
  match (← get).current with
  | .eof => fail "Unexpected end of input"
  | t => fail ("Unexpected token '" ++ t.text ++ "'")

/-- Fail because of a construct that the language leaves out. -/
def unsupported {α : Type} (what : String) : Parse α :=
  fail (what ++ " are not supported")

/-- Require the syntax of the 2015 edition. -/
def requireModern (what : String) : Parse Unit := do
  if (← get).modern then pure () else fail (what ++ " require ecmaVersion 2015 or later")

/-- Take a punctuator that must be there. -/
def eat (mark : Punctuator) : Parse Unit := do
  if ← at? mark then discard advance else unexpected

/-- Take a reserved word that must be there. -/
def eatWord (word : Keyword) : Parse Unit := do
  if ← atWord? word then discard advance else unexpected

/-- Take a punctuator if it is there. -/
def eatIf (mark : Punctuator) : Parse Bool := do
  if ← at? mark then
    discard advance
    pure true
  else pure false

/-- Take a reserved word if it is there. -/
def eatIfWord (word : Keyword) : Parse Bool := do
  if ← atWord? word then
    discard advance
    pure true
  else pure false

/-- Take a semicolon, which a line break, a closing brace or the end of the text may stand for. -/
def eatSemicolon : Parse Unit := do
  if ← eatIf .semicolon then pure ()
  else
    let p ← get
    if p.afterBreak || p.current.isMark .rightBrace || p.current.isEof then pure () else unexpected

/-! ## 5. Nodes -/

/-- The start of a node at the token ahead. -/
def start : Parse Marker := do
  let p ← get
  pure { start := p.currentStart, position := p.currentPosition }

/-- Close a node at the end of the last token taken. -/
def finish (marker : Marker) (kind : Kind) : Parse Node := do
  let p ← get
  pure (.mk kind
    { start := marker.start, stop := p.lastStop,
      loc := some (marker.position, p.lastStopPosition) })

/-- Part of the source text, by byte offsets. -/
def sourceSlice (start stop : Nat) : Parse String := do
  pure (String.Pos.Raw.extract (← get).source ⟨start⟩ ⟨stop⟩)

/-! ## 6. Context -/

/-- Run a production one level deeper. -/
def nested {α : Type} (production : Parse α) : Parse α := do
  if (← get).depth ≥ maxNesting then fail "Too many nested statements or expressions"
  else
    modify fun p => { p with depth := p.depth + 1 }
    let result ← production
    modify fun p => { p with depth := p.depth - 1 }
    pure result

/-- Run a production inside brackets, where `in` is an operator again. -/
def withIn {α : Type} (production : Parse α) : Parse α := do
  let saved := (← get).noIn
  modify fun p => { p with noIn := false }
  let result ← production
  modify fun p => { p with noIn := saved }
  pure result

/-- Run a production inside a function: loops, switches and labels outside are out of reach. -/
def inFunction {α : Type} (production : Parse α) : Parse α := do
  let saved ← get
  modify fun p =>
    { p with
      functions := p.functions + 1, iterations := 0, switches := 0, labels := [], noIn := false }
  let result ← production
  modify fun p =>
    { p with
      functions := p.functions - 1, iterations := saved.iterations, switches := saved.switches,
      labels := saved.labels, noIn := saved.noIn }
  pure result

/-- Run a production as often as a condition holds. Each round takes a token, so the text that is left
bounds the rounds. -/
def rounds {α : Type} (goesOn : Parse Bool) (production : List α → Parse (List α)) :
    Nat → List α → Parse (List α)
  | 0, acc => pure acc
  | fuel + 1, acc => do
    if ← goesOn then rounds goesOn production fuel (← production acc) else pure acc

/-- Collect what a production adds, in order, as long as a condition holds. -/
def collect {α : Type} (goesOn : Parse Bool) (production : List α → Parse (List α)) :
    Parse (List α) := do
  let fuel := (← get).lexer.fuel + 1
  pure (← rounds goesOn production fuel []).reverse

/-- Whether the token ahead is not a given punctuator. -/
def notAt (mark : Punctuator) : Parse Bool := do
  pure (!(← at? mark))

/-! ## 7. Names -/

/-- Words that are reserved in strict code only. -/
def strictWords : List String :=
  ["implements", "interface", "package", "private", "protected", "public", "static"]

def isReserved (name : String) (strict : Bool) : Bool :=
  (match Keyword.ofText? name with
    | some .letWord => strict
    | some .yieldWord => strict
    | some _ => true
    | none => false) ||
    name = "true" || name = "false" || name = "null" || (strict && strictWords.contains name)

def identifierAhead : Parse (Option String) := do
  let p ← get
  match p.current with
  | .identifier name => pure (if isReserved name p.strict then none else some name)
  | .keyword .yieldWord => pure (if p.strict then none else some "yield")
  | _ => pure none

/-- The token ahead as the name of a property, which may be any word. -/
def propertyNameAhead : Parse (Option String) := do
  match (← get).current with
  | .identifier name => pure (some name)
  | .keyword word => pure (some word.text)
  | .boolean b => pure (some (if b then "true" else "false"))
  | .null => pure (some "null")
  | _ => pure none

/-- In strict code, two names must not be bound. -/
def checkBinding (name : String) : Parse Unit := do
  if (← get).strict && (name = "eval" || name = "arguments") then
    fail ("Binding " ++ name ++ " in strict mode")

def identifier : Parse Node := do
  let marker ← start
  match ← identifierAhead with
  | none => unexpected
  | some name =>
    discard advance
    finish marker (.identifier name)

/-- An identifier that is bound. -/
def bindingIdentifier : Parse Node := do
  let id ← identifier
  match id.name? with
  | some name =>
    checkBinding name
    pure id
  | none => pure id

/-- An identifier on the same line, if there is one. -/
def optionalLabel : Parse (Option Node) := do
  let broken := (← get).afterBreak
  if !broken && (← identifierAhead).isSome then pure (some (← identifier)) else pure none

/-- A literal: the token ahead with a value. -/
def literal (value : Json) : Parse Node := do
  let marker ← start
  let p ← get
  let raw ← sourceSlice p.currentStart p.currentStop
  discard advance
  finish marker (.literal value (some raw) none)

/-- A number as a JSON value: an integer when it is one and is held exactly. -/
def numberValue (x : Float) : Json :=
  if Number.isIntegral x && x.abs < Number.integralFrom && !(x == 0.0 && Number.signBit x) then
    let n := x.abs.toUInt64.toNat
    .number (if x < 0.0 then .negative n else .natural n)
  else if x.isFinite then .number (.real x)
  else .null

end Parser

/-! ## 8. Goals -/

/-- The productions that the grammar reaches again from inside themselves. -/
inductive Goal where
  /-- A statement or declaration. -/
  | item
  /-- A statement, one level deeper. -/
  | statement
  /-- An expression without a comma at its top, one level deeper. -/
  | assignment
  /-- An operand with the operators before it, one level deeper. -/
  | unary
  /-- The operators above a precedence after a left side, one level deeper. -/
  | binaryRest (marker : Marker) (left : Node) (precedence : Nat)
  /-- An expression that starts with `new`, one level deeper. -/
  | newExpression
  /-- A primary expression with the accesses and calls after it. -/
  | leftHandSide
  /-- A name or a pattern that is bound. -/
  | bindingTarget

/-- How the goals inside a production are reached. -/
abbrev Reach := Goal → Parse Node

end GuestScript
