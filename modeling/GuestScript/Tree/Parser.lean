import GuestScript.Tree.Parser.Statement

/-!
# Parsing programs

`Parser.reach` ties the productions together: a goal is reached by its production, with one less level to
go for the goals inside it. Every two goals deep at least one token has been taken, so a text never needs
more levels than `parse` gives it.
-/

namespace GuestScript

namespace Parser

/-- The production of a goal, given how the goals inside it are reached. -/
def produce (reach : Reach) : Reach
  | .item => item reach
  | .statement => nested (statement reach)
  | .assignment => nested (assignment reach)
  | .unary => nested (unary reach)
  | .binaryRest marker left least => nested (binaryRestFrom reach marker left least)
  | .newExpression => nested (newExpression reach)
  | .leftHandSide => leftHandSide reach
  | .bindingTarget => bindingTarget reach

/-- How goals are reached with some levels to go, and in another way beyond the last one. -/
def reachFrom (beyond : Reach) : Nat → Reach
  | 0 => beyond
  | levels + 1 => produce (reachFrom beyond levels)

def reach : Nat → Reach :=
  reachFrom fun _ => fail "Too many nested statements or expressions"

/-- A whole program. The directives of a program hold to its end. -/
def program (reach : Reach) : Parse Node := do
  let marker ← start
  let atEnd : Parse Bool := do pure (← get).current.isEof
  let body ← bodyItems reach atEnd ((← get).lexer.fuel + 1) true []
  let p ← get
  pure (.mk (.program body.reverse)
    { start := marker.start, stop := p.currentStop,
      loc := some (marker.position, p.currentStopPosition) })

/-- A parser before its first token. -/
def ofText (source : String) (modern allowReturn : Bool) : Parser :=
  let origin : Position := { line := 1, column := 0 }
  { source := source, lexer := .ofText source, current := .eof, currentStart := 0, currentStop := 0,
    currentPosition := origin, currentStopPosition := origin, lastStop := 0,
    lastStopPosition := origin, afterBreak := false, strict := false, modern := modern,
    allowReturn := allowReturn, functions := 0, iterations := 0, switches := 0, labels := [],
    noIn := false, depth := 0 }

end Parser

/-- The number that an optional plus sign and decimal digits write, if it fits 32 bits. -/
def readVersion? (s : String) : Option Nat :=
  let digits :=
    match s.toList with
    | '+' :: rest => rest
    | cs => cs
  if digits.isEmpty || !digits.all Char.isDigit then none
  else
    let n := Number.digitsValue digits
    if n < 4294967296 then some n else none

/-- Whether an edition has the syntax of 2015, or nothing when there is no such edition. -/
def isModernVersion? (version : String) : Option Bool :=
  if version = "latest" then some true
  else
    match readVersion? version with
    | none => none
    | some n =>
      if n = 3 || n = 5 then some false
      else if (6 ≤ n && n ≤ 20) || (2015 ≤ n && n ≤ 2030) then some true
      else none

/-- Parse a program. -/
def parse (source : String) (options : ParseOptions) : Except ParseError Node :=
  match isModernVersion? options.ecmaVersion with
  | none => .error (.of ("Invalid ecmaVersion: " ++ options.ecmaVersion) none)
  | some modern =>
    let production : Parse Node := do
      discard Parser.advance
      Parser.program (Parser.reach (4 * source.utf8ByteSize + 16))
    match production (.ofText source modern options.allowReturn) with
    | .ok n _ => .ok n
    | .error e _ => .error e

end GuestScript
