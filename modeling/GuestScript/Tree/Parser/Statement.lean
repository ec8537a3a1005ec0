import GuestScript.Tree.Parser.Expression

/-!
# Statements

Jumps are checked against the loops, switches and labels around them, and some words stand for constructs
that the language leaves out.
-/

namespace GuestScript.Parser

/-! ## 1. Blocks and simple statements -/

/-- Items up to a condition. -/
def items (reach : Reach) (goesOn : Parse Bool) : Parse (List Node) :=
  collect goesOn fun acc => do pure ((← reach .item) :: acc)

def block (reach : Reach) : Parse Node := do
  let marker ← start
  eat .leftBrace
  let body ← items reach (notAt .rightBrace)
  eat .rightBrace
  finish marker (.blockStatement body)

def variableStatement (reach : Reach) : Parse Node := do
  let marker ← start
  let declaration ← variableDeclaration reach false
  eatSemicolon
  finish marker declaration.kind

def parenthesized (reach : Reach) : Parse Node := do
  eat .leftParen
  let e ← withIn (expression reach)
  eat .rightParen
  pure e

/-- The statement after a label. -/
def labeled (reach : Reach) (marker : Marker) (label : Node) (name : String) : Parse Node := do
  if (← get).labels.any (fun l => l.1 == name) then
    failAt ("Label '" ++ name ++ "' has already been declared") (some marker.position)
  else
    discard advance
    let isLoop :=
      match ← ahead with
      | .keyword .forWord => true
      | .keyword .whileWord => true
      | .keyword .doWord => true
      | _ => false
    modify fun p => { p with labels := (name, isLoop) :: p.labels }
    let body ← reach .statement
    modify fun p => { p with labels := p.labels.tail }
    finish marker (.labeledStatement label body)

/-- An expression as a statement, or a label and its statement. -/
def expressionOrLabeled (reach : Reach) : Parse Node := do
  let marker ← start
  let e ← expression reach
  let plain : Parse Node := do
    eatSemicolon
    finish marker (.expressionStatement e none)
  match e.name? with
  | some name => if ← at? .colon then labeled reach marker e name else plain
  | none => plain

/-- A conditional statement. -/
def ifStatement (reach : Reach) : Parse Node := do
  let marker ← start
  discard advance
  let test ← parenthesized reach
  let consequent ← reach .statement
  let alternate ← if ← eatIfWord .elseWord then some <$> reach .statement else pure none
  finish marker (.ifStatement test consequent alternate)

/-- A statement with an object in scope, which strict code does not allow. -/
def withStatement (reach : Reach) : Parse Node := do
  let marker ← start
  if (← get).strict then fail "'with' in strict mode"
  else
    discard advance
    let object ← parenthesized reach
    let body ← reach .statement
    finish marker (.withStatement object body)

/-! ## 2. Loops -/

def loopBody (reach : Reach) : Parse Node := do
  modify fun p => { p with iterations := p.iterations + 1 }
  let body ← reach .statement
  modify fun p => { p with iterations := p.iterations - 1 }
  pure body

/-- A loop with its test in front. -/
def whileStatement (reach : Reach) : Parse Node := do
  let marker ← start
  discard advance
  let test ← parenthesized reach
  let body ← loopBody reach
  finish marker (.whileStatement test body)

/-- A loop with its test at the end; the semicolon after it is optional. -/
def doWhileStatement (reach : Reach) : Parse Node := do
  let marker ← start
  discard advance
  let body ← loopBody reach
  eatWord .whileWord
  let test ← parenthesized reach
  discard (eatIf .semicolon)
  finish marker (.doWhileStatement body test)

/-- A loop over keys, from its `in` on. -/
def forInRest (reach : Reach) (marker : Marker) (left : Node) : Parse Node := do
  discard advance
  let right ← expression reach
  eat .rightParen
  let body ← loopBody reach
  finish marker (.forInStatement left right body)

/-- A counting loop, from its first semicolon on. -/
def forRest (reach : Reach) (marker : Marker) (init : Option Node) : Parse Node := do
  eat .semicolon
  let test ← if ← at? .semicolon then pure none else some <$> expression reach
  eat .semicolon
  let update ← if ← at? .rightParen then pure none else some <$> expression reach
  eat .rightParen
  let body ← loopBody reach
  finish marker (.forStatement init test update body)

/-- The declaration in the head of a loop over keys: one variable without a value. -/
def checkForInHead (declaration : Node) : Parse Unit := do
  match declaration.kind with
  | .variableDeclaration [.mk (.variableDeclarator _ (some _)) _] _ =>
    fail "for-in loop variable declaration may not have an initializer"
  | .variableDeclaration [_] _ => pure ()
  | .variableDeclaration _ _ => fail "Only a single variable is allowed in a for-in loop head"
  | _ => unexpected

/-- A production in the head of a loop, where `in` is no operator. -/
def withoutIn {α : Type} (production : Parse α) : Parse α := do
  modify fun p => { p with noIn := true }
  let result ← production
  modify fun p => { p with noIn := false }
  pure result

/-- A loop that starts with `for`. -/
def forStatement (reach : Reach) : Parse Node := do
  let marker ← start
  discard advance
  eat .leftParen
  let declares :=
    match ← ahead with
    | .keyword .varWord => true
    | .keyword .letWord => true
    | .keyword .constWord => true
    | _ => false
  if ← at? .semicolon then forRest reach marker none
  else
    let head ←
      withoutIn (if declares then variableDeclaration reach true else expression reach)
    if ← atOf then unsupported "for-of loops"
    else if ← atWord? .inWord then
      if declares then
        checkForInHead head
        forInRest reach marker head
      else forInRest reach marker (← assignmentTarget true head)
    else forRest reach marker (some head)

/-! ## 3. Jumps -/

def checkJump (marker : Marker) (isBreak : Bool) (label : Option String) : Parse Unit := do
  let p ← get
  let place := some marker.position
  match label with
  | some name =>
    match p.labels.reverse.lookup name with
    | none => failAt ("Undefined label '" ++ name ++ "'") place
    | some isLoop =>
      if !isLoop && !isBreak then
        failAt ("Illegal continue statement: '" ++ name ++
          "' does not denote an iteration statement") place
  | none =>
    if p.iterations = 0 && (!isBreak || p.switches = 0) then
      failAt ("Illegal " ++ (if isBreak then "break" else "continue") ++ " statement") place

/-- A jump out of a loop, a switch or a labeled statement, or to the next round of a loop. -/
def jumpStatement : Parse Node := do
  let marker ← start
  let isBreak := (← advance).isWord .breakWord
  let label ← optionalLabel
  checkJump marker isBreak (label.bind Node.name?)
  eatSemicolon
  finish marker (if isBreak then .breakStatement label else .continueStatement label)

/-- A return from a function, or from a program where that is allowed. -/
def returnStatement (reach : Reach) : Parse Node := do
  let marker ← start
  let p ← get
  if p.functions = 0 && !p.allowReturn then fail "'return' outside of function"
  else
    discard advance
    let p ← get
    let ends :=
      p.afterBreak || p.current.isMark .semicolon || p.current.isMark .rightBrace ||
        p.current.isEof
    let argument ← if ends then pure none else some <$> expression reach
    eatSemicolon
    finish marker (.returnStatement argument)

/-- A throw, with its value on the same line. -/
def throwStatement (reach : Reach) : Parse Node := do
  let marker ← start
  discard advance
  if (← get).afterBreak then fail "Illegal newline after throw"
  else
    let argument ← expression reach
    eatSemicolon
    finish marker (.throwStatement argument)

/-! ## 4. Switches and faults -/

/-- Whether the items of a case go on. -/
def caseGoesOn : Parse Bool := do
  match ← ahead with
  | .keyword .caseWord => pure false
  | .keyword .defaultWord => pure false
  | .punctuator .rightBrace => pure false
  | _ => pure true

/-- The cases of a switch up to its closing brace, in reverse; there is one default at most. -/
def switchCases (reach : Reach) : Nat → Bool → List Node → Parse (List Node)
  | 0, _, acc => pure acc
  | fuel + 1, hasDefault, acc => do
    if ← at? .rightBrace then pure acc
    else
      let marker ← start
      let (test, isDefault) ←
        match ← advance with
        | .keyword .caseWord => do pure (some (← expression reach), false)
        | .keyword .defaultWord =>
          if hasDefault then failAt "Multiple default clauses" (some marker.position)
          else pure (none, true)
        | _ => failAt "Unexpected token in switch body" (some marker.position)
      eat .colon
      let consequent ← items reach caseGoesOn
      let case ← finish marker (.switchCase test consequent)
      switchCases reach fuel (hasDefault || isDefault) (case :: acc)

def switchStatement (reach : Reach) : Parse Node := do
  let marker ← start
  discard advance
  let discriminant ← parenthesized reach
  eat .leftBrace
  modify fun p => { p with switches := p.switches + 1 }
  let cases ← switchCases reach ((← get).lexer.fuel + 1) false []
  modify fun p => { p with switches := p.switches - 1 }
  eat .rightBrace
  finish marker (.switchStatement discriminant cases.reverse)

/-- The clause that catches what a block throws. -/
def catchClause (reach : Reach) : Parse Node := do
  let marker ← start
  discard advance
  let param ←
    if ← eatIf .leftParen then do
      let param ← reach .bindingTarget
      eat .rightParen
      pure (some param)
    else pure none
  let body ← block reach
  finish marker (.catchClause param body)

/-- A block with a clause that catches, a block that ends it, or both. -/
def tryStatement (reach : Reach) : Parse Node := do
  let marker ← start
  discard advance
  let body ← block reach
  let handler ← if ← atWord? .catchWord then some <$> catchClause reach else pure none
  let finalizer ← if ← eatIfWord .finallyWord then some <$> block reach else pure none
  if handler.isNone && finalizer.isNone then fail "Missing catch or finally after try"
  else finish marker (.tryStatement body handler finalizer)

/-! ## 5. Statements and items -/

def statement (reach : Reach) : Parse Node := do
  let marker ← start
  match ← ahead with
  | .punctuator .leftBrace => block reach
  | .punctuator .semicolon =>
    discard advance
    finish marker .emptyStatement
  | .keyword .varWord => variableStatement reach
  | .keyword .ifWord => ifStatement reach
  | .keyword .forWord => forStatement reach
  | .keyword .whileWord => whileStatement reach
  | .keyword .doWord => doWhileStatement reach
  | .keyword .breakWord => jumpStatement
  | .keyword .continueWord => jumpStatement
  | .keyword .returnWord => returnStatement reach
  | .keyword .withWord => withStatement reach
  | .keyword .switchWord => switchStatement reach
  | .keyword .throwWord => throwStatement reach
  | .keyword .tryWord => tryStatement reach
  | .keyword .debuggerWord =>
    discard advance
    eatSemicolon
    finish marker .debuggerStatement
  | .keyword .functionWord =>
    if (← get).strict then
      fail "Lexical declaration cannot appear in a single-statement context"
    else function reach marker .declaration
  | .keyword .letWord => fail "Lexical declaration cannot appear in a single-statement context"
  | .keyword .constWord => fail "Lexical declaration cannot appear in a single-statement context"
  | .keyword .classWord => fail "Lexical declaration cannot appear in a single-statement context"
  | .keyword .importWord => unsupported "Modules"
  | .keyword .exportWord => unsupported "Modules"
  | .keyword .enumWord => fail "The keyword 'enum' is reserved"
  | _ => expressionOrLabeled reach

/-- A statement or a declaration. -/
def item (reach : Reach) : Parse Node := do
  let marker ← start
  match ← ahead with
  | .keyword .functionWord => function reach marker .declaration
  | .keyword .classWord => classLike reach marker .declaration
  | .keyword .letWord => variableStatement reach
  | .keyword .constWord => variableStatement reach
  | _ => reach .statement

end GuestScript.Parser
