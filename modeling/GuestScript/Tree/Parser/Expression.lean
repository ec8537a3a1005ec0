import GuestScript.Tree.Parser.Declaration

/-!
# Expressions

Operators are read by climbing their precedences; all of them lean to the left but the power. What stands
between parentheses is read as expressions and turned into parameters when an arrow follows.
-/

namespace GuestScript.Parser

/-! ## 1. Operators -/

def assignmentOperator? : Token → Option AssignmentOperator
  | .punctuator .assign => some .plain
  | .punctuator .plusAssign => some .add
  | .punctuator .minusAssign => some .subtract
  | .punctuator .starAssign => some .multiply
  | .punctuator .slashAssign => some .divide
  | .punctuator .percentAssign => some .remainder
  | .punctuator .exponentAssign => some .power
  | .punctuator .leftShiftAssign => some .shiftLeft
  | .punctuator .rightShiftAssign => some .shiftRight
  | .punctuator .zeroRightShiftAssign => some .shiftRightZero
  | .punctuator .ampersandAssign => some .bitAnd
  | .punctuator .pipeAssign => some .bitOr
  | .punctuator .caretAssign => some .bitXor
  | .punctuator .logicalAndAssign => some .and
  | .punctuator .logicalOrAssign => some .or
  | .punctuator .nullishAssign => some .nullish
  | _ => none

/-- An operator between two operands. -/
inductive Infix where
  | binary (operator : BinaryOperator)
  | logical (operator : LogicalOperator)

/-- The operator that a token stands for, and its precedence. -/
def infix? (noIn : Bool) : Token → Option (Infix × Nat)
  | .punctuator .nullish => some (.logical .nullish, 1)
  | .punctuator .logicalOr => some (.logical .or, 1)
  | .punctuator .logicalAnd => some (.logical .and, 2)
  | .punctuator .pipe => some (.binary .bitOr, 3)
  | .punctuator .caret => some (.binary .bitXor, 4)
  | .punctuator .ampersand => some (.binary .bitAnd, 5)
  | .punctuator .equal => some (.binary .equal, 6)
  | .punctuator .notEqual => some (.binary .notEqual, 6)
  | .punctuator .strictEqual => some (.binary .strictEqual, 6)
  | .punctuator .strictNotEqual => some (.binary .strictNotEqual, 6)
  | .punctuator .less => some (.binary .less, 7)
  | .punctuator .lessEqual => some (.binary .lessEqual, 7)
  | .punctuator .greater => some (.binary .greater, 7)
  | .punctuator .greaterEqual => some (.binary .greaterEqual, 7)
  | .keyword .instanceofWord => some (.binary .instanceOf, 7)
  | .keyword .inWord => if noIn then none else some (.binary .inside, 7)
  | .punctuator .leftShift => some (.binary .shiftLeft, 8)
  | .punctuator .rightShift => some (.binary .shiftRight, 8)
  | .punctuator .zeroRightShift => some (.binary .shiftRightZero, 8)
  | .punctuator .plus => some (.binary .add, 9)
  | .punctuator .minus => some (.binary .subtract, 9)
  | .punctuator .star => some (.binary .multiply, 10)
  | .punctuator .slash => some (.binary .divide, 10)
  | .punctuator .percent => some (.binary .remainder, 10)
  | .punctuator .exponent => some (.binary .power, 11)
  | _ => none

/-- The precedence that the operators on the right side of one must exceed: a power takes further powers
into its right side, every other operator leaves its equals to the left. -/
def Infix.rightPrecedence (operator : Infix) (precedence : Nat) : Nat :=
  match operator with
  | .binary .power => precedence - 1
  | _ => precedence

def Infix.kind (operator : Infix) (left right : Node) : Kind :=
  match operator with
  | .binary o => .binaryExpression o left right
  | .logical o => .logicalExpression o left right

def unaryOperator? : Token → Option UnaryOperator
  | .punctuator .minus => some .minus
  | .punctuator .plus => some .plus
  | .punctuator .bang => some .not
  | .punctuator .tilde => some .bitNot
  | .keyword .typeofWord => some .typeOf
  | .keyword .voidWord => some .void
  | .keyword .deleteWord => some .delete
  | _ => none

def updateOperator? : Token → Option UpdateOperator
  | .punctuator .increment => some .increment
  | .punctuator .decrement => some .decrement
  | _ => none

/-! ## 2. Lists of expressions -/

/-- Further expressions after a comma each, in reverse. -/
def moreExpressions (reach : Reach) : Nat → List Node → Parse (List Node)
  | 0, acc => pure acc
  | fuel + 1, acc => do
    if ← eatIf .comma then moreExpressions reach fuel ((← reach .assignment) :: acc) else pure acc

/-- Expressions that commas may join. -/
def expression (reach : Reach) : Parse Node := do
  let marker ← start
  let first ← reach .assignment
  if ← at? .comma then
    let expressions ← moreExpressions reach ((← get).lexer.fuel + 1) [first]
    finish marker (.sequenceExpression expressions.reverse)
  else pure first

/-- An expression, or a spread of one. -/
def spreadOrAssignment (reach : Reach) : Parse Node := do
  if ← at? .ellipsis then
    let marker ← start
    discard advance
    finish marker (.spreadElement (← reach .assignment))
  else reach .assignment

/-- Arguments up to the closing parenthesis, in reverse. -/
def argumentItems (reach : Reach) : Nat → List Node → Parse (List Node)
  | 0, acc => pure acc
  | fuel + 1, acc => do
    if ← at? .rightParen then pure acc
    else
      let item ← spreadOrAssignment reach
      if ← eatIf .comma then argumentItems reach fuel (item :: acc) else pure (item :: acc)

/-- The arguments of a call. -/
def arguments (reach : Reach) : Parse (List Node) := do
  eat .leftParen
  withIn do
    let items ← argumentItems reach ((← get).lexer.fuel + 1) []
    eat .rightParen
    pure items.reverse

/-! ## 3. Templates -/

/-- The pieces and the substitutions of a template, in reverse. -/
def templateParts (reach : Reach) (tagged : Bool) :
    Nat → List Node → List Node → Parse (List Node × List Node)
  | 0, _, _ => unexpected
  | fuel + 1, quasis, expressions => do
    let marker ← start
    match ← advance with
    | .template place cooked raw =>
      if cooked.isNone && !tagged then
        failAt "Bad escape sequence in untagged template literal" (some marker.position)
      else
        let isTail := place = .whole || place = .tail
        let quasi ← finish marker (.templateElement raw cooked isTail)
        if isTail then pure (quasi :: quasis, expressions)
        else
          let e ← withIn (expression reach)
          if ← at? .rightBrace then
            rescan (← lex Lexer.templateRest)
            templateParts reach tagged fuel (quasi :: quasis) (e :: expressions)
          else unexpected
    | _ => unexpected

def template (reach : Reach) (tagged : Bool) : Parse Node := do
  requireModern "Template literals"
  let marker ← start
  let (quasis, expressions) ← templateParts reach tagged ((← get).lexer.fuel + 1) [] []
  finish marker (.templateLiteral quasis.reverse expressions.reverse)

/-! ## 4. Literals of arrays and objects -/

/-- The elements of an array literal up to its closing bracket, in reverse. -/
def arrayElements (reach : Reach) : Nat → List (Option Node) → Parse (List (Option Node))
  | 0, acc => pure acc
  | fuel + 1, acc => do
    if ← at? .rightBracket then pure acc
    else if ← eatIf .comma then arrayElements reach fuel (none :: acc)
    else
      let element ← spreadOrAssignment reach
      eatSeparator .rightBracket
      arrayElements reach fuel (some element :: acc)

def arrayLiteral (reach : Reach) : Parse Node := do
  let marker ← start
  eat .leftBracket
  let elements ← withIn do
    let elements ← arrayElements reach ((← get).lexer.fuel + 1) []
    eat .rightBracket
    pure elements
  finish marker (.arrayExpression elements.reverse)

/-- A property of an object literal after its key, when it is no accessor and no method. A default value
may follow a lone name, which makes sense in a pattern only. -/
def plainProperty (reach : Reach) (marker : Marker) (key : Node) (computed : Bool) : Parse Node := do
  if ← eatIf .colon then
    let value ← reach .assignment
    finish marker (.property key value .init false false computed)
  else
    let name ← shorthandName key computed
    let value ←
      if ← eatIf .assign then do
        let right ← reach .assignment
        finish marker (.assignmentPattern key right)
      else pure (.mk (.identifier name) key.span)
    finish marker (.property key value .init false true computed)

def objectProperty (reach : Reach) : Parse Node := do
  let marker ← start
  if ← at? .ellipsis then spreadOrAssignment reach
  else if ← at? .star then unsupported "Generators"
  else
    let (key, computed) ← propertyKey reach
    let modifier := if computed then none else key.name?
    let isModifier :=
      (modifier == some "get" || modifier == some "set" || modifier == some "async") &&
        (← afterModifier)
    if isModifier && modifier == some "async" then unsupported "Async functions"
    else
      let (kind, key, computed) ←
        if isModifier then do
          let (key, computed) ← propertyKey reach
          pure (if modifier == some "get" then PropertyKind.get else .set, key, computed)
        else pure (PropertyKind.init, key, computed)
      let isMethod ← at? .leftParen
      if kind ≠ .init || isMethod then
        let value ← method reach marker
        checkAccessor kind value
        finish marker (.property key value kind (kind = .init) false computed)
      else plainProperty reach marker key computed

/-- The properties of an object literal up to its closing brace, in reverse. -/
def objectProperties (reach : Reach) : Nat → List Node → Parse (List Node)
  | 0, acc => pure acc
  | fuel + 1, acc => do
    if ← at? .rightBrace then pure acc
    else
      let property ← objectProperty reach
      eatSeparator .rightBrace
      objectProperties reach fuel (property :: acc)

def objectLiteral (reach : Reach) : Parse Node := do
  let marker ← start
  eat .leftBrace
  let properties ← withIn do
    let properties ← objectProperties reach ((← get).lexer.fuel + 1) []
    eat .rightBrace
    pure properties
  finish marker (.objectExpression properties.reverse)

/-! ## 5. Parentheses -/

/-- What stands between parentheses: expressions, a rest, and whether the last comma has nothing after
it. -/
structure Parenthesized where
  items : List Node
  rest : Option Node
  trailingComma : Bool

/-- The items between parentheses, in reverse. -/
def parenthesizedItems (reach : Reach) : Nat → Parenthesized → Parse Parenthesized
  | 0, acc => pure acc
  | fuel + 1, acc => do
    if ← at? .rightParen then pure acc
    else if ← at? .ellipsis then pure { acc with rest := some (← restElement reach) }
    else
      let item ← reach .assignment
      let acc := { acc with items := item :: acc.items }
      if ← eatIf .comma then
        let trailing ← at? .rightParen
        parenthesizedItems reach fuel { acc with trailingComma := trailing }
      else pure acc

/-- Expressions that were between parentheses, as one expression. -/
def sequenceOf (items : List Node) : Option Node :=
  match items with
  | [] => none
  | [item] => some item
  | first :: more =>
    let last := more.getLast?.getD first
    let origin : Position := { line := 0, column := 0 }
    some (.mk (.sequenceExpression items)
      { start := first.span.start
        stop := last.span.stop
        loc := some (first.position.getD origin, (last.span.loc.map Prod.snd).getD origin) })

/-- A parenthesized expression, or an arrow function. -/
def parenOrArrow (reach : Reach) : Parse Node := do
  let marker ← start
  eat .leftParen
  let inner ← withIn do
    let inner ←
      parenthesizedItems reach ((← get).lexer.fuel + 1)
        { items := [], rest := none, trailingComma := false }
    eat .rightParen
    pure inner
  let items := inner.items.reverse
  let p ← get
  if p.current.isMark .arrow && !p.afterBreak then
    let params ← items.mapM pattern
    let params := params ++ inner.rest.toList
    (params.flatMap Node.boundNames).forM checkBinding
    arrowBody reach marker params
  else if inner.rest.isSome || inner.trailingComma then unexpected
  else
    match sequenceOf items with
    | some e => pure e
    | none => unexpected

/-! ## 6. Primary expressions -/

/-- A regular expression, from its slash on. -/
def regexLiteral (marker : Marker) (taken : String) : Parse Node := do
  rescan (← lex (Lexer.regex taken))
  match ← advance with
  | .regex pattern flags =>
    finish marker
      (.literal .null (some ("/" ++ pattern ++ "/" ++ flags))
        (some { pattern := pattern, flags := flags }))
  | _ => unexpected

/-- A name, or an arrow function with one parameter. -/
def nameOrArrow (reach : Reach) (marker : Marker) : Parse Node := do
  let id ← identifier
  let p ← get
  let functionAhead :=
    match p.current with
    | .keyword .functionWord => true
    | .identifier _ => true
    | _ => false
  if id.name? == some "async" && !p.afterBreak && functionAhead then unsupported "Async functions"
  else if p.current.isMark .arrow && !p.afterBreak then
    match id.name? with
    | some name => checkBinding name
    | none => pure ()
    arrowBody reach marker [id]
  else pure id

/-- The word `super`, which stands in functions only and before an access or a call. -/
def superWord (marker : Marker) : Parse Node := do
  discard advance
  let p ← get
  let followed :=
    p.current.isMark .leftParen || p.current.isMark .dot || p.current.isMark .leftBracket
  if p.functions = 0 || !followed then
    failAt "'super' keyword unexpected here" (some marker.position)
  else finish marker .super

/-- A primary expression. -/
def primary (reach : Reach) : Parse Node := do
  let marker ← start
  match ← ahead with
  | .keyword .thisWord =>
    discard advance
    finish marker .thisExpression
  | .keyword .superWord => superWord marker
  | .identifier _ => nameOrArrow reach marker
  | .keyword .yieldWord => nameOrArrow reach marker
  | .number x =>
    if x.isInf then
      discard advance
      finish marker (.identifier "Infinity")
    else literal (numberValue x)
  | .string s => literal (.string s)
  | .boolean b => literal (.bool b)
  | .null => literal .null
  | .punctuator .slash => regexLiteral marker ""
  | .punctuator .slashAssign => regexLiteral marker "="
  | .template .whole _ _ => template reach false
  | .template .head _ _ => template reach false
  | .punctuator .leftParen => parenOrArrow reach
  | .punctuator .leftBracket => arrayLiteral reach
  | .punctuator .leftBrace => objectLiteral reach
  | .keyword .functionWord => function reach marker .expression
  | .keyword .classWord => classLike reach marker .expression
  | .keyword .importWord => unsupported "Modules"
  | .punctuator .hash => unsupported "Private class members"
  | _ => unexpected

/-! ## 7. Accesses and calls -/

/-- The name after a dot. -/
def memberName : Parse Node := do
  if ← at? .hash then unsupported "Private class members"
  else
    let marker ← start
    match ← propertyNameAhead with
    | none => unexpected
    | some name =>
      discard advance
      finish marker (.identifier name)

/-- Accesses, calls and tagged templates after an expression; the answer says whether one of them is
optional. -/
def subscripts (reach : Reach) (marker : Marker) (noCalls : Bool) :
    Nat → Node → Bool → Parse (Node × Bool)
  | 0, e, chained => pure (e, chained)
  | fuel + 1, e, chained => do
    let optional ← at? .optionalChain
    if optional && noCalls then fail "Invalid optional chain from new expression"
    else
      if optional then discard advance
      let chained := chained || optional
      let byName : Parse (Node × Bool) := do
        let name ← memberName
        let e ← finish marker (.memberExpression e name false optional)
        subscripts reach marker noCalls fuel e chained
      let otherwise : Parse (Node × Bool) := if optional then byName else pure (e, chained)
      let tagged : Parse (Node × Bool) := do
        if chained then
          fail "Optional chaining cannot appear in the tag of tagged template expressions"
        else
          let quasi ← template reach true
          let e ← finish marker (.taggedTemplateExpression e quasi)
          subscripts reach marker noCalls fuel e chained
      match ← ahead with
      | .punctuator .dot =>
        if optional then otherwise
        else
          discard advance
          byName
      | .punctuator .leftBracket =>
        discard advance
        let property ← withIn (expression reach)
        eat .rightBracket
        let e ← finish marker (.memberExpression e property true optional)
        subscripts reach marker noCalls fuel e chained
      | .punctuator .leftParen =>
        if noCalls then otherwise
        else
          let args ← arguments reach
          let e ← finish marker (.callExpression e args optional)
          subscripts reach marker noCalls fuel e chained
      | .template .whole _ _ => if optional then otherwise else tagged
      | .template .head _ _ => if optional then otherwise else tagged
      | _ => otherwise

/-- An expression with the accesses and calls after it. A chain that holds an optional one is marked as
a whole. -/
def withSubscripts (reach : Reach) (marker : Marker) (e : Node) (noCalls : Bool) : Parse Node := do
  let (e, chained) ← subscripts reach marker noCalls ((← get).lexer.fuel + 1) e false
  if chained then finish marker (.chainExpression e) else pure e

/-- An expression that starts with `new`. -/
def newExpression (reach : Reach) : Parse Node := do
  let marker ← start
  discard advance
  if ← at? .dot then fail "new.target is not supported"
  else
    let calleeMarker ← start
    let callee ← if ← atWord? .newWord then reach .newExpression else primary reach
    let callee ← withSubscripts reach calleeMarker callee true
    let args ← if ← at? .leftParen then arguments reach else pure []
    finish marker (.newExpression callee args)

/-- A primary expression or one that starts with `new`, with the accesses and calls after it. -/
def leftHandSide (reach : Reach) : Parse Node := do
  let marker ← start
  let base ← if ← atWord? .newWord then newExpression reach else primary reach
  withSubscripts reach marker base false

/-! ## 8. Operations -/

/-- An operand with the operators before it, or one after it. -/
def unary (reach : Reach) : Parse Node := do
  let marker ← start
  let token ← ahead
  match unaryOperator? token with
  | some operator =>
    discard advance
    let argument ← reach .unary
    if (← get).strict && operator = .delete && argument.name?.isSome then
      failAt "Deleting local variable in strict mode" (some marker.position)
    else finish marker (.unaryExpression operator true argument)
  | none =>
    match updateOperator? token with
    | some operator =>
      discard advance
      let argument ← reach .unary
      checkSimpleTarget argument
      finish marker (.updateExpression operator true argument)
    | none =>
      let e ← leftHandSide reach
      let p ← get
      match (if p.afterBreak then none else updateOperator? p.current) with
      | some operator =>
        checkSimpleTarget e
        discard advance
        finish marker (.updateExpression operator false e)
      | none => pure e

/-- The operators above a precedence after a left side. -/
def binaryRest (reach : Reach) (marker : Marker) : Nat → Node → Nat → Parse Node
  | 0, left, _ => pure left
  | fuel + 1, left, least => do
    let p ← get
    match infix? p.noIn p.current with
    | none => pure left
    | some (operator, precedence) =>
      if precedence ≤ least then pure left
      else
        discard advance
        let rightMarker ← start
        let operand ← unary reach
        let right ←
          reach (.binaryRest rightMarker operand (operator.rightPrecedence precedence))
        let left ← finish marker (operator.kind left right)
        binaryRest reach marker fuel left least

/-- The operators above a precedence after a left side, as far as the text goes. -/
def binaryRestFrom (reach : Reach) (marker : Marker) (left : Node) (least : Nat) : Parse Node := do
  binaryRest reach marker ((← get).lexer.fuel + 1) left least

/-- A conditional expression. -/
def conditional (reach : Reach) : Parse Node := do
  let marker ← start
  let operand ← unary reach
  let test ← binaryRestFrom reach marker operand 0
  if ← eatIf .question then
    let consequent ← withIn (reach .assignment)
    eat .colon
    let alternate ← reach .assignment
    finish marker (.conditionalExpression test consequent alternate)
  else pure test

/-- An assignment, or an expression without one. -/
def assignment (reach : Reach) : Parse Node := do
  let marker ← start
  let left ← conditional reach
  if ← at? .arrow then
    match left.kind with
    | .callExpression callee _ _ =>
      if callee.name? == some "async" then unsupported "Async functions" else unexpected
    | _ => unexpected
  else
    match assignmentOperator? (← ahead) with
    | none => pure left
    | some operator =>
      let left ← assignmentTarget (operator = .plain) left
      discard advance
      let right ← reach .assignment
      finish marker (.assignmentExpression operator left right)

end GuestScript.Parser
