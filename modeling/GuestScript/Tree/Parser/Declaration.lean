import GuestScript.Tree.Parser.Pattern

/-!
# Declarations

Variables, patterns, functions and classes. Class bodies are strict, and a function starts a context of
its own for loops, switches and labels.
-/

namespace GuestScript.Parser

/-! ## 1. Property keys -/

/-- The key of a property, and whether it is computed. -/
def propertyKey (reach : Reach) : Parse (Node × Bool) := do
  let marker ← start
  match ← ahead with
  | .punctuator .leftBracket =>
    discard advance
    let key ← withIn (reach .assignment)
    eat .rightBracket
    pure (key, true)
  | .string s => pure (← literal (.string s), false)
  | .number x => pure (← literal (numberValue x), false)
  | .punctuator .hash => unsupported "Private class members"
  | _ =>
    match ← propertyNameAhead with
    | none => unexpected
    | some name =>
      discard advance
      pure (← finish marker (.identifier name), false)

/-- Whether the token ahead lets `get`, `set` or `static` be a modifier and not a key itself. -/
def afterModifier : Parse Bool := do
  match ← ahead with
  | .punctuator .leftParen => pure false
  | .punctuator .colon => pure false
  | .punctuator .comma => pure false
  | .punctuator .rightBrace => pure false
  | .punctuator .assign => pure false
  | .punctuator .semicolon => pure false
  | _ => pure true

def keyName? (key : Node) : Option String :=
  match key.kind with
  | .identifier name => some name
  | .literal (.string s) _ _ => some s
  | _ => none

/-! ## 2. Patterns -/

/-- A bound target with an optional default value. -/
def bindingElement (reach : Reach) : Parse Node := do
  let marker ← start
  let target ← reach .bindingTarget
  if ← eatIf .assign then
    let right ← withIn (reach .assignment)
    finish marker (.assignmentPattern target right)
  else pure target

/-- The rest of an array or of the parameters. -/
def restElement (reach : Reach) : Parse Node := do
  let marker ← start
  eat .ellipsis
  let argument ← reach .bindingTarget
  if ← at? .assign then fail "Rest elements cannot have a default value"
  else finish marker (.restElement argument)

/-- Take a comma unless a closing mark is ahead. -/
def eatSeparator (close : Punctuator) : Parse Unit := do
  if ← at? close then pure () else eat .comma

/-- The elements of a list that may end in a rest element, up to its closing mark. The answer is in
reverse. -/
def restList {α : Type} (close : Punctuator) (rest element : Parse α) :
    Nat → List α → Parse (List α)
  | 0, acc => pure acc
  | fuel + 1, acc => do
    if ← at? close then pure acc
    else if ← at? .ellipsis then pure ((← rest) :: acc)
    else
      let e ← element
      eatSeparator close
      restList close rest element fuel (e :: acc)

/-- The elements of an array pattern, in reverse. -/
def arrayPatternElements (reach : Reach) : Nat → List (Option Node) → Parse (List (Option Node))
  | 0, acc => pure acc
  | fuel + 1, acc => do
    if ← at? .rightBracket then pure acc
    else if ← eatIf .comma then arrayPatternElements reach fuel (none :: acc)
    else if ← at? .ellipsis then pure (some (← restElement reach) :: acc)
    else
      let e ← bindingElement reach
      eatSeparator .rightBracket
      arrayPatternElements reach fuel (some e :: acc)

def arrayPattern (reach : Reach) : Parse Node := do
  let marker ← start
  eat .leftBracket
  let elements ← arrayPatternElements reach ((← get).lexer.fuel + 1) []
  eat .rightBracket
  finish marker (.arrayPattern elements.reverse)

/-- The name of a shorthand property, which must not be reserved. -/
def shorthandName (key : Node) (computed : Bool) : Parse String := do
  match key.kind, computed with
  | .identifier name, false => if isReserved name (← get).strict then unexpected else pure name
  | _, _ => unexpected

def patternProperty (reach : Reach) : Parse Node := do
  let marker ← start
  let (key, computed) ← propertyKey reach
  if ← eatIf .colon then
    let value ← bindingElement reach
    finish marker (.property key value .init false false computed)
  else
    let name ← shorthandName key computed
    checkBinding name
    let id : Node := .mk (.identifier name) key.span
    let value ←
      if ← eatIf .assign then do
        let right ← withIn (reach .assignment)
        finish marker (.assignmentPattern id right)
      else pure id
    finish marker (.property key value .init false true false)

/-- The rest of an object pattern, which is a plain name. -/
def objectRest : Parse Node := do
  let marker ← start
  discard advance
  let argument ← bindingIdentifier
  finish marker (.restElement argument)

def objectPattern (reach : Reach) : Parse Node := do
  let marker ← start
  eat .leftBrace
  let properties ←
    restList .rightBrace objectRest (patternProperty reach) ((← get).lexer.fuel + 1) []
  eat .rightBrace
  finish marker (.objectPattern properties.reverse)

/-- A name or a pattern that is bound. -/
def bindingTarget (reach : Reach) : Parse Node := do
  if ← at? .leftBracket then
    requireModern "Destructuring patterns"
    arrayPattern reach
  else if ← at? .leftBrace then
    requireModern "Destructuring patterns"
    objectPattern reach
  else bindingIdentifier

/-! ## 3. Variables -/

/-- Whether the token ahead is the word `of`, which is no reserved word. -/
def atOf : Parse Bool := do
  match ← ahead with
  | .identifier name => pure (name == "of")
  | _ => pure false

/-- The value that a variable starts with. In the head of a loop over keys it is left out; elsewhere
constants and patterns need one. -/
def initializer (reach : Reach) (kind : VariableKind) (inHead : Bool) (id : Node) :
    Parse (Option Node) := do
  if ← eatIf .assign then pure (some (← reach .assignment))
  else
    let isIn ← atWord? .inWord
    let isOf ← atOf
    if inHead && (isIn || isOf) then pure none
    else if kind = .const then fail "Missing initializer in const declaration"
    else if id.name?.isNone then fail "Missing initializer in destructuring declaration"
    else pure none

def declarator (reach : Reach) (kind : VariableKind) (inHead : Bool) : Parse Node := do
  let marker ← start
  let id ← reach .bindingTarget
  if kind ≠ .var && id.boundNames.contains "let" then
    failAt "let is disallowed as a lexically bound name" id.position
  else
    let init ← initializer reach kind inHead id
    finish marker (.variableDeclarator id init)

/-- Further variables after a comma each, in reverse. -/
def moreDeclarators (reach : Reach) (kind : VariableKind) (inHead : Bool) :
    Nat → List Node → Parse (List Node)
  | 0, acc => pure acc
  | fuel + 1, acc => do
    if ← eatIf .comma then
      moreDeclarators reach kind inHead fuel ((← declarator reach kind inHead) :: acc)
    else pure acc

/-- A declaration of variables without the semicolon after it. -/
def variableDeclaration (reach : Reach) (inHead : Bool) : Parse Node := do
  let marker ← start
  let kind : VariableKind ←
    match ← ahead with
    | .keyword .varWord => pure .var
    | .keyword .letWord => pure .let
    | .keyword .constWord => pure .const
    | _ => unexpected
  if kind ≠ .var then requireModern "Lexical declarations"
  discard advance
  let first ← declarator reach kind inHead
  let declarators ← moreDeclarators reach kind inHead ((← get).lexer.fuel + 1) [first]
  finish marker (.variableDeclaration declarators.reverse kind)

/-! ## 4. Functions -/

/-- Statements up to an end, the directives first. A directive is a string that stands alone; the
directive `use strict` makes the rest strict, up to the end of a function. -/
def bodyItems (reach : Reach) (atEnd : Parse Bool) : Nat → Bool → List Node → Parse (List Node)
  | 0, _, acc => pure acc
  | fuel + 1, prologue, acc => do
    if ← atEnd then pure acc
    else
      let before ← get
      let isString := match before.current with | .string _ => true | _ => false
      let item ← reach .item
      match prologue, item with
      | true, .mk (.expressionStatement (.mk (.literal v raw regex) inner) _) span =>
        if isString then
          let text ← sourceSlice (before.currentStart + 1) (inner.stop - 1)
          if text = "use strict" then modify fun p => { p with strict := true }
          bodyItems reach atEnd fuel true
            (.mk (.expressionStatement (.mk (.literal v raw regex) inner) (some text)) span :: acc)
        else bodyItems reach atEnd fuel false (item :: acc)
      | _, _ => bodyItems reach atEnd fuel false (item :: acc)

/-- The body of a function; strictness ends with it. -/
def functionBody (reach : Reach) : Parse Node := do
  let marker ← start
  eat .leftBrace
  let strict := (← get).strict
  let body ← bodyItems reach (at? .rightBrace) ((← get).lexer.fuel + 1) true []
  modify fun p => { p with strict := strict }
  eat .rightBrace
  finish marker (.blockStatement body.reverse)

/-- The parameters of a function. -/
def parameters (reach : Reach) : Parse (List Node) := do
  eat .leftParen
  let params ←
    restList .rightParen (restElement reach) (bindingElement reach) ((← get).lexer.fuel + 1) []
  eat .rightParen
  pure params.reverse

def functionRest (reach : Reach) (form : FunctionForm) (id : Option Node) : Parse Kind :=
  inFunction do
    let params ← parameters reach
    let body ← functionBody reach
    pure (.function form id params body {})

def function (reach : Reach) (marker : Marker) (form : FunctionForm) : Parse Node := do
  eatWord .functionWord
  if ← at? .star then unsupported "Generators"
  else
    let named ← if form = .declaration then pure true else notAt .leftParen
    let id ← if named then some <$> bindingIdentifier else pure none
    finish marker (← functionRest reach form id)

/-- A method: the parameters and the body after its key. -/
def method (reach : Reach) (marker : Marker) : Parse Node := do
  finish marker (← functionRest reach .expression none)

/-- A getter has no parameter, and a setter has one that is no rest. -/
def checkAccessor (kind : PropertyKind) (value : Node) : Parse Unit := do
  let params :=
    match value.kind with
    | .function .expression _ params _ _ => params
    | _ => []
  match kind, params with
  | .get, _ :: _ => failAt "Getter must not have any formal parameters" value.position
  | .set, [.mk (.restElement _) _] =>
    failAt "Setter must have exactly one formal parameter" value.position
  | .set, [_] => pure ()
  | .set, _ => failAt "Setter must have exactly one formal parameter" value.position
  | _, _ => pure ()

/-- The arrow and the body of an arrow function with given parameters. -/
def arrowBody (reach : Reach) (marker : Marker) (params : List Node) : Parse Node := do
  requireModern "Arrow functions"
  eat .arrow
  let noIn := (← get).noIn
  let (body, isExpression) ← inFunction do
    if ← at? .leftBrace then pure (← functionBody reach, false)
    else
      modify fun p => { p with noIn := noIn }
      pure (← reach .assignment, true)
  finish marker (.function .arrow none params body { expression := isExpression })

/-! ## 5. Classes -/

/-- What stands before the key of a member of a class, and the key. -/
structure MemberHead where
  keyMarker : Marker
  key : Node
  computed : Bool
  isStatic : Bool
  accessor : Option PropertyKind

/-- Whether a member has a plain key with a given name. -/
def MemberHead.named (h : MemberHead) (name : String) : Bool :=
  !h.computed && keyName? h.key == some name

def memberHead (reach : Reach) : Parse MemberHead := do
  let keyMarker ← start
  let (key, computed) ← propertyKey reach
  let plain : MemberHead :=
    { keyMarker := keyMarker, key := key, computed := computed, isStatic := false, accessor := none }
  let isStatic := !computed && key.name? == some "static" && (← afterModifier)
  let head ←
    if isStatic then
      if ← at? .leftBrace then fail "Class static blocks are not supported"
      else
        let keyMarker ← start
        let (key, computed) ← propertyKey reach
        pure { plain with keyMarker := keyMarker, key := key, computed := computed, isStatic := true }
    else pure plain
  let modifier := if head.computed then none else head.key.name?
  if modifier == some "get" || modifier == some "set" || modifier == some "async" then
    if ← afterModifier then
      if modifier == some "async" then unsupported "Async functions"
      else
        let keyMarker ← start
        let (key, computed) ← propertyKey reach
        pure { head with
          keyMarker := keyMarker, key := key, computed := computed,
          accessor := some (if modifier == some "get" then .get else .set) }
    else pure head
  else pure head

def classMethod (reach : Reach) (marker : Marker) (head : MemberHead) : Parse Node := do
  let value ← method reach head.keyMarker
  let isConstructor := !head.isStatic && head.named "constructor"
  let kind : MethodKind ←
    match head.accessor with
    | some kind =>
      if isConstructor then failAt "Class constructor may not be an accessor" head.key.position
      else
        checkAccessor kind value
        pure (if kind = .get then .get else .set)
    | none => pure (if isConstructor then .constructor else .method)
  finish marker (.methodDefinition head.key value kind head.computed head.isStatic)

/-- A field of a class after its key. -/
def classField (reach : Reach) (marker : Marker) (head : MemberHead) : Parse Node := do
  if head.named "constructor" || (head.isStatic && head.named "prototype") then
    failAt "Classes may not have a field named 'constructor' or a static field named 'prototype'"
      head.key.position
  else
    let value ←
      if ← eatIf .assign then some <$> inFunction (reach .assignment) else pure none
    eatSemicolon
    finish marker (.propertyDefinition head.key value head.computed head.isStatic)

def classMember (reach : Reach) : Parse Node := do
  let marker ← start
  if ← at? .star then unsupported "Generators"
  else
    let head ← memberHead reach
    if ← at? .leftParen then classMethod reach marker head
    else if head.accessor.isSome then unexpected
    else classField reach marker head

def isConstructorMember (member : Node) : Bool :=
  match member.kind with
  | .methodDefinition _ _ .constructor _ _ => true
  | _ => false

/-- The members of a class up to its closing brace, in reverse; there is one constructor at most. -/
def classMembers (reach : Reach) : Nat → Bool → List Node → Parse (List Node)
  | 0, _, acc => pure acc
  | fuel + 1, hasConstructor, acc => do
    if ← at? .rightBrace then pure acc
    else if ← eatIf .semicolon then classMembers reach fuel hasConstructor acc
    else
      let member ← classMember reach
      let isConstructor := isConstructorMember member
      if isConstructor && hasConstructor then
        failAt "A class may only have one constructor" member.position
      else classMembers reach fuel (hasConstructor || isConstructor) (member :: acc)

def classLike (reach : Reach) (marker : Marker) (form : ClassForm) : Parse Node := do
  requireModern "Classes"
  eatWord .classWord
  let strict := (← get).strict
  modify fun p => { p with strict := true }
  let id ←
    if (← identifierAhead).isSome then some <$> bindingIdentifier
    else if form = .declaration then unexpected
    else pure none
  let superClass ←
    if ← eatIfWord .extendsWord then some <$> reach .leftHandSide else pure none
  let bodyMarker ← start
  eat .leftBrace
  let members ← classMembers reach ((← get).lexer.fuel + 1) false []
  eat .rightBrace
  let body ← finish bodyMarker (.classBody members.reverse)
  modify fun p => { p with strict := strict }
  finish marker (.classLike form id superClass body)

end GuestScript.Parser
