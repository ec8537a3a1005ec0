import GuestScript.Code.Lower.Tree
import GuestScript.Tree.Parser

/-!
# Places in trees

What may stand where in a syntax tree, and what a node consists of, depends on the place of the node: the same array
pattern is taken apart differently as a parameter and as the left side of an assignment. `Node.parts` lists the parts
of a node in its place, each with a place of its own, and `Node.Suits` says which nodes a place is for.

Two ways to count along a path are told apart by the parts they follow and by what a part costs.

* `Part.guards?` follows every part and counts the productions of the grammar between a node and its part that are
  charged for their nesting.
* `Part.levels?` follows what is lowered and counts the nodes that are a level of their own.

A tree fits a place at a depth when every node in it suits the place where it stands, or is a leftover, and when no
path passes more productions that are charged for their nesting than the depth leaves. Fitting is what the parser
establishes, production by production, and what there is to say about its trees follows from it:
`Node.Fits.guards_le` bounds the paths, and `Node.Fits.suits_or_leftover` tells what stands at their ends.
-/

namespace GuestScript

/-! ## 1. Places -/

/-- The places of a tree. -/
inductive Place where
  | program
  /-- In a list of statements. -/
  | item
  /-- A statement or an expression. -/
  | code
  /-- A statement with a label. -/
  | labeled
  /-- An expression whose value may take a name from where it stands. -/
  | named
  /-- The object of a member. -/
  | object
  | callee
  /-- The body of a function. -/
  | body
  | parameter
  | pattern (mode : BindingMode)
  /-- In an object pattern. -/
  | patternPart (mode : BindingMode)
  /-- In an array pattern. -/
  | patternElement (mode : BindingMode)
  | argument
  /-- In an array literal. -/
  | element
  /-- In an object literal. -/
  | property
  | key (computed : Bool)
  | declarator (kind : VariableKind)
  /-- What a loop over names assigns to. -/
  | target
  /-- In a switch. -/
  | case
  /-- The handler of a try statement. -/
  | handler
  | classBody
  | member
  /-- The function of a member of a class. -/
  | method
  /-- The template behind a tag. -/
  | quasi
  deriving DecidableEq

/-- Whether a place is for one statement or expression, whatever it is. -/
def Place.isCode : Place → Bool
  | code | labeled | named | object | callee | body => true
  | _ => false

/-- A part of a node. -/
structure Part where
  place : Place
  node : Node
  /-- How many productions that are charged for their nesting lead from the node to its part. -/
  guards : Nat := 0
  /-- Whether the part is lowered with the node. -/
  isLowered : Bool := true

/-- The part, not lowered. -/
def Part.unlowered (p : Part) : Part :=
  { p with isLowered := false }

/-! ## 2. Parts -/

/-- Whether a node declares something without being a statement. -/
def Node.isDeclaration (n : Node) : Bool :=
  match n.kind with
  | .function .declaration _ _ _ _ | .classLike .declaration _ _ _ => true
  | .variableDeclaration _ kind => kind ≠ .var
  | _ => false

/-- Whether a node is a function declaration. -/
def Node.isFunctionDeclaration (n : Node) : Bool :=
  match n.kind with
  | .function .declaration _ _ _ _ => true
  | _ => false

namespace Part

/-- A statement or a declaration in a list. -/
def item (n : Node) : Part :=
  { place := .item, node := n, guards := if n.isDeclaration then 0 else 1 }

/-- A statement in another one. -/
def statement (n : Node) : Part :=
  { place := .code, node := n, guards := 1 }

/-- How many productions that are charged for lead to an expression: none to one with a comma at its top, and none to
the variables in the head of a loop. -/
def expressionGuards (n : Node) : Nat :=
  match n.kind with
  | .sequenceExpression _ | .variableDeclaration _ _ => 0
  | _ => 1

/-- An expression, with or without a comma at its top, or the variables in the head of a loop. -/
def expression (n : Node) : Part :=
  { place := .code, node := n, guards := expressionGuards n }

/-- An expression without a comma at its top. -/
def operand (n : Node) : Part :=
  { place := .code, node := n, guards := 1 }

/-- The first operand of an operation. -/
def first (n : Node) : Part :=
  { place := .code, node := n }

/-- A value that takes the name of what it is assigned to, if that is a name. -/
def value (target n : Node) : Part :=
  { place := if target.name?.isSome then .named else .code, node := n, guards := 1 }

/-- A property key. -/
def key (computed : Bool) (n : Node) : Part :=
  { place := .key computed, node := n, guards := if computed then expressionGuards n else 0 }

/-- The body of a function. A block is not charged for. -/
def body (n : Node) : Part :=
  { place := .body, node := n
    guards :=
      match n.kind with
      | .blockStatement _ => 0
      | _ => 1 }

/-- A pattern or the like, which is not charged for. -/
def free (place : Place) (n : Node) : Part :=
  { place := place, node := n }

end Part

/-- The parts of a function. -/
def functionParts (params : List Node) (body : Node) : List Part :=
  params.map (Part.free .parameter) ++ [.body body]

namespace Kind

/-- The parts of the operand of an operator. -/
def unaryParts (operator : UnaryOperator) (argument : Node) : List Part :=
  match operator, argument.kind with
  | .typeOf, .identifier _ | .delete, .identifier _ => []
  | .delete, .memberExpression _ _ _ _ => [{ place := .pattern .assign, node := argument, guards := 1 }]
  | _, _ => [.operand argument]

/-- The parts of a pattern. -/
def patternParts (mode : BindingMode) : Kind → List Part
  | assignmentPattern left right => [.free (.pattern mode) left, .value left right]
  | objectPattern properties => properties.map (.free (.patternPart mode))
  | arrayPattern elements => elements.reduceOption.map (.free (.patternElement mode))
  | memberExpression object key computed _ => [.first object, .key computed key]
  | _ => []

/-- The parts of a statement or an expression. The functions of a program that is none are not lowered. -/
def codeParts : Kind → List Part
  | program body => (body.filter fun n => !n.isFunctionDeclaration).map .item
  | blockStatement body => body.map .item
  | expressionStatement e _ => [.expression e]
  | withStatement object body => [.expression object, .statement body]
  | returnStatement argument => argument.toList.map .expression
  | labeledStatement _ body => [{ place := .labeled, node := body, guards := 1 }]
  | ifStatement test consequent alternate =>
    .expression test :: .statement consequent :: alternate.toList.map .statement
  | switchStatement discriminant cases => .expression discriminant :: cases.map (.free .case)
  | switchCase test _ => test.toList.map .expression
  | throwStatement argument => [.expression argument]
  | tryStatement block handler finalizer =>
    .first block :: (handler.toList.map (.free .handler) ++ finalizer.toList.map .first)
  | whileStatement test body => [.expression test, .statement body]
  | doWhileStatement body test => [.statement body, .expression test]
  | forStatement init test update body =>
    init.toList.map .expression ++ test.toList.map .expression ++ update.toList.map .expression ++
      [.statement body]
  | forInStatement left right body => [.free .target left, .expression right, .statement body]
  | function .declaration _ params body _ => (functionParts params body).map Part.unlowered
  | function _ _ params body _ => functionParts params body
  | variableDeclaration declarations kind => declarations.map (.free (.declarator kind))
  | classLike _ _ superClass body => superClass.toList.map .first ++ [.free .classBody body]
  | arrayExpression elements =>
    elements.reduceOption.map fun n => { place := .element, node := n, guards := 1 }
  | objectExpression properties => properties.map (.free .property)
  | unaryExpression operator _ argument => unaryParts operator argument
  | updateExpression _ _ argument => [.free (.pattern .assign) argument]
  | binaryExpression _ left right | logicalExpression _ left right => [.first left, .first right]
  | assignmentExpression _ left right => [.free (.pattern .assign) left, .value left right]
  | memberExpression object key computed _ => [.free .object object, .key computed key]
  | chainExpression e => [.first e]
  | conditionalExpression test consequent alternate =>
    [.first test, .operand consequent, .operand alternate]
  | callExpression callee arguments _ =>
    .free .callee callee :: arguments.map fun n => { place := .argument, node := n, guards := 1 }
  | newExpression callee arguments =>
    .first callee :: arguments.map fun n => { place := .argument, node := n, guards := 1 }
  | sequenceExpression expressions => expressions.map .operand
  | templateLiteral _ expressions => expressions.map .expression
  | taggedTemplateExpression tag quasi => [.first tag, .free .quasi quasi]
  | assignmentPattern left right => patternParts .assign (.assignmentPattern left right)
  | _ => []

/-- The parts of a property of an object literal. -/
def propertyParts : Kind → List Part
  | spreadElement argument => [.operand argument]
  | property key value kind method shorthand computed =>
    [.key computed key,
      { place := if kind = .init then .named else .code, node := value
        guards := if kind = .init ∧ ¬ method ∧ ¬ shorthand then 1 else 0 }]
  | _ => []

/-- The parts of a member of a class. The accessors are not lowered, and no constructor has its key lowered. -/
def memberParts : Kind → List Part
  | methodDefinition key value kind computed _ =>
    [{ Part.key computed key with isLowered := kind = .method },
      { Part.free .method value with isLowered := kind = .method ∨ kind = .constructor }]
  | propertyDefinition key value computed _ =>
    .key computed key :: value.toList.map fun n => { place := .named, node := n, guards := 1 }
  | _ => []

/-- The parts of a node in its place. -/
def parts : Place → Kind → List Part
  | .item, function .declaration _ params body _ => functionParts params body
  | .item, kind | .code, kind | .labeled, kind | .named, kind | .object, kind | .callee, kind | .body, kind =>
    kind.codeParts
  | .parameter, restElement argument => [.free (.pattern .parameter) argument]
  | .parameter, kind => kind.patternParts .parameter
  | .pattern mode, kind => kind.patternParts mode
  | .patternPart mode, property key value _ _ _ computed => [.key computed key, .free (.pattern mode) value]
  | .patternPart mode, restElement argument => [.free (.pattern mode) argument]
  | .patternElement mode, restElement argument => [.free (.pattern mode) argument]
  | .patternElement mode, kind => kind.patternParts mode
  | .argument, spreadElement argument | .element, spreadElement argument => [.first argument]
  | .argument, kind | .element, kind => kind.codeParts
  | .property, kind => kind.propertyParts
  | .key false, identifier _ | .key false, literal _ _ _ => []
  | .key _, kind => kind.codeParts
  | .declarator kind, variableDeclarator id init =>
    .free (.pattern (Lower.modeOf kind)) id :: init.toList.map (.value id)
  | .target, variableDeclaration (.mk (variableDeclarator id _) _ :: _) kind =>
    [.free (.pattern (Lower.modeOf kind)) id]
  | .target, kind => kind.patternParts .assign
  | .case, switchCase test consequent => test.toList.map .expression ++ consequent.map .item
  | .handler, catchClause param body =>
    param.toList.map (.free (.pattern .parameter)) ++ [.first body]
  | .classBody, classBody members => members.map (.free .member)
  | .member, kind => kind.memberParts
  | .method, function _ _ params body _ => functionParts params body
  | .quasi, templateLiteral _ expressions => expressions.map .expression
  | _, _ => []

end Kind

/-- The parts of a node in its place. A program that is given as another node consists of that node. -/
def Node.parts (n : Node) (place : Place) : List Part :=
  match place with
  | .program =>
    match n.kind with
    | .program body => body.map .item
    | _ => [.item n]
  | _ => n.kind.parts place

/-! ## 3. Nodes that suit a place -/

/-- Whether a function is one of the plain ones. -/
def FunctionFlags.isPlain (flags : FunctionFlags) : Bool :=
  !flags.generator && !flags.isAsync

namespace Kind

/-- Whether something can be assigned to a node as a whole. -/
def isSimpleTarget : Kind → Bool
  | identifier _ | memberExpression _ _ _ _ => true
  | _ => false

/-- Whether a node takes a value apart. -/
def isPattern : Kind → Bool
  | objectPattern _ | arrayPattern _ => true
  | _ => false

/-- Whether a node is a statement or an expression. -/
def isCode : Kind → Bool
  | expressionStatement _ _ | blockStatement _ | emptyStatement | debuggerStatement | withStatement _ _
  | returnStatement _ | labeledStatement _ _ | breakStatement _ | continueStatement _ | ifStatement _ _ _
  | switchStatement _ _ | throwStatement _ | tryStatement _ _ _ | whileStatement _ _ | doWhileStatement _ _
  | forStatement _ _ _ _ | forInStatement _ _ _ | variableDeclaration _ _ | classLike _ _ _ _ | identifier _
  | literal _ _ _ | thisExpression | super | arrayExpression _ | objectExpression _ | memberExpression _ _ _ _
  | chainExpression _ | conditionalExpression _ _ _ | callExpression _ _ _ | newExpression _ _
  | sequenceExpression _ | templateLiteral _ _ => true
  | function _ _ _ _ flags => flags.isPlain
  | unaryExpression (.other _) _ _ | updateExpression (.other _) _ _ | binaryExpression (.other _) _ _
  | logicalExpression (.other _) _ _ | assignmentExpression (.other _) _ _ => false
  | unaryExpression _ _ _ | binaryExpression _ _ _ | logicalExpression _ _ _ => true
  | updateExpression _ _ argument => argument.kind.isSimpleTarget
  | assignmentExpression operator left _ =>
    left.kind.isSimpleTarget || (operator = .plain && left.kind.isPattern)
  | taggedTemplateExpression _ quasi =>
    match quasi.kind with
    | templateLiteral _ _ => true
    | _ => false
  | _ => false

/-- Whether a node can be bound or assigned to. -/
def isTarget (mode : BindingMode) : Kind → Bool
  | identifier _ | assignmentPattern _ _ | objectPattern _ | arrayPattern _ => true
  | memberExpression _ _ _ _ => mode = .assign
  | _ => false

/-- Whether a node is the rest of a list. -/
def isRest : Kind → Bool
  | restElement _ => true
  | _ => false

/-- Whether a node spreads a list. -/
def isSpread : Kind → Bool
  | spreadElement _ => true
  | _ => false

/-- Whether a node is a member of a class. A method is a function expression. -/
def isMember : Kind → Bool
  | methodDefinition _ value _ _ _ =>
    match value.kind with
    | function .expression _ _ _ _ => true
    | _ => false
  | propertyDefinition _ _ _ _ => true
  | _ => false

/-- Whether a declarator of some kind has the initial value that it needs. -/
def isDeclarator (kind : VariableKind) : Kind → Bool
  | variableDeclarator id init => init.isSome || (kind ≠ .const && id.name?.isSome)
  | _ => false

/-- Whether a node declares one variable without a value. -/
def declaresOne : Kind → Bool
  | variableDeclaration [.mk (variableDeclarator _ none) _] _ => true
  | _ => false

/-- Whether a place is for a node. -/
def suits : Place → Kind → Bool
  | .program, _ => true
  | .item, kind | .code, kind | .labeled, kind | .named, kind | .object, kind | .callee, kind | .body, kind =>
    kind.isCode
  | .parameter, kind => kind.isRest || kind.isTarget .parameter
  | .pattern mode, kind => kind.isTarget mode
  | .patternPart _, property _ _ _ _ _ _ => true
  | .patternPart _, kind => kind.isRest
  | .patternElement mode, kind => kind.isRest || kind.isTarget mode
  | .argument, kind | .element, kind => kind.isSpread || kind.isCode
  | .property, property _ _ _ _ _ _ => true
  | .property, kind => kind.isSpread
  | .key _, kind => kind.isCode
  | .declarator declared, kind => kind.isDeclarator declared
  | .target, kind => kind.declaresOne || kind.isTarget .assign
  | .case, switchCase _ _ | .handler, catchClause _ _ | .classBody, classBody _
  | .quasi, templateLiteral _ _ => true
  | .member, kind => kind.isMember
  | .method, function .expression _ _ _ flags => flags.isPlain
  | _, _ => false

/-- Whether a node is left over from reading an expression that could have been a pattern: the default value of a
property in an object literal, or a member where a parameter stands. -/
def isLeftover : Place → Kind → Bool
  | .named, assignmentPattern _ _ => true
  | .parameter, memberExpression _ _ _ _ | .pattern .parameter, memberExpression _ _ _ _
  | .patternElement .parameter, memberExpression _ _ _ _ => true
  | _, _ => false

end Kind

namespace Place

variable {place : Place}

theorem parts_of_isCode (h : place.isCode) (n : Node) : n.parts place = n.kind.codeParts := by
  cases place with
  | code | labeled | named | object | callee | body => rfl
  | _ => cases h

theorem suits_of_isCode (h : place.isCode) (kind : Kind) : kind.suits place = kind.isCode := by
  cases place with
  | code | labeled | named | object | callee | body => rfl
  | _ => cases h

end Place

/-! ## 4. Paths -/

/-- A path through a tree, from a node in its place to the last one, with what its parts cost together. A part
without a cost is not on any path. -/
inductive Node.Path (cost : Part → Option Nat) (end' : Place) (last : Node) : Place → Node → Nat → Prop where
  | here : Node.Path cost end' last end' last 0
  | part {place : Place} {n : Node} {p : Part} {c k : Nat} (hp : p ∈ n.parts place) (hc : cost p = some c)
      (rest : Node.Path cost end' last p.place p.node k) : Node.Path cost end' last place n (c + k)

namespace Part

/-- The cost of a part is the productions that are charged for. -/
def guards? (p : Part) : Option Nat :=
  some p.guards

end Part

/-- How many levels a node takes in its place, at least. Patterns, labels, function declarations, functions that get
their name from where they stand and the parts that only hold other parts take none. -/
def Kind.levels : Place → Kind → Nat
  | .item, .function .declaration _ _ _ _ => 0
  | .item, _ | .code, _ => 1
  | .labeled, kind => if kind.isLabeled || kind.isLoop then 0 else 1
  | .named, .function .expression none _ _ _ | .named, .function .arrow _ _ _ _
  | .named, .classLike .expression none _ _ => 0
  | .named, _ => 1
  | .object, .super | .callee, .super | .callee, .identifier _ => 0
  | .object, _ | .callee, _ => 1
  | .body, .blockStatement _ => 0
  | .body, _ => 1
  | .argument, .spreadElement _ | .element, .spreadElement _ => 0
  | .argument, _ | .element, _ => 1
  | .key false, .identifier _ | .key false, .literal _ _ _ => 0
  | .key _, _ => 1
  | _, _ => 0

namespace Part

/-- The cost of a part that is lowered is the levels that it takes. -/
def levels? (p : Part) : Option Nat :=
  if p.isLowered then some (p.node.kind.levels p.place) else none

end Part

end GuestScript

namespace GuestScript

theorem forall_mem_pair {α : Type} {P : α → Prop} {a b : α} : (∀ x ∈ [a, b], P x) ↔ P a ∧ P b := by
  simp

theorem forall_mem_triple {α : Type} {P : α → Prop} {a b c : α} : (∀ x ∈ [a, b, c], P x) ↔ P a ∧ P b ∧ P c := by
  simp

/-- Whether a tree fits a place at a depth. -/
inductive Node.Fits : Place → Nat → Node → Prop where
  | mk {place : Place} {depth : Nat} {n : Node} (hdepth : depth ≤ maxNesting)
      (hsuits : n.kind.suits place ∨ n.kind.isLeftover place)
      (hparts : ∀ p ∈ n.parts place, Node.Fits p.place (depth + p.guards) p.node) : Node.Fits place depth n

/-- Whether a part of a node at a depth fits its place. -/
def Part.Fits (p : Part) (depth : Nat) : Prop :=
  p.node.Fits p.place (depth + p.guards)

namespace Node.Fits

variable {place : Place} {depth : Nat} {n : Node}

theorem depth_le : n.Fits place depth → depth ≤ maxNesting
  | mk h _ _ => h

theorem parts : n.Fits place depth → ∀ p ∈ n.parts place, p.Fits depth
  | mk _ _ h => h

/-- What fits at a depth fits above it. -/
theorem mono (h : n.Fits place depth) {depth' : Nat} (hle : depth' ≤ depth) : n.Fits place depth' := by
  induction h generalizing depth' with
  | mk hdepth hsuits _ ih =>
    exact mk (Nat.le_trans hle hdepth) hsuits fun p hp => ih p hp (Nat.add_le_add_right hle _)

/-- **No path passes more charged productions than the depth leaves.** -/
theorem guards_le (h : n.Fits place depth) {end' : Place} {last : Node} {k : Nat}
    (hpath : Node.Path Part.guards? end' last place n k) : depth + k ≤ maxNesting := by
  induction hpath generalizing depth with
  | here => exact h.depth_le
  | @part place n p c k hp hc _ ih =>
    cases hc
    have hpart := ih (h.parts p hp)
    rwa [Nat.add_assoc] at hpart

/-- What stands at the end of a path suits its place or is a leftover. -/
theorem suits_or_leftover (h : n.Fits place depth) {cost : Part → Option Nat} {end' : Place} {last : Node} {k : Nat}
    (hpath : Node.Path cost end' last place n k) : last.kind.suits end' ∨ last.kind.isLeftover end' := by
  induction hpath generalizing depth with
  | here =>
    obtain ⟨_, hsuits, _⟩ := h
    exact hsuits
  | part hp _ _ ih => exact ih (h.parts _ hp)

/-! ## 5. From one place to another -/

/-- Code fits every place that is for one statement or expression. -/
theorem code (h : n.Fits .code depth) {place : Place} (hplace : place.isCode) : n.Fits place depth := by
  obtain ⟨hdepth, hsuits, hparts⟩ := h
  refine ⟨hdepth, .inl ?_, ?_⟩
  · rw [Place.suits_of_isCode hplace]
    exact hsuits.resolve_right nofun
  · rw [Place.parts_of_isCode hplace]
    exact hparts

/-- A node fits as code when it is code and its parts fit. -/
theorem of_codeParts {kind : Kind} (hdepth : depth ≤ maxNesting) (hcode : kind.isCode)
    (hparts : ∀ p ∈ kind.codeParts, p.Fits depth) (span : Span) : (Node.mk kind span).Fits .code depth :=
  mk hdepth (.inl hcode) hparts

/-- Code without parts fits. -/
theorem leaf {kind : Kind} (hdepth : depth ≤ maxNesting) (hcode : kind.isCode) (hparts : kind.codeParts = [])
    (span : Span) : (Node.mk kind span).Fits .code depth :=
  of_codeParts hdepth hcode (by simp [hparts]) span

/-- What fits a place for code is code, unless it is left over. -/
theorem ofCode {place : Place} (h : n.Fits place depth) (hplace : place.isCode)
    (hnone : n.kind.isLeftover place = false) : n.Fits .code depth := by
  obtain ⟨hdepth, hsuits, hparts⟩ := h
  refine ⟨hdepth, .inl ?_, ?_⟩
  · rw [Place.suits_of_isCode hplace] at hsuits
    exact hsuits.resolve_right (by simp [hnone])
  · rw [Place.parts_of_isCode hplace] at hparts
    exact hparts

theorem isCode (h : n.Fits .code depth) : n.kind.isCode := by
  obtain ⟨_, hsuits, _⟩ := h
  exact hsuits.resolve_right nofun

theorem argument (h : n.Fits .code depth) : n.Fits .argument depth := by
  have hcode := h.isCode
  obtain ⟨hdepth, _, hparts⟩ := h
  refine ⟨hdepth, .inl (by simp [Kind.suits.eq_def, hcode]), ?_⟩
  obtain ⟨kind, span⟩ := n
  cases kind with
  | spreadElement argument => cases hcode
  | _ => exact hparts

theorem element (h : n.Fits .code depth) : n.Fits .element depth := by
  have hcode := h.isCode
  obtain ⟨hdepth, _, hparts⟩ := h
  refine ⟨hdepth, .inl (by simp [Kind.suits.eq_def, hcode]), ?_⟩
  obtain ⟨kind, span⟩ := n
  cases kind with
  | spreadElement argument => cases hcode
  | _ => exact hparts

theorem computedKey (h : n.Fits .code depth) : n.Fits (.key true) depth := by
  have hcode := h.isCode
  obtain ⟨hdepth, _, hparts⟩ := h
  exact ⟨hdepth, .inl hcode, hparts⟩

theorem item (h : n.Fits .code depth) : n.Fits .item depth := by
  have hcode := h.isCode
  obtain ⟨hdepth, _, hparts⟩ := h
  refine ⟨hdepth, .inl hcode, ?_⟩
  obtain ⟨kind, span⟩ := n
  cases kind with
  | function form id params body flags =>
    cases form with
    | declaration => exact fun p hp => hparts p.unlowered (List.mem_map_of_mem hp)
    | _ => exact hparts
  | _ => exact hparts

/-- A pattern can be an element of one. -/
theorem patternElement {mode : BindingMode} (h : n.Fits (.pattern mode) depth) : n.Fits (.patternElement mode) depth := by
  obtain ⟨hdepth, hsuits, hparts⟩ := h
  obtain ⟨kind, span⟩ := n
  cases kind with
  | restElement argument => exact absurd hsuits (by cases mode <;> nofun)
  | memberExpression object key computed optional =>
    cases mode with
    | assign => exact ⟨hdepth, .inl rfl, hparts⟩
    | parameter => exact ⟨hdepth, .inr rfl, hparts⟩
    | _ => exact absurd hsuits nofun
  | identifier _ | assignmentPattern _ _ | objectPattern _ | arrayPattern _ => exact ⟨hdepth, .inl rfl, hparts⟩
  | _ => exact absurd hsuits (by cases mode <;> nofun)

/-- What can be bound as a parameter is one. -/
theorem parameter (h : n.Fits (.pattern .parameter) depth) : n.Fits .parameter depth := by
  obtain ⟨hdepth, hsuits, hparts⟩ := h
  obtain ⟨kind, span⟩ := n
  cases kind with
  | identifier _ | assignmentPattern _ _ | objectPattern _ | arrayPattern _ => exact ⟨hdepth, .inl rfl, hparts⟩
  | memberExpression _ _ _ _ => exact ⟨hdepth, .inr rfl, hparts⟩
  | _ => exact absurd hsuits nofun

/-- A rest fits wherever it may stand. -/
theorem rest {argument : Node} {mode : BindingMode} (h : argument.Fits (.pattern mode) depth) (span : Span) :
    (Node.mk (.restElement argument) span).Fits (.patternElement mode) depth ∧
      (Node.mk (.restElement argument) span).Fits (.patternPart mode) depth :=
  have hparts : ∀ p ∈ [Part.free (.pattern mode) argument], p.Fits depth := List.forall_mem_singleton.2 h
  ⟨⟨h.depth_le, .inl rfl, hparts⟩, ⟨h.depth_le, .inl rfl, hparts⟩⟩

end Node.Fits

end GuestScript
