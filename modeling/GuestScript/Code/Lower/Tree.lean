import GuestScript.Code.Lower.State

/-!
# Lowering trees to code

Every node that is lowered with `Node.lower` counts as a step and as one level of nesting. Members, calls and
optional chains form *links*, which count their steps themselves; the root of a chain takes two levels. Patterns,
labels and functions that get their name from where they stand take no level of their own.

The order of lowering is the order in which faults are found.
-/

namespace GuestScript

namespace Kind

/-- Whether a node is a part of a chain. -/
def isLink : Kind → Bool
  | .memberExpression _ _ _ _ | .callExpression _ _ _ | .chainExpression _ => true
  | _ => false

/-- Whether a node is a loop. -/
def isLoop : Kind → Bool
  | .whileStatement _ _ | .doWhileStatement _ _ | .forStatement _ _ _ _ | .forInStatement _ _ _ =>
    true
  | _ => false

def isLabeled : Kind → Bool
  | .labeledStatement _ _ => true
  | _ => false

end Kind

namespace Lower

/-! ## 1. Putting parts together -/

/-- Lower a node one level down: as a chain, or as a step. -/
def asCode (isLink : Bool) (position : Option Position) (depth : Nat) (inner : Nat → Lower Code)
    (link : Nat → Lower Link) : Lower Code := do
  checkNesting depth position
  if isLink then
    checkNesting (depth + 1) position
    return .chain (← link (depth + 2))
  else return .step position (← inner (depth + 1))

/-- Lower a node as a part of a chain. -/
def asLink (isLink : Bool) (position : Option Position) (depth : Nat) (inner : Nat → Lower Code)
    (link : Nat → Lower Link) : Lower Link := do
  checkNesting depth position
  if isLink then link (depth + 1)
  else
    checkNesting (depth + 1) position
    return .value (.step position (← inner (depth + 2)))

/-- Keep the last of several declarations of one name. -/
def keepLast : List (String × Template) → List (String × Template)
  | [] => []
  | entry :: rest =>
    let rest := keepLast rest
    if rest.any fun other => other.1 == entry.1 then rest else entry :: rest

/-- Lower a list of statements with its declarations: the frame, the functions, and the statements. -/
def body (frame : LexicalFrame) (functions : Lower (List (String × Template)))
    (statements : Lower (List Code)) : Lower (LexicalFrame × List (String × Template) × Code) :=
  inFrame frame do
    let functions ← functions
    let statements ← statements
    pure (frame, keepLast functions, .sequence statements)

/-- How many parameters stand before the first one that may be left out. -/
def leadingParameters (params : List Node) : Nat :=
  (params.takeWhile fun p =>
    match p.kind with
    | .assignmentPattern _ _ | .restElement _ => false
    | _ => true).length

def template (kindName : String) (span : Span) (flags : FunctionFlags) (arity : Nat) (name : String)
    (bindsSelf isArrow : Bool) (parameters : Lower (List (Pattern × Bool)))
    (functionBody : Lower (LexicalFrame × List (String × Template) × Code)) : Lower Template := do
  if flags.generator || flags.isAsync then
    fault .nodeType ((if flags.isAsync then "async " else "generator ") ++ kindName) span.position
  else
    let ((parameters, frame, functions, code), b) ← inBody isArrow do
      let parameters ← parameters
      let (frame, functions, code) ← functionBody
      pure (parameters, frame, functions, code)
    pure (.mk name bindsSelf parameters code
      (.mk b.vars.toList functions frame b.usesArguments) isArrow arity (← sourceOf span))

/-- The name of a node that may be absent. -/
def nameOf? (id : Option Node) : Option String :=
  id.bind Node.name?

/-- The text of a piece of a template literal. -/
def templateText (quasi : Node) : String :=
  match quasi.kind with
  | .templateElement raw cooked _ => cooked.getD raw
  | _ => ""

/-- The value of a piece of a tagged template. -/
def cookedLiteral (quasi : Node) : Literal :=
  match quasi.kind with
  | .templateElement _ (some cooked) _ => .string cooked
  | _ => .undefined

/-- The written form of a piece of a tagged template. -/
def rawLiteral (quasi : Node) : Literal :=
  match quasi.kind with
  | .templateElement raw _ _ => .string raw
  | _ => .undefined

/-- The name that a key fixes. -/
def fixedName? : PropertyName → Option String
  | .fixed name => some name
  | .computed _ => none

/-- How names of a declaration are bound. -/
def modeOf : VariableKind → BindingMode
  | .var => .var
  | .let | .const => .lexical

/-- Refuse a declarator without an initial value where one is needed. -/
def checkInit (kind : VariableKind) (id : Node) (position : Option Position) : Lower Unit := do
  if kind = .const then fault .constNotInitialized (← describe id) position
  else if id.name?.isNone then fault .spreadPatternVariableNoInit "" position
  else pure ()

end Lower

open Lower

/-! ## 2. Nodes -/

mutual

/-- Lower a node, one level down. -/
def Node.lower : Node → Nat → Lower Code
  | .mk kind span, depth =>
    asCode kind.isLink span.position depth (fun d => kind.lower span [] d) fun d => kind.lowerLink span d

/-- Lower a node as a part of a chain. -/
def Node.lowerLink : Node → Nat → Lower Link
  | .mk kind span, depth =>
    asLink kind.isLink span.position depth (fun d => kind.lower span [] d) fun d => kind.lowerLink span d

/-- Lower a node whose value gets a name: functions and classes without one of their own take it. -/
def Node.lowerNamed : Node → String → Bool → Nat → Lower Code
  | .mk (.function .expression none params body flags) span, name, bindsSelf, depth => do
    let t ← template "FunctionExpression" span flags (leadingParameters params) name bindsSelf false
      (Node.lowerParameters params depth) (body.lowerBody depth)
    pure (.step span.position (.function t))
  | .mk (.function .arrow id params body flags) span, name, _, depth => do
    let t ← template "ArrowFunctionExpression" span flags (leadingParameters params)
      ((nameOf? id).getD name) false true (Node.lowerParameters params depth) (body.lowerBody depth)
    pure (.step span.position (.function t))
  | .mk (.classLike .expression none superClass body) span, name, _, depth => do
    let parent ← Node.lower? superClass depth
    let (constructor, members) ← body.lowerClassBody name depth
    pure (.step span.position
      (.classValue (.mk name none parent constructor members (← sourceOf span) span.position)))
  | .mk kind span, _, _, depth =>
    asCode kind.isLink span.position depth (fun d => kind.lower span [] d) fun d => kind.lowerLink span d

/-- Lower the body of a function: a block, or an expression to return. -/
def Node.lowerBody : Node → Nat → Lower (LexicalFrame × List (String × Template) × Code)
  | .mk (.blockStatement statements) _, depth =>
    Lower.body (lexicalFrame statements) (Node.lowerFunctions statements depth)
      (Node.lowerStatements statements depth)
  | .mk kind span, depth =>
    Lower.body [] (pure []) do
      let position := span.position
      checkNesting depth position
      checkNesting (depth + 1) position
      let value ← asCode kind.isLink position (depth + 2) (fun d => kind.lower span [] d)
        fun d => kind.lowerLink span d
      pure [.step position (.sequence [.step position (.exit (some value))])]

/-- Lower a node that may be absent. -/
def Node.lower? : Option Node → Nat → Lower (Option Code)
  | none, _ => pure none
  | some n, depth => return some (← n.lower depth)

/-- Lower expressions in order. -/
def Node.lowerAll : List Node → Nat → Lower (List Code)
  | [], _ => pure []
  | n :: rest, depth => do
    let c ← n.lower depth
    return c :: (← Node.lowerAll rest depth)

/-- Lower statements in order; function declarations are lowered with the declarations. -/
def Node.lowerStatements : List Node → Nat → Lower (List Code)
  | [], _ => pure []
  | .mk (.function .declaration _ _ _ _) _ :: rest, depth => Node.lowerStatements rest depth
  | n :: rest, depth => do
    let c ← n.lower depth
    return c :: (← Node.lowerStatements rest depth)

/-- Lower the function declarations among statements. -/
def Node.lowerFunctions : List Node → Nat → Lower (List (String × Template))
  | [], _ => pure []
  | .mk (.function .declaration id params body flags) span :: rest, depth => do
    let name := (nameOf? id).getD ""
    let t ← template "FunctionDeclaration" span flags (leadingParameters params) name true false
      (Node.lowerParameters params depth) (body.lowerBody depth)
    return (name, t) :: (← Node.lowerFunctions rest depth)
  | _ :: rest, depth => Node.lowerFunctions rest depth

def Node.lowerParameters : List Node → Nat → Lower (List (Pattern × Bool))
  | [], _ => pure []
  | .mk (.restElement argument) _ :: rest, depth => do
    let p ← argument.lowerPattern .parameter depth
    return (p, true) :: (← Node.lowerParameters rest depth)
  | n :: rest, depth => do
    let p ← n.lowerPattern .parameter depth
    return (p, false) :: (← Node.lowerParameters rest depth)

/-- Lower arguments; spread ones are marked. -/
def Node.lowerArguments : List Node → Nat → Lower (List (Code × Bool))
  | [], _ => pure []
  | .mk (.spreadElement argument) _ :: rest, depth => do
    let c ← argument.lower depth
    return (c, true) :: (← Node.lowerArguments rest depth)
  | n :: rest, depth => do
    let c ← n.lower depth
    return (c, false) :: (← Node.lowerArguments rest depth)

/-- Lower the elements of an array literal; spread ones keep their text for messages. -/
def Node.lowerElements : List (Option Node) → Nat → Lower (List (Option (Code × Option String)))
  | [], _ => pure []
  | none :: rest, depth => return none :: (← Node.lowerElements rest depth)
  | some (.mk (.spreadElement argument) _) :: rest, depth => do
    let c ← argument.lower depth
    let label ← describe argument
    return some (c, some label) :: (← Node.lowerElements rest depth)
  | some n :: rest, depth => do
    let c ← n.lower depth
    return some (c, none) :: (← Node.lowerElements rest depth)

def Node.lowerKey : Node → Bool → Nat → Lower PropertyName
  | .mk kind span, computed, depth =>
    match computed, kind with
    | false, .identifier name => pure (.fixed name)
    | false, .literal value _ _ => pure (.fixed (literalKey value))
    | _, other =>
      return .computed (← asCode other.isLink span.position depth (fun d => other.lower span [] d)
        fun d => other.lowerLink span d)

def Node.lowerProperties : List Node → Nat → Lower (List ObjectPart)
  | [], _ => pure []
  | .mk (.spreadElement argument) _ :: rest, depth => do
    let c ← argument.lower depth
    return .spread c :: (← Node.lowerProperties rest depth)
  | .mk (.property key value kind _ _ computed) _ :: rest, depth => do
    let key ← key.lowerKey computed depth
    let part : ObjectPart ←
      match kind, fixedName? key with
      | .init, some "__proto__" => do pure (ObjectPart.ignored (← value.lower depth))
      | .init, some name => do pure (ObjectPart.value key (← value.lowerNamed name false depth))
      | .init, none => do pure (ObjectPart.value key (← value.lower depth))
      | .get, _ => do pure (ObjectPart.getter key (← value.lower depth))
      | .set, _ => do pure (ObjectPart.setter key (← value.lower depth))
    return part :: (← Node.lowerProperties rest depth)
  | .mk kind span :: _, _ => fault .objectStructure kind.typeName span.position

def Node.lowerPattern : Node → BindingMode → Nat → Lower Pattern
  | .mk (.identifier name) span, mode, _ => pure (.name mode name span.position)
  | .mk (.assignmentPattern left right) _, mode, depth => do
    let inner ← left.lowerPattern mode depth
    let default ←
      match left.name? with
      | some name => right.lowerNamed name (mode ≠ .assign) depth
      | none => right.lower depth
    pure (.withDefault inner default)
  | .mk (.objectPattern properties) span, mode, depth => do
    let parts ← Node.lowerPatternParts properties mode depth
    pure (.object parts (← describe (.mk (.objectPattern properties) span)))
  | .mk (.arrayPattern elements) span, mode, depth => do
    let items ← Node.lowerPatternElements elements mode depth
    pure (.array items (← describe (.mk (.arrayPattern elements) span)))
  | .mk (.memberExpression object property computed _) span, mode, depth => do
    if mode = .assign then
      let c ← object.lower depth
      let key ← property.lowerKey computed depth
      pure (.member c key)
    else fault .paramType "MemberExpression" span.position
  | .mk kind span, mode, _ =>
    fault (if mode = .assign then .assignmentType else .paramType) kind.typeName span.position

def Node.lowerPatternParts : List Node → BindingMode → Nat → Lower (List PatternPart)
  | [], _, _ => pure []
  | .mk (.property key value _ _ _ computed) _ :: rest, mode, depth => do
    let key ← key.lowerKey computed depth
    let p ← value.lowerPattern mode depth
    return .property key p :: (← Node.lowerPatternParts rest mode depth)
  | .mk (.restElement argument) _ :: rest, mode, depth => do
    let p ← argument.lowerPattern mode depth
    return .rest p :: (← Node.lowerPatternParts rest mode depth)
  | .mk kind span :: _, _, _ => fault .objectStructure kind.typeName span.position

def Node.lowerPatternElements : List (Option Node) → BindingMode → Nat →
    Lower (List (Option (Pattern × Bool)))
  | [], _, _ => pure []
  | none :: rest, mode, depth => return none :: (← Node.lowerPatternElements rest mode depth)
  | some (.mk (.restElement argument) _) :: rest, mode, depth => do
    let p ← argument.lowerPattern mode depth
    return some (p, true) :: (← Node.lowerPatternElements rest mode depth)
  | some n :: rest, mode, depth => do
    let p ← n.lowerPattern mode depth
    return some (p, false) :: (← Node.lowerPatternElements rest mode depth)

/-- Lower the declarators of a declaration. A `var` without an initial value does nothing. -/
def Node.lowerDeclarators : List Node → VariableKind → Nat →
    Lower (List (Pattern × Option Code))
  | [], _, _ => pure []
  | .mk (.variableDeclarator id init) span :: rest, kind, depth => do
    if kind = .var then id.declaredNames.forM (declareVar span.position)
    match init with
    | none =>
      checkInit kind id span.position
      if kind = .var then Node.lowerDeclarators rest kind depth
      else
        let p ← id.lowerPattern (modeOf kind) depth
        return (p, none) :: (← Node.lowerDeclarators rest kind depth)
    | some init =>
      let value ←
        match id.name? with
        | some name => init.lowerNamed name true depth
        | none => init.lower depth
      let p ← id.lowerPattern (modeOf kind) depth
      return (p, some value) :: (← Node.lowerDeclarators rest kind depth)
  | .mk kind span :: _, _, _ => fault .unknownVariableDeclType kind.typeName span.position

/-- Lower the target of a loop over names: the pattern, and the frame of each round. -/
def Node.lowerTarget : Node → Nat → Lower (Pattern × LexicalFrame)
  | .mk (.variableDeclaration (.mk (.variableDeclarator id init) dspan :: others) kind) span, depth => do
    if kind = .var then
      id.declaredNames.forM (declareVar span.position)
      return (← id.lowerPattern .var depth, [])
    else
      let p ← id.lowerPattern .lexical depth
      pure (p, Node.lexicalNames
        (.mk (.variableDeclaration (.mk (.variableDeclarator id init) dspan :: others) kind) span))
  | .mk (.variableDeclaration _ _) span, _ =>
    fault .unknownVariableDeclType "VariableDeclaration" span.position
  | .mk (.identifier name) span, _ => pure (.name .assign name span.position, [])
  | .mk (.assignmentPattern left right) _, depth => do
    let inner ← left.lowerPattern .assign depth
    let default ←
      match left.name? with
      | some name => right.lowerNamed name false depth
      | none => right.lower depth
    pure (.withDefault inner default, [])
  | .mk (.objectPattern properties) span, depth => do
    let parts ← Node.lowerPatternParts properties .assign depth
    pure (.object parts (← describe (.mk (.objectPattern properties) span)), [])
  | .mk (.arrayPattern elements) span, depth => do
    let items ← Node.lowerPatternElements elements .assign depth
    pure (.array items (← describe (.mk (.arrayPattern elements) span)), [])
  | .mk (.memberExpression object property computed _) _, depth => do
    let c ← object.lower depth
    let key ← property.lowerKey computed depth
    pure (.member c key, [])
  | .mk kind span, _ => fault .assignmentType kind.typeName span.position

def Node.lowerCaseFunctions : List Node → Nat → Lower (List (String × Template))
  | [], _ => pure []
  | .mk (.switchCase _ consequent) _ :: rest, depth => do
    let functions ← Node.lowerFunctions consequent depth
    return functions ++ (← Node.lowerCaseFunctions rest depth)
  | _ :: rest, depth => Node.lowerCaseFunctions rest depth

/-- Lower the cases of a switch: their tests and their bodies. -/
def Node.lowerCases : List Node → Nat → Lower (List (Code × Code))
  | [], _ => pure []
  | .mk (.switchCase test consequent) span :: rest, depth => do
    checkNesting depth span.position
    let test ← Node.lower? test (depth + 1)
    let statements ← Node.lowerStatements consequent depth
    return (.step span.position (test.getD .defaultCase), .sequence statements)
      :: (← Node.lowerCases rest depth)
  | .mk kind span :: _, _ => fault .nodeType kind.typeName span.position

/-- Lower the handler of a try statement. -/
def Node.lowerHandler? : Option Node → Nat → Lower (Option (Option Pattern × Code))
  | none, _ => pure none
  | some (.mk (.catchClause none body) _), depth => return some (none, ← body.lower depth)
  | some (.mk (.catchClause (some param) body) _), depth => do
    let p ← param.lowerPattern .parameter depth
    let c ← body.lower depth
    pure (some (some p, c))
  | some (.mk kind span), _ => fault .nodeType kind.typeName span.position

/-- Lower a class body: the constructor, and the other members. -/
def Node.lowerClassBody : Node → String → Nat → Lower (Option Template × List ClassMember)
  | .mk (.classBody members) _, name, depth => Node.lowerMembers members name depth
  | .mk kind span, _, _ => fault .nodeType kind.typeName span.position

/-- Lower the members of a class; the last constructor counts. -/
def Node.lowerMembers : List Node → String → Nat → Lower (Option Template × List ClassMember)
  | [], _, _ => pure (none, [])
  | .mk (.methodDefinition key value kind computed isStatic) _ :: rest, name, depth =>
    match value with
    | .mk (.function .expression _ params body flags) span => do
      match kind with
      | .constructor =>
        let t ← template "FunctionExpression" span flags (leadingParameters params) name false false
          (Node.lowerParameters params depth) (body.lowerBody depth)
        let (later, members) ← Node.lowerMembers rest name depth
        pure (later.or (some t), members)
      | .method =>
        let key ← key.lowerKey computed depth
        let t ← template "FunctionExpression" span flags (leadingParameters params)
          ((fixedName? key).getD "") false false (Node.lowerParameters params depth)
          (body.lowerBody depth)
        let (constructor, members) ← Node.lowerMembers rest name depth
        pure (constructor, .method key t isStatic :: members)
      | .get =>
        let (constructor, members) ← Node.lowerMembers rest name depth
        pure (constructor, .accessor true :: members)
      | .set =>
        let (constructor, members) ← Node.lowerMembers rest name depth
        pure (constructor, .accessor false :: members)
    | .mk kind span => fault .nodeType kind.typeName span.position
  | .mk (.propertyDefinition key value computed isStatic) _ :: rest, name, depth => do
    let key ← key.lowerKey computed depth
    match value with
    | none =>
      let (constructor, members) ← Node.lowerMembers rest name depth
      pure (constructor, .field key none false isStatic :: members)
    | some value =>
      let isArrow :=
        match value.kind with
        | .function .arrow _ _ _ _ => true
        | _ => false
      let init ←
        match fixedName? key with
        | some field => value.lowerNamed field false depth
        | none => value.lower depth
      let (constructor, members) ← Node.lowerMembers rest name depth
      pure (constructor, .field key (some init) isArrow isStatic :: members)
  | .mk kind span :: _, _, _ => fault .nodeType kind.typeName span.position

/-- Lower a member or call as a part of a chain. -/
def Kind.lowerLink : Kind → Span → Nat → Lower Link
  | .chainExpression expression, span, depth =>
    return .step span.position (← expression.lowerLink depth)
  | .memberExpression object property computed optional, span, depth => do
    let key ← property.lowerKey computed depth
    match object.kind with
    | .super => pure (.superMember span.position key)
    | _ => return .member span.position (← object.lowerLink depth) key optional
  | .callExpression callee arguments optional, span, depth => do
    let args ← Node.lowerArguments arguments depth
    let label ← describe callee
    match callee.kind with
    | .super => pure (.superCall span.position args)
    | .identifier name =>
      if name == "eval" || name == "arguments" then noteArguments
      pure (.callName span.position name args optional label)
    | _ => return .call span.position (← callee.lowerLink depth) args optional label
  | kind, span, _ => fault .nodeType kind.typeName span.position

/-- Lower what a node does apart from counting a step. Loops know the labels that stand in front of them. -/
def Kind.lower : Kind → Span → List String → Nat → Lower Code
  | .program body, _, _, depth => return .sequence (← Node.lowerStatements body depth)
  | .expressionStatement expression _, _, _, depth => return .expression (← expression.lower depth)
  | .blockStatement statements, _, _, depth => do
    let (frame, functions, code) ← Lower.body (lexicalFrame statements)
      (Node.lowerFunctions statements depth) (Node.lowerStatements statements depth)
    pure (.block frame functions code)
  | .emptyStatement, _, _, _ | .debuggerStatement, _, _, _ => pure .empty
  | .withStatement object body, _, _, depth => do
    let o ← object.lower depth
    let b ← body.lower depth
    pure (.withObject o b)
  | .returnStatement argument, _, _, depth => return .exit (← Node.lower? argument depth)
  | .labeledStatement label (.mk kind span), _, labels, depth => do
    let name := label.name?.getD ""
    let labels := labels ++ [name]
    let body ←
      if kind.isLabeled then kind.lower span labels depth
      else if kind.isLoop then do pure (Code.step span.position (← kind.lower span labels depth))
      else
        asCode kind.isLink span.position depth (fun d => kind.lower span [] d) fun d => kind.lowerLink span d
    pure (.labeled name body)
  | .breakStatement label, _, _, _ => pure (.jumpOut (nameOf? label))
  | .continueStatement label, _, _, _ => pure (.jumpOn (nameOf? label))
  | .ifStatement test consequent alternate, _, _, depth => do
    let t ← test.lower depth
    let c ← consequent.lower depth
    let a ← Node.lower? alternate depth
    pure (.branch t c a)
  | .switchStatement discriminant cases, _, _, depth => do
    let d ← discriminant.lower depth
    let consequents := cases.flatMap fun c =>
      match c.kind with
      | .switchCase _ consequent => consequent
      | _ => []
    let frame := lexicalFrame consequents
    Lower.inFrame frame do
      let functions ← Node.lowerCaseFunctions cases depth
      let lowered ← Node.lowerCases cases depth
      pure (.switch d frame (keepLast functions) (lowered.map Prod.fst) (lowered.map Prod.snd))
  | .switchCase test _, _, _, depth => return (← Node.lower? test depth).getD .defaultCase
  | .throwStatement argument, _, _, depth => return .throw (← argument.lower depth)
  | .tryStatement block handler finalizer, _, _, depth => do
    let b ← block.lower depth
    let h ← Node.lowerHandler? handler depth
    let f ← Node.lower? finalizer depth
    pure (.attempt b h f)
  | .whileStatement test body, _, labels, depth => do
    let t ← test.lower depth
    let b ← body.lower depth
    pure (.whileLoop labels t b)
  | .doWhileStatement body test, _, labels, depth => do
    let b ← body.lower depth
    let t ← test.lower depth
    pure (.doLoop labels b t)
  | .forStatement init test update body, _, labels, depth => do
    let frame := (init.map Node.lexicalNames).getD []
    let frame :=
      match init.map Node.kind with
      | some (.variableDeclaration _ _) => frame
      | _ => []
    Lower.inFrame frame do
      let i ← Node.lower? init depth
      let t ← Node.lower? test depth
      let u ← Node.lower? update depth
      let b ← body.lower depth
      pure (.forLoop labels frame i t u b)
  | .forInStatement left right body, _, labels, depth => do
    let o ← right.lower depth
    let (target, frame) ← left.lowerTarget depth
    Lower.inFrame frame do
      let b ← body.lower depth
      pure (.forIn labels target frame o b)
  | .function .declaration _ _ _ _, _, _, _ => pure .empty
  | .function .expression id params body flags, span, _, depth => do
    let t ← template "FunctionExpression" span flags (leadingParameters params)
      ((nameOf? id).getD "") (nameOf? id).isSome false (Node.lowerParameters params depth)
      (body.lowerBody depth)
    pure (.function t)
  | .function .arrow id params body flags, span, _, depth => do
    let t ← template "ArrowFunctionExpression" span flags (leadingParameters params)
      ((nameOf? id).getD "") false true (Node.lowerParameters params depth) (body.lowerBody depth)
    pure (.function t)
  | .variableDeclaration declarations kind, _, _, depth =>
    return .declare (← Node.lowerDeclarators declarations kind depth)
  | .classLike form id superClass body, span, _, depth => do
    let name := (nameOf? id).getD ""
    let parent ← Node.lower? superClass depth
    let (constructor, members) ← body.lowerClassBody name depth
    let t := ClassTemplate.mk name (nameOf? id) parent constructor members (← sourceOf span)
      span.position
    match form with
    | .declaration => pure (.classDeclaration t span.position)
    | .expression => pure (.classValue t)
  | .identifier name, span, _, _ => do
    if name == "arguments" then noteArguments
    pure (.identifier name span.position)
  | .literal value _ regex, _, _, _ =>
    match regex with
    | some r => pure (.regex r.pattern r.flags)
    | none => pure (.constant (.ofJson value))
  | .thisExpression, _, _, _ => pure .this
  | .super, span, _, _ => pure (.identifier "super" span.position)
  | .arrayExpression elements, _, _, depth => return .array (← Node.lowerElements elements depth)
  | .objectExpression properties, _, _, depth =>
    return .object (← Node.lowerProperties properties depth)
  | .unaryExpression operator _ (.mk kind aspan), span, _, depth =>
    match operator, kind with
    | .typeOf, .identifier name => pure (.typeOfName name span.position)
    | .delete, .memberExpression object property computed _ => do
      let o ← object.lower depth
      let key ← property.lowerKey computed depth
      pure (.deleteMember o key)
    | .delete, .identifier _ => pure (.constant (.boolean false))
    | .other word, _ => fault .unaryOperator word.text span.position
    | _, other => do
      let a ← asCode other.isLink aspan.position depth (fun d => other.lower aspan [] d)
        fun d => other.lowerLink aspan d
      pure (.unary operator a span.position)
  | .updateExpression operator isPrefix (.mk kind _), span, _, depth =>
    match operator with
    | .other word => fault .updateOperator word.text span.position
    | _ =>
      let delta := if operator = .increment then 1.0 else -1.0
      match kind with
      | .identifier name => pure (.updateName name delta isPrefix span.position)
      | .memberExpression object property computed _ => do
        let o ← object.lower depth
        let key ← property.lowerKey computed depth
        pure (.updateMember o key delta isPrefix span.position)
      | _ => fault .assignmentType kind.typeName span.position
  | .binaryExpression operator left right, span, _, depth =>
    match operator with
    | .other word => fault .binaryOperator word.text span.position
    | _ => do
      let l ← left.lower depth
      let r ← right.lower depth
      pure (.binary operator l r)
  | .logicalExpression operator left right, span, _, depth =>
    match operator with
    | .other word => fault .logicalOperator word.text span.position
    | _ => do
      let l ← left.lower depth
      let r ← right.lower depth
      pure (.logical operator l r)
  | .assignmentExpression operator (.mk kind lspan) right, span, _, depth =>
    match operator with
    | .other word => fault .assignmentExpression word.text span.position
    | _ =>
      match kind with
      | .identifier name => do
        let v ← right.lowerNamed name true depth
        pure (.assignName operator name v span.position)
      | .memberExpression object property computed _ => do
        let o ← object.lower depth
        let key ← property.lowerKey computed depth
        let v ← right.lower depth
        pure (.assignMember operator o key v span.position)
      | .objectPattern properties =>
        if operator = .plain then do
          let parts ← Node.lowerPatternParts properties .assign depth
          let label ← describe (.mk (.objectPattern properties) lspan)
          let v ← right.lower depth
          pure (.assignPattern (.object parts label) v)
        else fault .assignmentType "ObjectPattern" span.position
      | .arrayPattern elements =>
        if operator = .plain then do
          let items ← Node.lowerPatternElements elements .assign depth
          let label ← describe (.mk (.arrayPattern elements) lspan)
          let v ← right.lower depth
          pure (.assignPattern (.array items label) v)
        else fault .assignmentType "ArrayPattern" span.position
      | _ => fault .assignmentType kind.typeName span.position
  | .conditionalExpression test consequent alternate, _, _, depth => do
    let t ← test.lower depth
    let c ← consequent.lower depth
    let a ← alternate.lower depth
    pure (.conditional t c a)
  | .newExpression callee arguments, span, _, depth => do
    let label ← describe callee
    let c ← callee.lower depth
    let args ← Node.lowerArguments arguments depth
    pure (.construct c args label span.position)
  | .sequenceExpression expressions, _, _, depth =>
    return .comma (← Node.lowerAll expressions depth)
  | .templateLiteral quasis expressions, _, _, depth =>
    return .template (quasis.map templateText) (← Node.lowerAll expressions depth)
  | .taggedTemplateExpression tag (.mk kind _), span, _, depth =>
    match kind with
    | .templateLiteral quasis expressions => do
      let label ← describe tag
      let t ← tag.lowerLink depth
      let e ← Node.lowerAll expressions depth
      pure (.taggedTemplate t (quasis.map cookedLiteral) (quasis.map rawLiteral) e label span.position)
    | _ => fault .nodeType kind.typeName span.position
  | kind, span, _, _ => fault .nodeType kind.typeName span.position

end

/-! ## 3. Programs -/

/-- Lower a program; any other node is taken as a program of one statement. -/
def Node.lowerProgram (n : Node) : Lower Program := do
  let statements :=
    match n.kind with
    | .program body => body
    | _ => [n]
  let (frame, functions, code) ← Lower.body (lexicalFrame statements)
    (Node.lowerFunctions statements 0) (Node.lowerStatements statements 0)
  let (vars, uses) :=
    match (← get).bodies with
    | b :: _ => (b.vars.toList, b.usesArguments)
    | [] => ([], false)
  pure { hoisted := .mk vars functions frame uses, body := code }

/-- Lower a tree that was read from a text, or from elsewhere. -/
def Program.ofTree (n : Node) (source : Option String) : Except LowerError Program :=
  match n.lowerProgram { source := source } with
  | .ok p _ => .ok p
  | .error e _ => .error e

end GuestScript
