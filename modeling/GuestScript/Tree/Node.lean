import GuestScript.Diagnostic
import GuestScript.Json.Basic
import GuestScript.Tree.Operator

/-!
# The syntax tree

Programs in the shape of ESTree: every node has a kind and a span of source text. A tree can come from the
parser or from a JSON document, so a node may hold any node in any of its places; what makes sense where
is decided when the tree is lowered to code.
-/

namespace GuestScript

/-! ## 1. Spans and small enumerations -/

/-- The part of a text that a node covers: byte offsets, and the places of its ends when known. -/
structure Span where
  start : Nat
  stop : Nat
  loc : Option (Position × Position)
  deriving DecidableEq

/-- The place where a span starts. -/
def Span.position (s : Span) : Option Position :=
  s.loc.map Prod.fst

/-- How a variable is declared. -/
inductive VariableKind where
  | var
  | let
  | const
  deriving DecidableEq

def VariableKind.text : VariableKind → String
  | .var => "var"
  | .let => "let"
  | .const => "const"

/-- What a property of an object literal defines. -/
inductive PropertyKind where
  | init
  | get
  | set
  deriving DecidableEq

/-- What a method of a class defines. -/
inductive MethodKind where
  | constructor
  | method
  | get
  | set
  deriving DecidableEq

/-- The three ways to write a function. -/
inductive FunctionForm where
  | declaration
  | expression
  | arrow
  deriving DecidableEq

/-- The two ways to write a class. -/
inductive ClassForm where
  | declaration
  | expression
  deriving DecidableEq

/-- The source and the flags of a regular expression literal. -/
structure RegexLiteral where
  pattern : String
  flags : String
  deriving DecidableEq

/-- The remarks on how a function is written. -/
structure FunctionFlags where
  /-- The body of an arrow function is an expression. -/
  expression : Bool := false
  generator : Bool := false
  isAsync : Bool := false
  deriving DecidableEq

/-! ## 2. Nodes -/

mutual

/-- A node of the syntax tree. -/
inductive Node where
  | mk (kind : Kind) (span : Span)

/-- What a node is, with its parts. -/
inductive Kind where
  | program (body : List Node)
  | expressionStatement (expression : Node) (directive : Option String)
  | blockStatement (body : List Node)
  | emptyStatement
  | debuggerStatement
  | withStatement (object body : Node)
  | returnStatement (argument : Option Node)
  | labeledStatement (label body : Node)
  | breakStatement (label : Option Node)
  | continueStatement (label : Option Node)
  | ifStatement (test consequent : Node) (alternate : Option Node)
  | switchStatement (discriminant : Node) (cases : List Node)
  | switchCase (test : Option Node) (consequent : List Node)
  | throwStatement (argument : Node)
  | tryStatement (block : Node) (handler finalizer : Option Node)
  | catchClause (param : Option Node) (body : Node)
  | whileStatement (test body : Node)
  | doWhileStatement (body test : Node)
  | forStatement (init test update : Option Node) (body : Node)
  | forInStatement (left right body : Node)
  | function (form : FunctionForm) (id : Option Node) (params : List Node) (body : Node)
      (flags : FunctionFlags)
  | variableDeclaration (declarations : List Node) (kind : VariableKind)
  | variableDeclarator (id : Node) (init : Option Node)
  | classLike (form : ClassForm) (id superClass : Option Node) (body : Node)
  | identifier (name : String)
  | literal (value : Json) (raw : Option String) (regex : Option RegexLiteral)
  | thisExpression
  | super
  | arrayExpression (elements : List (Option Node))
  | objectExpression (properties : List Node)
  | property (key value : Node) (kind : PropertyKind) (method shorthand computed : Bool)
  | unaryExpression (operator : UnaryOperator) (isPrefix : Bool) (argument : Node)
  | updateExpression (operator : UpdateOperator) (isPrefix : Bool) (argument : Node)
  | binaryExpression (operator : BinaryOperator) (left right : Node)
  | assignmentExpression (operator : AssignmentOperator) (left right : Node)
  | logicalExpression (operator : LogicalOperator) (left right : Node)
  | memberExpression (object property : Node) (computed optional : Bool)
  | chainExpression (expression : Node)
  | conditionalExpression (test consequent alternate : Node)
  | callExpression (callee : Node) (arguments : List Node) (optional : Bool)
  | newExpression (callee : Node) (arguments : List Node)
  | sequenceExpression (expressions : List Node)
  | spreadElement (argument : Node)
  | templateLiteral (quasis expressions : List Node)
  | templateElement (raw : String) (cooked : Option String) (tail : Bool)
  | taggedTemplateExpression (tag quasi : Node)
  | classBody (body : List Node)
  | methodDefinition (key value : Node) (kind : MethodKind) (computed isStatic : Bool)
  | propertyDefinition (key : Node) (value : Option Node) (computed isStatic : Bool)
  | objectPattern (properties : List Node)
  | arrayPattern (elements : List (Option Node))
  | restElement (argument : Node)
  | assignmentPattern (left right : Node)
  /-- A kind that the evaluator does not know. -/
  | unsupported (name : String)

end

namespace Node

def kind : Node → Kind
  | mk kind _ => kind

/-- The part of the text that a node covers. -/
def span : Node → Span
  | mk _ span => span

/-- The place where a node starts. -/
def position (n : Node) : Option Position :=
  n.span.position

def name? (n : Node) : Option String :=
  match n.kind with
  | .identifier name => some name
  | _ => none

end Node

def Kind.typeName : Kind → String
  | program _ => "Program"
  | expressionStatement _ _ => "ExpressionStatement"
  | blockStatement _ => "BlockStatement"
  | emptyStatement => "EmptyStatement"
  | debuggerStatement => "DebuggerStatement"
  | withStatement _ _ => "WithStatement"
  | returnStatement _ => "ReturnStatement"
  | labeledStatement _ _ => "LabeledStatement"
  | breakStatement _ => "BreakStatement"
  | continueStatement _ => "ContinueStatement"
  | ifStatement _ _ _ => "IfStatement"
  | switchStatement _ _ => "SwitchStatement"
  | switchCase _ _ => "SwitchCase"
  | throwStatement _ => "ThrowStatement"
  | tryStatement _ _ _ => "TryStatement"
  | catchClause _ _ => "CatchClause"
  | whileStatement _ _ => "WhileStatement"
  | doWhileStatement _ _ => "DoWhileStatement"
  | forStatement _ _ _ _ => "ForStatement"
  | forInStatement _ _ _ => "ForInStatement"
  | function .declaration _ _ _ _ => "FunctionDeclaration"
  | function .expression _ _ _ _ => "FunctionExpression"
  | function .arrow _ _ _ _ => "ArrowFunctionExpression"
  | variableDeclaration _ _ => "VariableDeclaration"
  | variableDeclarator _ _ => "VariableDeclarator"
  | classLike .declaration _ _ _ => "ClassDeclaration"
  | classLike .expression _ _ _ => "ClassExpression"
  | identifier _ => "Identifier"
  | literal _ _ _ => "Literal"
  | thisExpression => "ThisExpression"
  | super => "Super"
  | arrayExpression _ => "ArrayExpression"
  | objectExpression _ => "ObjectExpression"
  | property _ _ _ _ _ _ => "Property"
  | unaryExpression _ _ _ => "UnaryExpression"
  | updateExpression _ _ _ => "UpdateExpression"
  | binaryExpression _ _ _ => "BinaryExpression"
  | assignmentExpression _ _ _ => "AssignmentExpression"
  | logicalExpression _ _ _ => "LogicalExpression"
  | memberExpression _ _ _ _ => "MemberExpression"
  | chainExpression _ => "ChainExpression"
  | conditionalExpression _ _ _ => "ConditionalExpression"
  | callExpression _ _ _ => "CallExpression"
  | newExpression _ _ => "NewExpression"
  | sequenceExpression _ => "SequenceExpression"
  | spreadElement _ => "SpreadElement"
  | templateLiteral _ _ => "TemplateLiteral"
  | templateElement _ _ _ => "TemplateElement"
  | taggedTemplateExpression _ _ => "TaggedTemplateExpression"
  | classBody _ => "ClassBody"
  | methodDefinition _ _ _ _ _ => "MethodDefinition"
  | propertyDefinition _ _ _ _ => "PropertyDefinition"
  | objectPattern _ => "ObjectPattern"
  | arrayPattern _ => "ArrayPattern"
  | restElement _ => "RestElement"
  | assignmentPattern _ _ => "AssignmentPattern"
  | unsupported name => name

def Node.typeName (n : Node) : String :=
  n.kind.typeName

end GuestScript
