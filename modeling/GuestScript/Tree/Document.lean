import GuestScript.Json.Reader
import GuestScript.Json.Writer
import GuestScript.Tree.Node

/-!
# Syntax trees as JSON documents

A tree is written in the shape of ESTree: an object with the kind's name under `type`, the kind's own
fields, the offsets `start` and `end`, and `loc` when the places are known. Reading takes the same shape
and fills in what may be left out; a name that is no known kind is kept as an unsupported node. A node may
also be an array that holds the name of its kind and then the fields in order.

* `Node.ofText?` reads a tree from a JSON text.
* `Node.toJson?` writes a tree; a tree with an unsupported node has no written form.
-/

namespace GuestScript

/-! ## 1. Fields -/

/-- The fields of a node that is being read. Fields given by place must be there unless they have a
default value. -/
structure Fields where
  members : List (String × Json)
  byPlace : Bool

/-- What a document holds, which is nothing when it is null. -/
def Json.orNull? {α : Type} (read : Json → Option α) : Json → Option (Option α)
  | .null => some none
  | j => (read j).map some

namespace Fields

/-- A field that must be there. -/
def required (f : Fields) (name : String) : Option Json :=
  f.members.lookup name

/-- What a field that must be there holds. -/
def value {α : Type} (f : Fields) (name : String) (read : Json → Option α) : Option α :=
  (f.required name).bind read

def text (f : Fields) (name : String) : Option String :=
  f.value name Json.string?

/-- A truth value that must be there. -/
def flag (f : Fields) (name : String) : Option Bool :=
  f.value name Json.bool?

/-- A truth value with a default. -/
def flagOr (f : Fields) (name : String) (default : Bool) : Option Bool :=
  match f.members.lookup name with
  | none => some default
  | some j => j.bool?

/-- A field that may be left out or null. -/
def optional {α : Type} (f : Fields) (name : String) (read : Json → Option α) :
    Option (Option α) :=
  match f.members.lookup name with
  | none => if f.byPlace then none else some none
  | some j => j.orNull? read

/-- A field that may be left out, also by place, or null. -/
def defaulted {α : Type} (f : Fields) (name : String) (read : Json → Option α) :
    Option (Option α) :=
  match f.members.lookup name with
  | none => some none
  | some j => j.orNull? read

end Fields

/-- The fields of a value that is an object, or an array with the fields in order. -/
def Fields.ofStructure (names : List String) : Json → Option Fields
  | .object members => some { members := members, byPlace := false }
  | .array items =>
    if items.length ≤ names.length then some { members := names.zip items, byPlace := true } else none
  | _ => none

/-- The name of a variant: a text, or an object with that one member and nothing in it. -/
def variantName? : Json → Option String
  | .string s => some s
  | .object [(s, .null)] => some s
  | .object [(s, .object [])] => some s
  | _ => none

/-! ## 2. Places -/

/-- A number of at most 32 bits. -/
def readWord32? : Json → Option UInt32
  | .number (.natural n) => if n < UInt32.size then some n.toUInt32 else none
  | _ => none

/-- A place in a text. -/
def Position.ofJson? (j : Json) : Option Position := do
  let f ← Fields.ofStructure ["line", "column"] j
  let line ← readWord32? (← f.required "line")
  let column ← readWord32? (← f.required "column")
  pure { line := line, column := column }

/-- The places of the two ends of a node. -/
def readLoc? (j : Json) : Option (Position × Position) := do
  let f ← Fields.ofStructure ["start", "end"] j
  let start ← Position.ofJson? (← f.required "start")
  let stop ← Position.ofJson? (← f.required "end")
  pure (start, stop)

/-- The span of a node; offsets that are no natural numbers count as zero. -/
def Span.ofJson? (j : Json) : Option Span := do
  let offset (name : String) : Nat := ((j.member? name).bind Json.natural?).getD 0
  let loc ←
    match j.member? "loc" with
    | none => some none
    | some loc => loc.orNull? readLoc?
  pure { start := offset "start", stop := offset "end", loc := loc }

/-! ## 3. Kinds of nodes -/

def VariableKind.ofJson? (j : Json) : Option VariableKind :=
  match variantName? j with
  | some "var" => some .var
  | some "let" => some .let
  | some "const" => some .const
  | _ => none

/-- What a property of an object literal defines. -/
def PropertyKind.ofJson? (j : Json) : Option PropertyKind :=
  match variantName? j with
  | some "init" => some .init
  | some "get" => some .get
  | some "set" => some .set
  | _ => none

/-- What a method of a class defines. -/
def MethodKind.ofJson? (j : Json) : Option MethodKind :=
  match variantName? j with
  | some "constructor" => some .constructor
  | some "method" => some .method
  | some "get" => some .get
  | some "set" => some .set
  | _ => none

/-- An operator on two values, by its spelling. -/
def BinaryOperator.ofJson? (j : Json) : Option BinaryOperator :=
  j.string?.map .ofText

/-- An operator that may leave its right side alone, by its spelling. -/
def LogicalOperator.ofJson? (j : Json) : Option LogicalOperator :=
  j.string?.map .ofText

/-- An operator on one value, by its spelling. -/
def UnaryOperator.ofJson? (j : Json) : Option UnaryOperator :=
  j.string?.map .ofText

/-- Increment or decrement, by its spelling. -/
def UpdateOperator.ofJson? (j : Json) : Option UpdateOperator :=
  j.string?.map .ofText

/-- An assignment, by its spelling. -/
def AssignmentOperator.ofJson? (j : Json) : Option AssignmentOperator :=
  j.string?.map .ofText

/-- A regular expression literal. -/
def RegexLiteral.ofJson? (j : Json) : Option RegexLiteral := do
  let f ← Fields.ofStructure ["pattern", "flags"] j
  pure { pattern := ← f.text "pattern", flags := ← f.text "flags" }

/-- The text of a template piece as written, and what it stands for. -/
def readTemplateValue? (j : Json) : Option (String × Option String) := do
  let f ← Fields.ofStructure ["raw", "cooked"] j
  let raw ← f.text "raw"
  let cooked ← f.optional "cooked" Json.string?
  pure (raw, cooked)

/-- The names of the fields of each kind of node, in order. -/
def fieldNames : String → List String
  | "Program" => ["body"]
  | "ExpressionStatement" => ["expression", "directive"]
  | "BlockStatement" => ["body"]
  | "WithStatement" => ["object", "body"]
  | "ReturnStatement" => ["argument"]
  | "LabeledStatement" => ["label", "body"]
  | "BreakStatement" => ["label"]
  | "ContinueStatement" => ["label"]
  | "IfStatement" => ["test", "consequent", "alternate"]
  | "SwitchStatement" => ["discriminant", "cases"]
  | "SwitchCase" => ["test", "consequent"]
  | "ThrowStatement" => ["argument"]
  | "TryStatement" => ["block", "handler", "finalizer"]
  | "CatchClause" => ["param", "body"]
  | "WhileStatement" => ["test", "body"]
  | "DoWhileStatement" => ["body", "test"]
  | "ForStatement" => ["init", "test", "update", "body"]
  | "ForInStatement" => ["left", "right", "body"]
  | "FunctionDeclaration" => ["id", "params", "body", "expression", "generator", "async"]
  | "FunctionExpression" => ["id", "params", "body", "expression", "generator", "async"]
  | "ArrowFunctionExpression" => ["id", "params", "body", "expression", "generator", "async"]
  | "VariableDeclaration" => ["declarations", "kind"]
  | "VariableDeclarator" => ["id", "init"]
  | "ClassDeclaration" => ["id", "superClass", "body"]
  | "ClassExpression" => ["id", "superClass", "body"]
  | "Identifier" => ["name"]
  | "Literal" => ["value", "raw", "regex"]
  | "ArrayExpression" => ["elements"]
  | "ObjectExpression" => ["properties"]
  | "Property" => ["key", "value", "kind", "method", "shorthand", "computed"]
  | "UnaryExpression" => ["operator", "prefix", "argument"]
  | "UpdateExpression" => ["operator", "prefix", "argument"]
  | "BinaryExpression" => ["operator", "left", "right"]
  | "AssignmentExpression" => ["operator", "left", "right"]
  | "LogicalExpression" => ["operator", "left", "right"]
  | "MemberExpression" => ["object", "property", "computed", "optional"]
  | "ChainExpression" => ["expression"]
  | "ConditionalExpression" => ["test", "consequent", "alternate"]
  | "CallExpression" => ["callee", "arguments", "optional"]
  | "NewExpression" => ["callee", "arguments"]
  | "SequenceExpression" => ["expressions"]
  | "SpreadElement" => ["argument"]
  | "TemplateLiteral" => ["quasis", "expressions"]
  | "TemplateElement" => ["value", "tail"]
  | "TaggedTemplateExpression" => ["tag", "quasi"]
  | "ClassBody" => ["body"]
  | "MethodDefinition" => ["key", "value", "kind", "computed", "static"]
  | "PropertyDefinition" => ["key", "value", "computed", "static"]
  | "ObjectPattern" => ["properties"]
  | "ArrayPattern" => ["elements"]
  | "RestElement" => ["argument"]
  | "AssignmentPattern" => ["left", "right"]
  | _ => []

/-- The fields of a kind, given how a node inside it is read. -/
structure FieldReader where
  fields : Fields
  child : Json → Option Node

namespace FieldReader

/-- A node that must be there. -/
def node (r : FieldReader) (name : String) : Option Node :=
  (r.fields.required name).bind r.child

/-- A node that may be left out. -/
def node? (r : FieldReader) (name : String) : Option (Option Node) :=
  r.fields.optional name r.child

def nodes (r : FieldReader) (name : String) : Option (List Node) := do
  (← (← r.fields.required name).items?).mapM r.child

/-- A list of nodes, without any when it is left out. -/
def nodesOr (r : FieldReader) (name : String) : Option (List Node) :=
  match r.fields.members.lookup name with
  | none => some []
  | some _ => r.nodes name

def elements (r : FieldReader) (name : String) : Option (List (Option Node)) := do
  (← (← r.fields.required name).items?).mapM fun j => j.orNull? r.child

/-- The parts of a function. -/
def function (r : FieldReader) (form : FunctionForm) : Option Kind := do
  let id ← r.node? "id"
  let params ← r.nodes "params"
  let body ← r.node "body"
  let expression ← r.fields.flagOr "expression" false
  let generator ← r.fields.flagOr "generator" false
  let isAsync ← r.fields.flagOr "async" false
  pure (.function form id params body
    { expression := expression, generator := generator, isAsync := isAsync })

/-- The parts of a class. -/
def classLike (r : FieldReader) (form : ClassForm) : Option Kind := do
  pure (.classLike form (← r.node? "id") (← r.node? "superClass") (← r.node "body"))

/-- A statement, by the name of its kind. -/
def statement (r : FieldReader) (name : String) : Option (Option Kind) :=
  match name with
  | "Program" => some do pure (.program (← r.nodes "body"))
  | "ExpressionStatement" => some do
    pure (.expressionStatement (← r.node "expression")
      (← r.fields.defaulted "directive" Json.string?))
  | "BlockStatement" => some do pure (.blockStatement (← r.nodes "body"))
  | "EmptyStatement" => some (some .emptyStatement)
  | "DebuggerStatement" => some (some .debuggerStatement)
  | "WithStatement" => some do pure (.withStatement (← r.node "object") (← r.node "body"))
  | "ReturnStatement" => some do pure (.returnStatement (← r.node? "argument"))
  | "LabeledStatement" => some do pure (.labeledStatement (← r.node "label") (← r.node "body"))
  | "BreakStatement" => some do pure (.breakStatement (← r.node? "label"))
  | "ContinueStatement" => some do pure (.continueStatement (← r.node? "label"))
  | "IfStatement" => some do
    pure (.ifStatement (← r.node "test") (← r.node "consequent") (← r.node? "alternate"))
  | "SwitchStatement" => some do
    pure (.switchStatement (← r.node "discriminant") (← r.nodes "cases"))
  | "SwitchCase" => some do pure (.switchCase (← r.node? "test") (← r.nodes "consequent"))
  | "ThrowStatement" => some do pure (.throwStatement (← r.node "argument"))
  | "TryStatement" => some do
    pure (.tryStatement (← r.node "block") (← r.node? "handler") (← r.node? "finalizer"))
  | "CatchClause" => some do pure (.catchClause (← r.node? "param") (← r.node "body"))
  | "WhileStatement" => some do pure (.whileStatement (← r.node "test") (← r.node "body"))
  | "DoWhileStatement" => some do pure (.doWhileStatement (← r.node "body") (← r.node "test"))
  | "ForStatement" => some do
    pure (.forStatement (← r.node? "init") (← r.node? "test") (← r.node? "update")
      (← r.node "body"))
  | "ForInStatement" => some do
    pure (.forInStatement (← r.node "left") (← r.node "right") (← r.node "body"))
  | "FunctionDeclaration" => some (r.function .declaration)
  | "VariableDeclaration" => some do
    pure (.variableDeclaration (← r.nodes "declarations")
      (← r.fields.value "kind" VariableKind.ofJson?))
  | "VariableDeclarator" => some do pure (.variableDeclarator (← r.node "id") (← r.node? "init"))
  | "ClassDeclaration" => some (r.classLike .declaration)
  | _ => none

/-- An expression or one of its parts, by the name of its kind. -/
def expression (r : FieldReader) (name : String) : Option (Option Kind) :=
  match name with
  | "Identifier" => some do pure (.identifier (← r.fields.text "name"))
  | "Literal" => some do
    pure (.literal ((r.fields.members.lookup "value").getD .null)
      (← r.fields.defaulted "raw" Json.string?)
      (← r.fields.defaulted "regex" RegexLiteral.ofJson?))
  | "ThisExpression" => some (some .thisExpression)
  | "Super" => some (some .super)
  | "ArrayExpression" => some do pure (.arrayExpression (← r.elements "elements"))
  | "ObjectExpression" => some do pure (.objectExpression (← r.nodes "properties"))
  | "Property" => some do
    pure (.property (← r.node "key") (← r.node "value")
      (← r.fields.value "kind" PropertyKind.ofJson?) (← r.fields.flagOr "method" false)
      (← r.fields.flagOr "shorthand" false) (← r.fields.flagOr "computed" false))
  | "FunctionExpression" => some (r.function .expression)
  | "ArrowFunctionExpression" => some (r.function .arrow)
  | "UnaryExpression" => some do
    pure (.unaryExpression (← r.fields.value "operator" UnaryOperator.ofJson?) (← r.fields.flagOr "prefix" true)
      (← r.node "argument"))
  | "UpdateExpression" => some do
    pure (.updateExpression (← r.fields.value "operator" UpdateOperator.ofJson?) (← r.fields.flag "prefix")
      (← r.node "argument"))
  | "BinaryExpression" => some do
    pure (.binaryExpression (← r.fields.value "operator" BinaryOperator.ofJson?) (← r.node "left")
      (← r.node "right"))
  | "AssignmentExpression" => some do
    pure (.assignmentExpression (← r.fields.value "operator" AssignmentOperator.ofJson?) (← r.node "left")
      (← r.node "right"))
  | "LogicalExpression" => some do
    pure (.logicalExpression (← r.fields.value "operator" LogicalOperator.ofJson?) (← r.node "left")
      (← r.node "right"))
  | "MemberExpression" => some do
    pure (.memberExpression (← r.node "object") (← r.node "property") (← r.fields.flag "computed")
      (← r.fields.flagOr "optional" false))
  | "ChainExpression" => some do pure (.chainExpression (← r.node "expression"))
  | "ConditionalExpression" => some do
    pure (.conditionalExpression (← r.node "test") (← r.node "consequent") (← r.node "alternate"))
  | "CallExpression" => some do
    pure (.callExpression (← r.node "callee") (← r.nodes "arguments")
      (← r.fields.flagOr "optional" false))
  | "NewExpression" => some do
    pure (.newExpression (← r.node "callee") (← r.nodesOr "arguments"))
  | "SequenceExpression" => some do pure (.sequenceExpression (← r.nodes "expressions"))
  | "SpreadElement" => some do pure (.spreadElement (← r.node "argument"))
  | "TemplateLiteral" => some do
    pure (.templateLiteral (← r.nodes "quasis") (← r.nodes "expressions"))
  | "TemplateElement" => some do
    let (raw, cooked) ← readTemplateValue? (← r.fields.required "value")
    pure (.templateElement raw cooked (← r.fields.flag "tail"))
  | "TaggedTemplateExpression" => some do
    pure (.taggedTemplateExpression (← r.node "tag") (← r.node "quasi"))
  | "ClassExpression" => some (r.classLike .expression)
  | "ClassBody" => some do pure (.classBody (← r.nodes "body"))
  | "MethodDefinition" => some do
    pure (.methodDefinition (← r.node "key") (← r.node "value")
      (← r.fields.value "kind" MethodKind.ofJson?) (← r.fields.flagOr "computed" false)
      (← r.fields.flagOr "static" false))
  | "PropertyDefinition" => some do
    pure (.propertyDefinition (← r.node "key") (← r.node? "value")
      (← r.fields.flagOr "computed" false) (← r.fields.flagOr "static" false))
  | "ObjectPattern" => some do pure (.objectPattern (← r.nodes "properties"))
  | "ArrayPattern" => some do pure (.arrayPattern (← r.elements "elements"))
  | "RestElement" => some do pure (.restElement (← r.node "argument"))
  | "AssignmentPattern" => some do
    pure (.assignmentPattern (← r.node "left") (← r.node "right"))
  | _ => none

/-- A kind by its name; an unknown name is kept. -/
def kind (r : FieldReader) (name : String) : Option Kind :=
  match r.statement name with
  | some k => k
  | none =>
    match r.expression name with
    | some k => k
    | none => some (.unsupported name)

end FieldReader

/-! ## 4. Reading trees -/

/-- The name of the kind of a node and its fields. -/
def nodeFields? : Json → Option (String × Fields)
  | .object members =>
    match members.lookup "type" with
    | some (.string name) => some (name, { members := members, byPlace := false })
    | _ => none
  | .array (.string name :: items) => do
    let fields ← Fields.ofStructure (fieldNames name) (.array items)
    pure (name, fields)
  | _ => none

/-- Read a tree that nests less than `depth` deep. -/
def Node.ofJsonWithin? : Nat → Json → Option Node
  | 0, _ => none
  | depth + 1, j => do
    let span ← Span.ofJson? j
    let (name, fields) ← nodeFields? j
    let kind ← { fields := fields, child := Node.ofJsonWithin? depth : FieldReader }.kind name
    pure (.mk kind span)

/-- Read a tree from a document that a text can hold. -/
def Node.ofJson? (j : Json) : Option Node :=
  Node.ofJsonWithin? (Json.depthLimit + 1) j

/-- Read a tree from a JSON text. -/
def Node.ofText? (text : String) : Option Node :=
  match Json.parse text with
  | .ok j => Node.ofJson? j
  | .error _ => none

/-! ## 5. Writing trees -/

/-- A place as a document. -/
def Position.toJson (p : Position) : Json :=
  .object [("line", .number (.natural p.line.toNat)), ("column", .number (.natural p.column.toNat))]

def Span.toFields (s : Span) : List (String × Json) :=
  [("start", .number (.natural s.start)), ("end", .number (.natural s.stop))] ++
    match s.loc with
    | some (start, stop) => [("loc", .object [("start", start.toJson), ("end", stop.toJson)])]
    | none => []

/-- A text that may be missing. -/
def optionalText (s : Option String) : Json :=
  match s with
  | some s => .string s
  | none => .null

/-- A member that is left out when it is missing. -/
def presentText (name : String) (s : Option String) : List (String × Json) :=
  match s with
  | some s => [(name, .string s)]
  | none => []

/-- The spelling of what a property defines. -/
def PropertyKind.text : PropertyKind → String
  | .init => "init"
  | .get => "get"
  | .set => "set"

/-- The spelling of what a method defines. -/
def MethodKind.text : MethodKind → String
  | .constructor => "constructor"
  | .method => "method"
  | .get => "get"
  | .set => "set"

mutual

/-- A node as a document. -/
def Node.toJson? : Node → Option Json
  | .mk kind span => do
    let fields ← kind.toFields?
    pure (.object (("type", .string kind.typeName) :: fields ++ span.toFields))

/-- The own fields of a kind of node. -/
def Kind.toFields? : Kind → Option (List (String × Json))
  | .program body => do pure [("body", ← (nodesToJson? body).map .array)]
  | .expressionStatement e directive => do
    pure (("expression", ← e.toJson?) :: presentText "directive" directive)
  | .blockStatement body => do pure [("body", ← (nodesToJson? body).map .array)]
  | .emptyStatement => some []
  | .debuggerStatement => some []
  | .withStatement object body => do
    pure [("object", ← object.toJson?), ("body", ← body.toJson?)]
  | .returnStatement argument => do pure [("argument", ← optionToJson? argument)]
  | .labeledStatement label body => do pure [("label", ← label.toJson?), ("body", ← body.toJson?)]
  | .breakStatement label => do pure [("label", ← optionToJson? label)]
  | .continueStatement label => do pure [("label", ← optionToJson? label)]
  | .ifStatement test consequent alternate => do
    pure [("test", ← test.toJson?), ("consequent", ← consequent.toJson?),
      ("alternate", ← optionToJson? alternate)]
  | .switchStatement discriminant cases => do
    pure [("discriminant", ← discriminant.toJson?), ("cases", ← (nodesToJson? cases).map .array)]
  | .switchCase test consequent => do
    pure [("test", ← optionToJson? test), ("consequent", ← (nodesToJson? consequent).map .array)]
  | .throwStatement argument => do pure [("argument", ← argument.toJson?)]
  | .tryStatement block handler finalizer => do
    pure [("block", ← block.toJson?), ("handler", ← optionToJson? handler),
      ("finalizer", ← optionToJson? finalizer)]
  | .catchClause param body => do
    pure [("param", ← optionToJson? param), ("body", ← body.toJson?)]
  | .whileStatement test body => do pure [("test", ← test.toJson?), ("body", ← body.toJson?)]
  | .doWhileStatement body test => do pure [("body", ← body.toJson?), ("test", ← test.toJson?)]
  | .forStatement init test update body => do
    pure [("init", ← optionToJson? init), ("test", ← optionToJson? test),
      ("update", ← optionToJson? update), ("body", ← body.toJson?)]
  | .forInStatement left right body => do
    pure [("left", ← left.toJson?), ("right", ← right.toJson?), ("body", ← body.toJson?)]
  | .function _ id params body flags => do
    pure [("id", ← optionToJson? id), ("params", ← (nodesToJson? params).map .array),
      ("body", ← body.toJson?), ("expression", .bool flags.expression),
      ("generator", .bool flags.generator), ("async", .bool flags.isAsync)]
  | .variableDeclaration declarations kind => do
    pure [("declarations", ← (nodesToJson? declarations).map .array), ("kind", .string kind.text)]
  | .variableDeclarator id init => do
    pure [("id", ← id.toJson?), ("init", ← optionToJson? init)]
  | .classLike _ id superClass body => do
    pure [("id", ← optionToJson? id), ("superClass", ← optionToJson? superClass),
      ("body", ← body.toJson?)]
  | .identifier name => some [("name", .string name)]
  | .literal value raw regex =>
    some (("value", value) :: presentText "raw" raw ++
      match regex with
      | some r => [("regex", .object [("pattern", .string r.pattern), ("flags", .string r.flags)])]
      | none => [])
  | .thisExpression => some []
  | .super => some []
  | .arrayExpression elements => do pure [("elements", ← (elementsToJson? elements).map .array)]
  | .objectExpression properties => do pure [("properties", ← (nodesToJson? properties).map .array)]
  | .property key value kind method shorthand computed => do
    pure [("key", ← key.toJson?), ("value", ← value.toJson?), ("kind", .string kind.text),
      ("method", .bool method), ("shorthand", .bool shorthand), ("computed", .bool computed)]
  | .unaryExpression operator isPrefix argument => do
    pure [("operator", .string operator.text), ("prefix", .bool isPrefix),
      ("argument", ← argument.toJson?)]
  | .updateExpression operator isPrefix argument => do
    pure [("operator", .string operator.text), ("prefix", .bool isPrefix),
      ("argument", ← argument.toJson?)]
  | .binaryExpression operator left right => do
    pure [("operator", .string operator.text), ("left", ← left.toJson?), ("right", ← right.toJson?)]
  | .assignmentExpression operator left right => do
    pure [("operator", .string operator.text), ("left", ← left.toJson?), ("right", ← right.toJson?)]
  | .logicalExpression operator left right => do
    pure [("operator", .string operator.text), ("left", ← left.toJson?), ("right", ← right.toJson?)]
  | .memberExpression object property computed optional => do
    pure [("object", ← object.toJson?), ("property", ← property.toJson?),
      ("computed", .bool computed), ("optional", .bool optional)]
  | .chainExpression expression => do pure [("expression", ← expression.toJson?)]
  | .conditionalExpression test consequent alternate => do
    pure [("test", ← test.toJson?), ("consequent", ← consequent.toJson?),
      ("alternate", ← alternate.toJson?)]
  | .callExpression callee arguments optional => do
    pure [("callee", ← callee.toJson?), ("arguments", ← (nodesToJson? arguments).map .array),
      ("optional", .bool optional)]
  | .newExpression callee arguments => do
    pure [("callee", ← callee.toJson?), ("arguments", ← (nodesToJson? arguments).map .array)]
  | .sequenceExpression expressions => do
    pure [("expressions", ← (nodesToJson? expressions).map .array)]
  | .spreadElement argument => do pure [("argument", ← argument.toJson?)]
  | .templateLiteral quasis expressions => do
    pure [("quasis", ← (nodesToJson? quasis).map .array),
      ("expressions", ← (nodesToJson? expressions).map .array)]
  | .templateElement raw cooked tail =>
    some [("value", .object [("raw", .string raw), ("cooked", optionalText cooked)]),
      ("tail", .bool tail)]
  | .taggedTemplateExpression tag quasi => do
    pure [("tag", ← tag.toJson?), ("quasi", ← quasi.toJson?)]
  | .classBody body => do pure [("body", ← (nodesToJson? body).map .array)]
  | .methodDefinition key value kind computed isStatic => do
    pure [("key", ← key.toJson?), ("value", ← value.toJson?), ("kind", .string kind.text),
      ("computed", .bool computed), ("static", .bool isStatic)]
  | .propertyDefinition key value computed isStatic => do
    pure [("key", ← key.toJson?), ("value", ← optionToJson? value), ("computed", .bool computed),
      ("static", .bool isStatic)]
  | .objectPattern properties => do pure [("properties", ← (nodesToJson? properties).map .array)]
  | .arrayPattern elements => do pure [("elements", ← (elementsToJson? elements).map .array)]
  | .restElement argument => do pure [("argument", ← argument.toJson?)]
  | .assignmentPattern left right => do
    pure [("left", ← left.toJson?), ("right", ← right.toJson?)]
  | .unsupported _ => none

def nodesToJson? : List Node → Option (List Json)
  | [] => some []
  | n :: rest => do pure ((← n.toJson?) :: (← nodesToJson? rest))

/-- A node that may be missing. -/
def optionToJson? : Option Node → Option Json
  | none => some .null
  | some n => n.toJson?

def elementsToJson? : List (Option Node) → Option (List Json)
  | [] => some []
  | n :: rest => do pure ((← optionToJson? n) :: (← elementsToJson? rest))

end

end GuestScript
