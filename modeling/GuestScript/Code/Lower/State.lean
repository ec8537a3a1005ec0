import GuestScript.Code
import GuestScript.Json.Writer

/-!
# What lowering keeps

While a tree is lowered, a *body* is open for every function around the current node. It collects the names that
`var` declares, knows the lexical frames that are open in it, and notes whether the function may use its list of
arguments.
-/

namespace GuestScript

/-! ## 1. Faults and state -/

/-- Why a tree cannot be lowered. -/
inductive LowerError where
  | interrupt (i : Interrupt)
  /-- An error that a script can catch when it evaluates text. -/
  | guest (kind : ErrorKind) (message : String)

/-- The fault that a diagnostic is raised as. -/
def LowerError.of (d : Diagnostic) (subject : String) (position : Option Position) : LowerError :=
  if d.interrupts then .interrupt (.of d subject position)
  else .guest d.kind (d.render subject position)

/-- A function or program body that is being lowered. -/
structure OpenBody where
  isArrow : Bool := false
  vars : Array String := #[]
  frames : List LexicalFrame := []
  usesArguments : Bool := false

/-- The source text, if there is one, and the open bodies, the innermost first. -/
structure Lowering where
  source : Option String
  bodies : List OpenBody := [{}]

/-- An action of lowering. -/
abbrev Lower := EStateM LowerError Lowering

namespace Lower

/-- Refuse a tree. -/
def fault {α : Type} (d : Diagnostic) (subject : String) (position : Option Position) : Lower α :=
  throw (.of d subject position)

/-- The deepest nesting of nodes that is lowered. -/
def maxNesting : Nat := 1024

/-- Refuse a node that is nested too deep. -/
def checkNesting (depth : Nat) (position : Option Position) : Lower Unit :=
  if depth < maxNesting then pure () else fault .nestingDepth (toString maxNesting) position

/-- Change the innermost body. -/
def modifyBody (f : OpenBody → OpenBody) : Lower Unit :=
  modify fun s =>
    match s.bodies with
    | b :: rest => { s with bodies := f b :: rest }
    | [] => s

/-- Note a use of the list of arguments in the nearest function that has one. -/
def noteArgumentsIn : List OpenBody → List OpenBody
  | [] => []
  | b :: rest => if b.isArrow then b :: noteArgumentsIn rest else { b with usesArguments := true } :: rest

/-- Note a use of the list of arguments. -/
def noteArguments : Lower Unit :=
  modify fun s => { s with bodies := noteArgumentsIn s.bodies }

/-- Run an action with a lexical frame open. -/
def inFrame {α : Type} (frame : LexicalFrame) (x : Lower α) : Lower α := do
  modifyBody fun b => { b with frames := frame :: b.frames }
  let a ← x
  modifyBody fun b => { b with frames := b.frames.tail }
  pure a

/-- Run an action in a new body, and give that body back with the result. The bodies around it are as before, but for
what an arrow function notes in them. -/
def inBody {α : Type} (isArrow : Bool) (x : Lower α) : Lower (α × OpenBody) := do
  let outer := (← get).bodies
  modify fun s => { s with bodies := { isArrow := isArrow } :: s.bodies }
  let a ← x
  let s ← get
  set { s with bodies := if isArrow then s.bodies.tail else outer }
  pure (a, s.bodies.headD {})

/-- Declare a `var`; a name that an open frame of the same body declares is refused. -/
def declareVar (position : Option Position) (name : String) : Lower Unit := do
  match (← get).bodies with
  | b :: _ =>
    if b.frames.any fun frame => frame.declares name then
      fault .redeclareBlockScopeVariable name position
    else if b.vars.contains name then pure ()
    else modifyBody fun b => { b with vars := b.vars.push name }
  | [] => pure ()

end Lower

/-! ## 2. Names that trees declare -/

mutual

/-- The names that a pattern declares, in order. -/
def Node.declaredNames : Node → List String
  | .mk (.identifier name) _ => [name]
  | .mk (.objectPattern properties) _ => propertiesDeclaredNames properties
  | .mk (.arrayPattern elements) _ => elementsDeclaredNames elements
  | .mk (.restElement argument) _ => argument.declaredNames
  | .mk (.assignmentPattern left _) _ => left.declaredNames
  | _ => []

/-- The names that the parts of an object pattern declare. -/
def propertiesDeclaredNames : List Node → List String
  | [] => []
  | .mk (.property _ value _ _ _ _) _ :: rest => value.declaredNames ++ propertiesDeclaredNames rest
  | .mk (.restElement argument) _ :: rest => argument.declaredNames ++ propertiesDeclaredNames rest
  | _ :: rest => propertiesDeclaredNames rest

/-- The names that the elements of an array pattern declare. -/
def elementsDeclaredNames : List (Option Node) → List String
  | [] => []
  | none :: rest => elementsDeclaredNames rest
  | some element :: rest => element.declaredNames ++ elementsDeclaredNames rest

end

def Node.declaratorNames (n : Node) : List String :=
  match n.kind with
  | .variableDeclarator id _ => id.declaredNames
  | _ => []

def Node.lexicalNames (n : Node) : LexicalFrame :=
  match n.kind with
  | .variableDeclaration declarations .let =>
    (declarations.flatMap Node.declaratorNames).map fun name => (name, .variable)
  | .variableDeclaration declarations .const =>
    (declarations.flatMap Node.declaratorNames).map fun name => (name, .constant)
  | .classLike .declaration (some id) _ _ =>
    match id.name? with
    | some name => [(name, .variable)]
    | none => []
  | _ => []

def lexicalFrame (statements : List Node) : LexicalFrame :=
  statements.flatMap Node.lexicalNames

/-! ## 3. Source text -/

/-- The part of a text that a span covers, if it is one and not empty. -/
def Span.text? (span : Span) (source : Option String) : Option String :=
  match source with
  | none => none
  | some s =>
    let start : String.Pos.Raw := ⟨span.start⟩
    let stop : String.Pos.Raw := ⟨span.stop⟩
    if span.start < span.stop && span.stop ≤ s.utf8ByteSize && start.isValid s && stop.isValid s then
      some (String.Pos.Raw.extract s start stop)
    else none

mutual

/-- The source text of a node, or a rendering of its shape when there is none. -/
def Node.describe (source : Option String) : Node → String
  | .mk kind span => (span.text? source).getD (kind.describe source)

/-- A rendering of simple shapes. -/
def Kind.describe (source : Option String) : Kind → String
  | .identifier name => name
  | .thisExpression => "this"
  | .super => "super"
  | .memberExpression object property computed _ =>
    if computed then object.describe source ++ "[" ++ property.describe source ++ "]"
    else object.describe source ++ "." ++ property.describe source
  | .callExpression callee _ _ => callee.describe source ++ "(...)"
  | .literal value _ _ => value.compact
  | other => other.typeName

end

namespace Lower

/-- The source text of a node for messages. -/
def describe (n : Node) : Lower String :=
  return n.describe (← get).source

def sourceOf (span : Span) : Lower (Option String) :=
  return span.text? (← get).source

end Lower

/-- The literal of a document; arrays and objects are none. -/
def Literal.ofJson : Json → Literal
  | .null => .null
  | .bool b => .boolean b
  | .number n => .number n.toFloat
  | .string s => .string s
  | .array _ | .object _ => .undefined

/-- The property name that a literal spells. -/
def literalKey : Json → String
  | .string s => s
  | .number n => Number.text n.toFloat
  | other => other.compact

end GuestScript
