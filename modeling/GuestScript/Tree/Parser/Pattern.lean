import GuestScript.Tree.Parser.State

/-!
# Expressions read as patterns

The left side of an assignment and the parameters of an arrow function are read as expressions first, and
turned into patterns when what follows shows it. `Node.toPattern` does that, or names the part that can
not be assigned to.
-/

namespace GuestScript

/-- The fault of a node that can not be assigned to. -/
def Span.notAssignable (s : Span) : ParseError :=
  .of "Assigning to rvalue" s.position

mutual

def Node.toPattern : Node → Except ParseError Node
  | .mk (.identifier name) span => .ok (.mk (.identifier name) span)
  | .mk (.memberExpression object property computed false) span =>
    .ok (.mk (.memberExpression object property computed false) span)
  | .mk (.objectPattern properties) span => .ok (.mk (.objectPattern properties) span)
  | .mk (.arrayPattern elements) span => .ok (.mk (.arrayPattern elements) span)
  | .mk (.assignmentPattern left right) span => .ok (.mk (.assignmentPattern left right) span)
  | .mk (.restElement argument) span => .ok (.mk (.restElement argument) span)
  | .mk (.assignmentExpression .plain left right) span => do
    pure (.mk (.assignmentPattern (← left.toPattern) right) span)
  | .mk (.arrayExpression elements) span => do
    pure (.mk (.arrayPattern (← elementsToPattern elements)) span)
  | .mk (.objectExpression properties) span => do
    pure (.mk (.objectPattern (← propertiesToPattern properties)) span)
  | .mk _ span => .error span.notAssignable

/-- The elements of an array pattern; a spread must be the last one. -/
def elementsToPattern : List (Option Node) → Except ParseError (List (Option Node))
  | [] => .ok []
  | none :: rest => do pure (none :: (← elementsToPattern rest))
  | some (.mk (.spreadElement argument) span) :: rest =>
    match rest with
    | [] => do pure [some (.mk (.restElement (← argument.toPattern)) span)]
    | _ :: _ => .error (.of "Rest element must be last element" span.position)
  | some element :: rest => do
    pure (some (← element.toPattern) :: (← elementsToPattern rest))

/-- The properties of an object pattern; a spread must be the last one. -/
def propertiesToPattern : List Node → Except ParseError (List Node)
  | [] => .ok []
  | .mk (.spreadElement argument) span :: rest =>
    match rest with
    | [] => do pure [.mk (.restElement (← argument.toPattern)) span]
    | _ :: _ => .error span.notAssignable
  | .mk (.property key value .init false shorthand computed) span :: rest => do
    let value ← value.toPattern
    pure (.mk (.property key value .init false shorthand computed) span ::
      (← propertiesToPattern rest))
  | .mk _ span :: _ => .error span.notAssignable

end

mutual

/-- The names that a pattern binds, in order. -/
def Node.boundNames : Node → List String
  | .mk (.identifier name) _ => [name]
  | .mk (.arrayPattern elements) _ => elementsBoundNames elements
  | .mk (.objectPattern properties) _ => propertiesBoundNames properties
  | .mk (.assignmentPattern left _) _ => left.boundNames
  | .mk (.restElement argument) _ => argument.boundNames
  | _ => []

/-- The names that the elements of an array pattern bind. -/
def elementsBoundNames : List (Option Node) → List String
  | [] => []
  | none :: rest => elementsBoundNames rest
  | some element :: rest => element.boundNames ++ elementsBoundNames rest

/-- The names that the properties of an object pattern bind. -/
def propertiesBoundNames : List Node → List String
  | [] => []
  | .mk (.property _ value _ _ _ _) _ :: rest => value.boundNames ++ propertiesBoundNames rest
  | property :: rest => property.boundNames ++ propertiesBoundNames rest

end

namespace Parser

/-- Turn an expression into a pattern. -/
def pattern (n : Node) : Parse Node :=
  match n.toPattern with
  | .ok p => pure p
  | .error e => throw e

/-- A node can be assigned to as a whole: a name, or a member that is not optional. -/
def checkSimpleTarget (n : Node) : Parse Unit := do
  match n.kind with
  | .identifier name =>
    if (← get).strict && (name = "eval" || name = "arguments") then
      failAt ("Assigning to " ++ name ++ " in strict mode") n.position
  | .memberExpression _ _ _ false => pure ()
  | _ => failAt "Assigning to rvalue" n.position

/-- The left side of an assignment or the variable of a loop: a pattern or a simple target. -/
def assignmentTarget (allowPattern : Bool) (n : Node) : Parse Node := do
  match n.kind with
  | .arrayExpression _ =>
    if allowPattern then pattern n
    else
      checkSimpleTarget n
      pure n
  | .objectExpression _ =>
    if allowPattern then pattern n
    else
      checkSimpleTarget n
      pure n
  | _ =>
    checkSimpleTarget n
    pure n

end Parser

end GuestScript
