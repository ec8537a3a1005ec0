/-!
# Diagnostics

Every fault that the evaluator itself raises, with its number, its wording, the kind of error that
guest code sees, and whether it *interrupts*: an interrupt ends the whole evaluation and no guest
`try` can hold it.
-/

namespace GuestScript

/-! ## 1. Positions and kinds -/

instance coeUInt32Nat : Coe UInt32 Nat := ⟨UInt32.toNat⟩

/-- What 32 bits keep of a natural number. -/
instance coeNatUInt32 : Coe Nat UInt32 := ⟨UInt32.ofNat⟩

/-- A place in a program text: lines count from one, columns from zero, in characters. -/
structure Position where
  line : UInt32
  column : UInt32
  deriving DecidableEq, Inhabited

/-- A position as it stands at the end of a message. -/
def Position.text (p : Position) : String :=
  "[" ++ toString p.line ++ ":" ++ toString p.column ++ "]"

/-- The error constructors. -/
inductive ErrorKind where
  | error
  | typeError
  | referenceError
  | syntaxError
  | rangeError
  | uriError
  | evalError
  deriving DecidableEq

def ErrorKind.name : ErrorKind → String
  | .error => "Error"
  | .typeError => "TypeError"
  | .referenceError => "ReferenceError"
  | .syntaxError => "SyntaxError"
  | .rangeError => "RangeError"
  | .uriError => "URIError"
  | .evalError => "EvalError"

/-- Every error constructor, the base of all others first. -/
def ErrorKind.all : List ErrorKind :=
  [.error, .typeError, .referenceError, .syntaxError, .rangeError, .uriError, .evalError]

/-! ## 2. The diagnostics -/

/-- What the evaluator can complain about. -/
inductive Diagnostic where
  | unknownError
  | executionTimeOut
  | maxSteps
  | missingParser
  | nestingDepth
  | nodeType
  | binaryOperator
  | logicalOperator
  | unaryOperator
  | updateOperator
  | objectStructure
  | assignmentExpression
  | variableType
  | paramType
  | assignmentType
  | functionUndefined
  | variableUndefined
  | isNotConstructor
  | useBeforeInitialization
  | redeclareBlockScopeVariable
  | constNotInitialized
  | constChange
  | builtInPrototypeChange
  | unknownVariableDeclType
  | spreadPatternVariableNoInit
  | normalError
  | notIterable
  | typeMismatch
  | range
  deriving DecidableEq

namespace Diagnostic

/-- The number of a diagnostic. -/
def code : Diagnostic → Nat
  | unknownError => 3001
  | executionTimeOut => 3002
  | maxSteps => 3003
  | missingParser => 3004
  | nestingDepth => 3005
  | nodeType => 1001
  | binaryOperator => 1002
  | logicalOperator => 1003
  | unaryOperator => 1004
  | updateOperator => 1005
  | objectStructure => 1006
  | assignmentExpression => 1007
  | variableType => 1008
  | paramType => 1009
  | assignmentType => 1010
  | functionUndefined => 2001
  | variableUndefined => 2002
  | isNotConstructor => 2003
  | useBeforeInitialization => 2004
  | redeclareBlockScopeVariable => 2005
  | constNotInitialized => 2006
  | constChange => 2007
  | unknownVariableDeclType => 2008
  | spreadPatternVariableNoInit => 2009
  | normalError => 2010
  | notIterable => 2011
  | builtInPrototypeChange => 2012
  | typeMismatch => 2013
  | range => 2014

/-- The wording of a diagnostic about `subject`. -/
def wording (d : Diagnostic) (subject : String) : String :=
  match d with
  | unknownError => subject
  | executionTimeOut => "Script execution timed out after " ++ subject ++ "ms"
  | maxSteps => "Script execution exceeded maximum of " ++ subject ++ " steps"
  | missingParser => "Option \"parse\" is required"
  | nestingDepth => "Program nesting exceeds " ++ subject ++ " levels"
  | nodeType => "Unknown node type: " ++ subject
  | binaryOperator => "Unknown binary operator: " ++ subject
  | logicalOperator => "Unknown logical operator: " ++ subject
  | unaryOperator => "Unknown unary operator: " ++ subject
  | updateOperator => "Unknown update operator: " ++ subject
  | objectStructure => "Unknown object structure: " ++ subject
  | assignmentExpression => "Unknown assignment expression: " ++ subject
  | variableType => "Unknown variable type: " ++ subject
  | paramType => "Unknown param type: " ++ subject
  | assignmentType => "Unknown assignment type: " ++ subject
  | functionUndefined => subject ++ " is not a function"
  | variableUndefined => subject ++ " is not defined"
  | isNotConstructor => subject ++ " is not a constructor"
  | useBeforeInitialization => "Cannot access '" ++ subject ++ "' before initialization"
  | redeclareBlockScopeVariable => "Cannot redeclare block-scoped variable '" ++ subject ++ "'"
  | constNotInitialized => "const '" ++ subject ++ "' declarations must be initialized."
  | constChange => "Cannot assign to '" ++ subject ++ "' because it is a constant."
  | builtInPrototypeChange =>
    "Cannot modify prototype of '" ++ subject ++ "' because it is a built-in object."
  | unknownVariableDeclType => "Unknown variable declarator type '" ++ subject ++ "'."
  | spreadPatternVariableNoInit => "no init in Rest Pattern Variable."
  | normalError => subject
  | notIterable => subject ++ " is not iterable"
  | typeMismatch => subject
  | range => subject

def kind : Diagnostic → ErrorKind
  | unknownError | executionTimeOut | maxSteps | missingParser | constNotInitialized => .error
  | nestingDepth | range => .rangeError
  | functionUndefined | isNotConstructor | constChange | builtInPrototypeChange | notIterable
  | typeMismatch => .typeError
  | _ => .referenceError

/-- Whether a diagnostic ends the whole evaluation. -/
def interrupts : Diagnostic → Bool
  | functionUndefined | variableUndefined | isNotConstructor | useBeforeInitialization
  | redeclareBlockScopeVariable | constChange | builtInPrototypeChange | normalError | notIterable
  | typeMismatch | range => false
  | _ => true

/-- The full message: the wording, followed by the position when one is known. -/
def render (d : Diagnostic) (subject : String) (position : Option Position) : String :=
  match position with
  | some p => d.wording subject ++ " " ++ p.text
  | none => d.wording subject

end Diagnostic

/-! ## 3. Interrupts -/

/-- A fatal condition that unwinds the whole evaluation, past every guest `catch` and `finally`. -/
structure Interrupt where
  code : Nat
  kind : ErrorKind
  message : String
  deriving DecidableEq

def Interrupt.of (d : Diagnostic) (subject : String) (position : Option Position) : Interrupt :=
  { code := d.code, kind := d.kind, message := d.render subject position }

def Interrupt.text (i : Interrupt) : String :=
  i.kind.name ++ ": " ++ i.message

end GuestScript
