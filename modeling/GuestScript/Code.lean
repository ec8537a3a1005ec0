import GuestScript.Tree.Node
import GuestScript.Value

/-!
# Code

What a syntax tree is lowered to: every name that has to be declared is collected, every node that counts
as a step says so, and every construct is in the one form in which it runs. Function bodies are kept in
*templates*, from which each evaluation of a function expression makes a new function.

* `Code` runs to a completion, `Link` to the value of a part of a member or call chain together with the
  receiver for a call, and `Pattern` takes a value apart and binds its pieces.
-/

namespace GuestScript

/-! ## 1. Declarations -/

/-- Whether a lexical name may be assigned. -/
inductive LexicalKind where
  | variable
  | constant
  deriving DecidableEq

/-- The lexical names that one block-like construct declares. -/
abbrev LexicalFrame := List (String × LexicalKind)

def LexicalFrame.declares (frame : LexicalFrame) (name : String) : Bool :=
  frame.any fun entry => entry.1 == name

/-- Where the names of a pattern are written. -/
inductive BindingMode where
  /-- The initial value of a `var`: an assignment. -/
  | var
  /-- The initial value of a `let`, `const` or class, which ends the dead zone. -/
  | lexical
  /-- Parameters and caught values, which are set in the current scope itself. -/
  | parameter
  /-- A plain assignment. -/
  | assign
  deriving DecidableEq

/-! ## 2. Code -/

mutual

/-- Code that runs to a completion. -/
inductive Code where
  /-- One counted step at a place. -/
  | step (position : Option Position) (code : Code)
  | sequence (statements : List Code)
  | expression (code : Code)
  | block (frame : LexicalFrame) (functions : List (String × Template)) (body : Code)
  | empty
  | withObject (object body : Code)
  | exit (argument : Option Code)
  | labeled (label : String) (body : Code)
  | jumpOut (label : Option String)
  | jumpOn (label : Option String)
  | branch (test consequent : Code) (alternate : Option Code)
  | switch (discriminant : Code) (frame : LexicalFrame) (functions : List (String × Template))
      (tests bodies : List Code)
  | defaultCase
  | throw (argument : Code)
  | attempt (block : Code) (handler : Option (Option Pattern × Code)) (finalizer : Option Code)
  | whileLoop (labels : List String) (test body : Code)
  | doLoop (labels : List String) (body test : Code)
  | forLoop (labels : List String) (frame : LexicalFrame) (init test update : Option Code)
      (body : Code)
  | forIn (labels : List String) (target : Pattern) (frame : LexicalFrame) (object body : Code)
  | declare (bindings : List (Pattern × Option Code))
  | classDeclaration (template : ClassTemplate) (position : Option Position)
  | identifier (name : String) (position : Option Position)
  | constant (literal : Literal)
  | regex (pattern flags : String)
  | this
  /-- An array literal: a hole, or an element, spread out when it has a label for messages. -/
  | array (elements : List (Option (Code × Option String)))
  | object (parts : List ObjectPart)
  | function (template : Template)
  | classValue (template : ClassTemplate)
  | unary (operator : UnaryOperator) (argument : Code) (position : Option Position)
  | typeOfName (name : String) (position : Option Position)
  | deleteMember (object : Code) (key : PropertyName)
  | updateName (name : String) (delta : Float) (isPrefix : Bool) (position : Option Position)
  | updateMember (object : Code) (key : PropertyName) (delta : Float) (isPrefix : Bool)
      (position : Option Position)
  | binary (operator : BinaryOperator) (left right : Code)
  | logical (operator : LogicalOperator) (left right : Code)
  | conditional (test consequent alternate : Code)
  | assignName (operator : AssignmentOperator) (name : String) (value : Code)
      (position : Option Position)
  | assignMember (operator : AssignmentOperator) (object : Code) (key : PropertyName) (value : Code)
      (position : Option Position)
  | assignPattern (pattern : Pattern) (value : Code)
  | construct (callee : Code) (arguments : List (Code × Bool)) (label : String)
      (position : Option Position)
  | comma (expressions : List Code)
  /-- A template literal: its first text, and the others each after an expression, if there is one. -/
  | template (texts : List String) (expressions : List Code)
  | taggedTemplate (tag : Link) (cooked raw : List Literal) (expressions : List Code) (label : String)
      (position : Option Position)
  | chain (link : Link)

/-- A part of a member or call chain. -/
inductive Link where
  /-- One counted step before a part. -/
  | step (position : Option Position) (link : Link)
  | member (position : Option Position) (object : Link) (key : PropertyName) (optional : Bool)
  | superMember (position : Option Position) (key : PropertyName)
  | superCall (position : Option Position) (arguments : List (Code × Bool))
  | callName (position : Option Position) (name : String) (arguments : List (Code × Bool))
      (optional : Bool) (label : String)
  | call (position : Option Position) (callee : Link) (arguments : List (Code × Bool))
      (optional : Bool) (label : String)
  | value (code : Code)

/-- The key of a member, a property or a class element: a name, or code that computes it. -/
inductive PropertyName where
  | fixed (name : String)
  | computed (code : Code)

/-- A part of an object literal. -/
inductive ObjectPart where
  | value (key : PropertyName) (value : Code)
  | getter (key : PropertyName) (function : Code)
  | setter (key : PropertyName) (function : Code)
  | spread (source : Code)
  /-- A value that is computed and dropped. -/
  | ignored (value : Code)

/-- A pattern that takes a value apart. -/
inductive Pattern where
  | name (mode : BindingMode) (name : String) (position : Option Position)
  | member (object : Code) (key : PropertyName)
  | withDefault (inner : Pattern) (default : Code)
  | object (parts : List PatternPart) (label : String)
  /-- Elements of an array pattern; the mark says that an element takes all the rest. -/
  | array (elements : List (Option (Pattern × Bool))) (label : String)

/-- A part of an object pattern. -/
inductive PatternPart where
  | property (key : PropertyName) (pattern : Pattern)
  | rest (pattern : Pattern)

/-- A function body with everything that a call needs. -/
inductive Template where
  | mk (name : String)
      /- Whether the call's scope binds the function's own name to the function. -/
      (bindsSelf : Bool)
      /- Parameters; the mark says that a parameter takes all the rest. -/
      (parameters : List (Pattern × Bool))
      (body : Code) (hoisted : Hoisted) (isArrow : Bool) (arity : Nat) (source : Option String)

/-- The declarations of one function or program body. -/
inductive Hoisted where
  | mk (vars : List String) (functions : List (String × Template)) (frame : LexicalFrame)
      (usesArguments : Bool)

/-- A class with everything that its definition needs. -/
inductive ClassTemplate where
  | mk (name : String) (binding : Option String) (parent : Option Code)
      (constructor : Option Template) (members : List ClassMember) (source : Option String)
      (position : Option Position)

/-- A member of a class body. -/
inductive ClassMember where
  | method (key : PropertyName) (template : Template) (isStatic : Bool)
  | accessor (isGetter : Bool)
  | field (key : PropertyName) (init : Option Code) (isArrow isStatic : Bool)

end

/-! ## 3. Accessors -/

namespace Hoisted

/-- The names that `var` declares. -/
def vars : Hoisted → List String
  | mk vars _ _ _ => vars

/-- The function declarations. -/
def functions : Hoisted → List (String × Template)
  | mk _ functions _ _ => functions

/-- The lexical declarations. -/
def frame : Hoisted → LexicalFrame
  | mk _ _ frame _ => frame

/-- Whether the body may use the list of arguments. -/
def usesArguments : Hoisted → Bool
  | mk _ _ _ uses => uses

end Hoisted

namespace Template

/-- The name of the function. -/
def name : Template → String
  | mk name _ _ _ _ _ _ _ => name

/-- Whether a call binds the function's own name. -/
def bindsSelf : Template → Bool
  | mk _ bindsSelf _ _ _ _ _ _ => bindsSelf

def parameters : Template → List (Pattern × Bool)
  | mk _ _ parameters _ _ _ _ _ => parameters

def body : Template → Code
  | mk _ _ _ body _ _ _ _ => body

/-- The declarations of the body. -/
def hoisted : Template → Hoisted
  | mk _ _ _ _ hoisted _ _ _ => hoisted

/-- Whether the function is an arrow function. -/
def isArrow : Template → Bool
  | mk _ _ _ _ _ isArrow _ _ => isArrow

/-- How many parameters stand before the first one that may be left out. -/
def arity : Template → Nat
  | mk _ _ _ _ _ _ arity _ => arity

/-- The source text. -/
def source : Template → Option String
  | mk _ _ _ _ _ _ _ source => source

end Template

/-- A lowered program, which can be run again and again. -/
structure Program where
  hoisted : Hoisted
  body : Code

end GuestScript
