import GuestScript.Machine.Call

/-!
# Jumps and declarations in code

A *signal* is a completion that is meant for a construct further out: a jump out of a loop, a switch or a labeled
statement, a jump to the next round of a loop, or the mark of a default case.

In a tree that is *placed*, every jump stands inside a construct that takes its signal, in the same function, and
lexical declarations stand in lists of statements and in the heads of loops only. `Node.Placed` goes down a tree with
the signals that are taken further out, and starts anew in every function.

A piece of code ends with a signal if a jump in it does, and no construct between takes the signal: such a jump
*escapes* (`Code.Escapes`). Nothing else makes code end with a signal (`Code.endsIn_exec`).

Code is *placed* (`Code.Placed`) if nothing escapes where a value is wanted, and nothing but the mark of a default case
from the test of a case, and if every lexical name that it initializes is declared by the scope that it runs in. That
reaches into functions, of which some more can be asked.
-/

namespace GuestScript

/-! ## 1. Signals -/

/-- A completion that is meant for a construct further out. -/
inductive Signal where
  /-- A jump out of a labeled statement, or out of the nearest loop or switch. -/
  | out (label : Option String)
  /-- A jump to the next round of a labeled loop, or of the nearest one. -/
  | on (label : Option String)
  /-- The mark of a default case. -/
  | fallback
  deriving DecidableEq

namespace Signal

/-- No signal is taken. -/
def Nowhere : Signal → Prop :=
  fun _ => False

variable (Taken : Signal → Prop)

/-- What is taken inside a loop. -/
def InLoop : Signal → Prop :=
  fun s => s = .out none ∨ s = .on none ∨ Taken s

/-- What is taken inside a switch. -/
def InSwitch : Signal → Prop :=
  fun s => s = .out none ∨ Taken s

/-- What is taken inside a statement with a label. -/
def InLabeled (label : String) (isLoop : Bool) : Signal → Prop :=
  fun s => s = .out (some label) ∨ (isLoop = true ∧ s = .on (some label)) ∨ Taken s

end Signal

/-! ## 2. Placed trees -/

section

open Signal Lower

mutual

/-- Whether a node is placed: where lexical declarations may stand or not, and where some signals are taken. -/
def Node.Placed : Node → Bool → (Signal → Prop) → Prop
  | .mk kind _, declares, Taken => kind.Placed declares Taken

/-- Whether a node is placed, with its parts. -/
def Kind.Placed : Kind → Bool → (Signal → Prop) → Prop
  | .blockStatement body, _, Taken => Node.AllPlaced body true Taken
  | .withStatement object body, _, Taken => object.Placed false Nowhere ∧ body.Placed false Taken
  | .labeledStatement label (.mk kind _), _, Taken =>
    ∃ isLoop, (isLoop = true → kind.isLoop = true) ∧
      kind.Placed false (InLabeled Taken (label.name?.getD "") isLoop)
  | .breakStatement label, _, Taken => Taken (.out (nameOf? label))
  | .continueStatement label, _, Taken => Taken (.on (nameOf? label))
  | .ifStatement test consequent alternate, _, Taken =>
    test.Placed false Nowhere ∧ consequent.Placed false Taken ∧ Node.Placed? alternate false Taken
  | .switchStatement discriminant cases, _, Taken =>
    discriminant.Placed false Nowhere ∧ Node.CasesPlaced cases (InSwitch Taken)
  | .tryStatement block handler finalizer, _, Taken =>
    block.Placed false Taken ∧ Node.HandlerPlaced handler Taken ∧ Node.Placed? finalizer false Taken
  | .whileStatement test body, _, Taken | .doWhileStatement body test, _, Taken =>
    test.Placed false Nowhere ∧ body.Placed false (InLoop Taken)
  | .forStatement init test update body, _, Taken =>
    Node.InitPlaced init ∧ Node.Placed? test false Nowhere ∧ Node.Placed? update false Nowhere ∧
      body.Placed false (InLoop Taken)
  | .forInStatement left right body, _, Taken =>
    left.Placed true Nowhere ∧ right.Placed false Nowhere ∧ body.Placed false (InLoop Taken)
  | .variableDeclaration declarations kind, declares, _ =>
    (kind = .var ∨ declares = true) ∧ Node.AllPlaced declarations false Nowhere
  | .classLike form _ superClass body, declares, _ =>
    (form = .declaration → declares = true) ∧ Node.Placed? superClass false Nowhere ∧ body.Placed false Nowhere
  -- Functions start anew: nothing around them takes the signals of their bodies.
  | .function _ _ params body _, _, _ => Node.AllPlaced params false Nowhere ∧ body.Placed false Nowhere
  -- In all other nodes, the parts are placed as expressions are.
  | .expressionStatement n _, _, _ | .throwStatement n, _, _ | .unaryExpression _ _ n, _, _
  | .updateExpression _ _ n, _, _ | .chainExpression n, _, _ | .spreadElement n, _, _ | .restElement n, _, _ =>
    n.Placed false Nowhere
  | .returnStatement n, _, _ => Node.Placed? n false Nowhere
  | .binaryExpression _ l r, _, _ | .assignmentExpression _ l r, _, _ | .logicalExpression _ l r, _, _
  | .memberExpression l r _ _, _, _ | .property l r _ _ _ _, _, _ | .taggedTemplateExpression l r, _, _
  | .assignmentPattern l r, _, _ | .methodDefinition l r _ _ _, _, _ =>
    l.Placed false Nowhere ∧ r.Placed false Nowhere
  | .variableDeclarator n init, _, _ | .propertyDefinition n init _ _, _, _ =>
    n.Placed false Nowhere ∧ Node.Placed? init false Nowhere
  | .conditionalExpression test consequent alternate, _, _ =>
    test.Placed false Nowhere ∧ consequent.Placed false Nowhere ∧ alternate.Placed false Nowhere
  | .callExpression n l _, _, _ | .newExpression n l, _, _ => n.Placed false Nowhere ∧ Node.AllPlaced l false Nowhere
  | .objectExpression l, _, _ | .sequenceExpression l, _, _ | .templateLiteral _ l, _, _ | .classBody l, _, _
  | .objectPattern l, _, _ => Node.AllPlaced l false Nowhere
  | .arrayExpression elements, _, _ | .arrayPattern elements, _, _ => Node.ElementsPlaced elements
  | .emptyStatement, _, _ | .debuggerStatement, _, _ | .identifier _, _, _ | .literal _ _ _, _, _
  | .thisExpression, _, _ | .super, _, _ | .templateElement _ _ _, _, _ | .unsupported _, _, _ => True
  -- Programs stand nowhere, cases in switches and handlers in try statements only.
  | .program _, _, _ | .switchCase _ _, _, _ | .catchClause _ _, _, _ => False

/-- Whether all nodes of a list are placed. -/
def Node.AllPlaced : List Node → Bool → (Signal → Prop) → Prop
  | [], _, _ => True
  | n :: rest, declares, Taken => n.Placed declares Taken ∧ Node.AllPlaced rest declares Taken

/-- Whether a node that may be absent is placed. -/
def Node.Placed? : Option Node → Bool → (Signal → Prop) → Prop
  | none, _, _ => True
  | some n, declares, Taken => n.Placed declares Taken

/-- Whether the initialization of a loop is placed: a declaration of variables, or an expression. -/
def Node.InitPlaced : Option Node → Prop
  | none => True
  | some (.mk (.variableDeclaration declarations _) _) => Node.AllPlaced declarations false Nowhere
  | some n => n.Placed false Nowhere

/-- Whether the elements of an array literal or an array pattern are placed. -/
def Node.ElementsPlaced : List (Option Node) → Prop
  | [] => True
  | none :: rest => Node.ElementsPlaced rest
  | some n :: rest => n.Placed false Nowhere ∧ Node.ElementsPlaced rest

/-- Whether the cases of a switch are placed. -/
def Node.CasesPlaced : List Node → (Signal → Prop) → Prop
  | [], _ => True
  | .mk (.switchCase test consequent) _ :: rest, Taken =>
    Node.Placed? test false Nowhere ∧ Node.AllPlaced consequent true Taken ∧ Node.CasesPlaced rest Taken
  | _ :: _, _ => False

/-- Whether the handler of a try statement is placed. -/
def Node.HandlerPlaced : Option Node → (Signal → Prop) → Prop
  | none, _ => True
  | some (.mk (.catchClause param body) _), Taken => Node.Placed? param false Nowhere ∧ body.Placed false Taken
  | some _, _ => False

end

/-- Whether a node is placed as an expression: no lexical declaration, and no signal is taken further out. -/
abbrev Node.IsPlaced (n : Node) : Prop :=
  n.Placed false Nowhere

/-- Whether a tree is a program whose statements are placed. -/
def Node.PlacedProgram (n : Node) : Prop :=
  ∃ body, n.kind = .program body ∧ Node.AllPlaced body true Nowhere

end

/-! ## 3. Lists and declarations -/

section

variable {declares : Bool} {Taken : Signal → Prop}

/-- What may stand where lexical declarations may not stand may stand where they may. -/
theorem Kind.Placed.item {kind : Kind} (h : kind.Placed false Taken) : kind.Placed true Taken := by
  cases kind with
  | variableDeclaration declarations kind => exact ⟨.inr rfl, h.2⟩
  | classLike form id superClass body => exact ⟨fun _ => rfl, h.2⟩
  | labeledStatement label body =>
    obtain ⟨kind, span⟩ := body
    exact h
  | _ => exact h

theorem Node.Placed.item {n : Node} (h : n.Placed false Taken) : n.Placed true Taken := by
  obtain ⟨kind, span⟩ := n
  exact Kind.Placed.item h

/-- An expression may stand in the head of a loop. -/
theorem Node.Placed.init {n : Node} (h : n.IsPlaced) : Node.InitPlaced (some n) := by
  obtain ⟨kind, span⟩ := n
  cases kind with
  | variableDeclaration declarations kind => exact h.2
  | _ => exact h

namespace Node

theorem allPlaced_iff : ∀ {l : List Node}, AllPlaced l declares Taken ↔ ∀ n ∈ l, n.Placed declares Taken
  | [] => ⟨fun _ => nofun, fun _ => trivial⟩
  | n :: rest => by simp [AllPlaced, allPlaced_iff (l := rest)]

theorem elementsPlaced_iff : ∀ {l : List (Option Node)}, ElementsPlaced l ↔ ∀ e ∈ l, Placed? e false Signal.Nowhere
  | [] => ⟨fun _ => nofun, fun _ => trivial⟩
  | none :: rest => by simp [ElementsPlaced, Placed?, elementsPlaced_iff (l := rest)]
  | some n :: rest => by simp [ElementsPlaced, Placed?, elementsPlaced_iff (l := rest)]

theorem casesPlaced_cons {n : Node} {rest : List Node} :
    CasesPlaced (n :: rest) Taken ↔ CasesPlaced [n] Taken ∧ CasesPlaced rest Taken := by
  obtain ⟨kind, span⟩ := n
  cases kind with
  | switchCase test consequent => simp [CasesPlaced, and_assoc]
  | _ => simp [CasesPlaced]

theorem casesPlaced_iff : ∀ {l : List Node}, CasesPlaced l Taken ↔ ∀ n ∈ l, CasesPlaced [n] Taken
  | [] => ⟨fun _ => nofun, fun _ => trivial⟩
  | n :: rest => by rw [casesPlaced_cons, casesPlaced_iff (l := rest), List.forall_mem_cons]

end Node

end

end GuestScript

namespace GuestScript

/-! ## 4. Signals of code -/

/-- The signal that a completion is. -/
def Completion.signal? : Completion → Option Signal
  | .jumpOut label => some (.out label)
  | .jumpOn label => some (.on label)
  | .defaultCase => some .fallback
  | .value _ | .empty | .exit _ => none

/-- Whether a loop with some labels takes a signal. -/
def Signal.takenByLoop (labels : List String) : Signal → Prop
  | .out none | .on none | .fallback => True
  | .on (some label) => label ∈ labels
  | .out (some _) => False

mutual

/-- Whether a jump in a piece of code can end it with a signal: nothing between takes the signal. -/
def Code.Escapes : Code → Signal → Prop
  | .step _ code, s => code.Escapes s
  | .sequence statements, s => s ≠ .fallback ∧ Code.AnyEscapes statements s
  | .block _ _ body, s | .withObject _ body, s => body.Escapes s
  | .labeled label body, s => s ≠ .out (some label) ∧ body.Escapes s
  | .jumpOut label, s => s = .out label
  | .jumpOn label, s => s = .on label
  | .defaultCase, s => s = .fallback
  | .branch _ consequent alternate, s => consequent.Escapes s ∨ Code.Escapes? alternate s
  | .conditional _ consequent alternate, s => consequent.Escapes s ∨ alternate.Escapes s
  | .logical _ _ right, s => right.Escapes s
  | .switch _ _ _ _ bodies, s => s ≠ .out none ∧ s ≠ .fallback ∧ Code.AnyEscapes bodies s
  | .attempt body handler finalizer, s =>
    body.Escapes s ∨ Code.HandlerEscapes handler s ∨ Code.Escapes? finalizer s
  | .whileLoop labels _ body, s | .doLoop labels body _, s | .forLoop labels _ _ _ _ body, s
  | .forIn labels _ _ _ body, s => ¬ s.takenByLoop labels ∧ body.Escapes s
  | _, _ => False

/-- Whether a jump in one of several pieces of code can end it with a signal. -/
def Code.AnyEscapes : List Code → Signal → Prop
  | [], _ => False
  | c :: rest, s => c.Escapes s ∨ Code.AnyEscapes rest s

/-- Whether a jump in code that may be absent can end it with a signal. -/
def Code.Escapes? : Option Code → Signal → Prop
  | none, _ => False
  | some c, s => c.Escapes s

/-- Whether a jump in the handler of a try statement can end it with a signal. -/
def Code.HandlerEscapes : Option (Option Pattern × Code) → Signal → Prop
  | none, _ => False
  | some (_, body), s => body.Escapes s

end

/-- Whether no jump in a piece of code can end it with a signal. -/
def Code.Quiet (c : Code) : Prop :=
  ∀ s, ¬ c.Escapes s

/-- The names that a frame declares. -/
def LexicalFrame.names (frame : LexicalFrame) : List String :=
  frame.map Prod.fst

/-- The name that a class is bound to. -/
def ClassTemplate.binding : ClassTemplate → Option String
  | .mk _ binding _ _ _ _ _ => binding

/-! ## 5. Placed code -/

section

variable (Body : Template → Prop)

mutual

/-- Whether a piece of code is placed, where some lexical names are declared by the scope that it runs in. -/
def Code.Placed : Code → List String → Prop
  | .step _ code, names => code.Placed names
  | .sequence statements, names => Code.AllPlaced statements names
  | .expression code, _ | .throw code, _ => code.Placed [] ∧ code.Quiet
  | .block frame functions body, _ => Template.AllPlaced functions ∧ body.Placed frame.names
  | .withObject object body, _ => (object.Placed [] ∧ object.Quiet) ∧ body.Placed []
  | .exit argument, _ => Code.Value? argument
  | .labeled _ body, names => body.Placed names
  | .branch test consequent alternate, names =>
    (test.Placed [] ∧ test.Quiet) ∧ consequent.Placed names ∧ Code.Placed? alternate names
  | .switch discriminant frame functions tests bodies, _ =>
    (discriminant.Placed [] ∧ discriminant.Quiet) ∧ Template.AllPlaced functions ∧ Code.AllTests tests ∧
      Code.AllPlaced bodies frame.names
  | .attempt body handler finalizer, names =>
    body.Placed names ∧ Code.HandlerPlaced handler ∧ Code.Placed? finalizer names
  | .whileLoop _ test body, names => (test.Placed [] ∧ test.Quiet) ∧ body.Placed names
  | .doLoop _ body test, names => body.Placed names ∧ test.Placed [] ∧ test.Quiet
  | .forLoop _ frame init test update body, _ =>
    Code.Placed? init frame.names ∧ Code.Value? test ∧ Code.Value? update ∧ body.Placed []
  | .forIn _ target frame object body, _ =>
    target.Placed frame.names ∧ (object.Placed [] ∧ object.Quiet) ∧ body.Placed []
  | .declare bindings, names => Code.BindingsPlaced bindings names
  | .classDeclaration template _, names => template.Placed ∧ ∀ name ∈ template.binding, name ∈ names
  | .classValue template, _ => template.Placed
  | .array elements, _ => Code.ElementsPlaced elements
  | .object parts, _ => ObjectPart.AllPlaced parts
  | .function template, _ => template.Placed
  | .unary _ argument _, _ => argument.Placed [] ∧ argument.Quiet
  | .deleteMember object key, _ | .updateMember object key _ _ _, _ =>
    (object.Placed [] ∧ object.Quiet) ∧ key.Placed
  | .binary _ left right, _ | .logical _ left right, _ =>
    (left.Placed [] ∧ left.Quiet) ∧ right.Placed [] ∧ right.Quiet
  | .conditional test consequent alternate, _ =>
    (test.Placed [] ∧ test.Quiet) ∧ (consequent.Placed [] ∧ consequent.Quiet) ∧ alternate.Placed [] ∧ alternate.Quiet
  | .assignName _ _ value _, _ => value.Placed [] ∧ value.Quiet
  | .assignMember _ object key value _, _ =>
    (object.Placed [] ∧ object.Quiet) ∧ key.Placed ∧ value.Placed [] ∧ value.Quiet
  | .assignPattern pattern value, _ => pattern.Placed [] ∧ value.Placed [] ∧ value.Quiet
  | .construct callee arguments _ _, _ => (callee.Placed [] ∧ callee.Quiet) ∧ Code.ArgumentsPlaced arguments
  | .comma expressions, _ | .template _ expressions, _ => Code.AllValues expressions
  | .taggedTemplate tag _ _ expressions _ _, _ => tag.Placed ∧ Code.AllValues expressions
  | .chain link, _ => link.Placed
  | .empty, _ | .jumpOut _, _ | .jumpOn _, _ | .defaultCase, _ | .identifier _ _, _ | .constant _, _ | .regex _ _, _
  | .this, _ | .typeOfName _ _, _ | .updateName _ _ _ _, _ => True

/-- Whether all statements of a list are placed. -/
def Code.AllPlaced : List Code → List String → Prop
  | [], _ => True
  | c :: rest, names => c.Placed names ∧ Code.AllPlaced rest names

/-- Whether code that may be absent is placed. -/
def Code.Placed? : Option Code → List String → Prop
  | none, _ => True
  | some c, names => c.Placed names

/-- Whether code that may be absent is placed where a value is wanted. -/
def Code.Value? : Option Code → Prop
  | none => True
  | some c => c.Placed [] ∧ c.Quiet

/-- Whether all code of a list is placed where values are wanted. -/
def Code.AllValues : List Code → Prop
  | [] => True
  | c :: rest => (c.Placed [] ∧ c.Quiet) ∧ Code.AllValues rest

/-- Whether all tests of the cases of a switch are placed. -/
def Code.AllTests : List Code → Prop
  | [] => True
  | c :: rest => (c.Placed [] ∧ ∀ s, c.Escapes s → s = .fallback) ∧ Code.AllTests rest

/-- Whether the handler of a try statement is placed. -/
def Code.HandlerPlaced : Option (Option Pattern × Code) → Prop
  | none => True
  | some (none, body) => body.Placed []
  | some (some pattern, body) => pattern.Placed [] ∧ body.Placed []

/-- Whether a declaration is placed. -/
def Code.BindingsPlaced : List (Pattern × Option Code) → List String → Prop
  | [], _ => True
  | (pattern, init) :: rest, names => pattern.Placed names ∧ Code.Value? init ∧ Code.BindingsPlaced rest names

/-- Whether the elements of an array literal are placed. -/
def Code.ElementsPlaced : List (Option (Code × Option String)) → Prop
  | [] => True
  | none :: rest => Code.ElementsPlaced rest
  | some (c, _) :: rest => (c.Placed [] ∧ c.Quiet) ∧ Code.ElementsPlaced rest

/-- Whether arguments are placed. -/
def Code.ArgumentsPlaced : List (Code × Bool) → Prop
  | [] => True
  | (c, _) :: rest => (c.Placed [] ∧ c.Quiet) ∧ Code.ArgumentsPlaced rest

/-- Whether a part of a chain is placed. -/
def Link.Placed : Link → Prop
  | .step _ link => link.Placed
  | .member _ object key _ => object.Placed ∧ key.Placed
  | .superMember _ key => key.Placed
  | .superCall _ arguments | .callName _ _ arguments _ _ => Code.ArgumentsPlaced arguments
  | .call _ callee arguments _ _ => callee.Placed ∧ Code.ArgumentsPlaced arguments
  | .value code => code.Placed [] ∧ code.Quiet

/-- Whether a key is placed. -/
def PropertyName.Placed : PropertyName → Prop
  | .fixed _ => True
  | .computed code => code.Placed [] ∧ code.Quiet

/-- Whether a part of an object literal is placed. -/
def ObjectPart.Placed : ObjectPart → Prop
  | .value key value | .getter key value | .setter key value => key.Placed ∧ value.Placed [] ∧ value.Quiet
  | .spread source | .ignored source => source.Placed [] ∧ source.Quiet

/-- Whether the parts of an object literal are placed. -/
def ObjectPart.AllPlaced : List ObjectPart → Prop
  | [] => True
  | part :: rest => part.Placed ∧ ObjectPart.AllPlaced rest

/-- Whether a pattern is placed: the names that it initializes are declared. -/
def Pattern.Placed : Pattern → List String → Prop
  | .name mode name _, names => mode = .lexical → name ∈ names
  | .member object key, _ => (object.Placed [] ∧ object.Quiet) ∧ key.Placed
  | .withDefault inner default, names => inner.Placed names ∧ default.Placed [] ∧ default.Quiet
  | .object parts _, names => PatternPart.AllPlaced parts names
  | .array elements _, names => Pattern.ElementsPlaced elements names

/-- Whether the elements of an array pattern are placed. -/
def Pattern.ElementsPlaced : List (Option (Pattern × Bool)) → List String → Prop
  | [], _ => True
  | none :: rest, names => Pattern.ElementsPlaced rest names
  | some (p, _) :: rest, names => p.Placed names ∧ Pattern.ElementsPlaced rest names

/-- Whether the parts of an object pattern are placed. -/
def PatternPart.AllPlaced : List PatternPart → List String → Prop
  | [], _ => True
  | .property key pattern :: rest, names => key.Placed ∧ pattern.Placed names ∧ PatternPart.AllPlaced rest names
  | .rest pattern :: rest, names => pattern.Placed names ∧ PatternPart.AllPlaced rest names

/-- Whether parameters are placed. -/
def Pattern.ParametersPlaced : List (Pattern × Bool) → Prop
  | [] => True
  | (p, _) :: rest => p.Placed [] ∧ Pattern.ParametersPlaced rest

/-- Whether a function is placed, with its body as it is asked for. -/
def Template.Placed : Template → Prop
  | .mk name bindsSelf parameters body hoisted isArrow arity source =>
    Pattern.ParametersPlaced parameters ∧ (body.Placed hoisted.frame.names ∧ body.Quiet) ∧ hoisted.Placed ∧
      Body (.mk name bindsSelf parameters body hoisted isArrow arity source)

/-- Whether the declared functions of a body are placed. -/
def Template.AllPlaced : List (String × Template) → Prop
  | [] => True
  | (_, t) :: rest => t.Placed ∧ Template.AllPlaced rest

/-- Whether a function that may be absent is placed. -/
def Template.Placed? : Option Template → Prop
  | none => True
  | some t => t.Placed

/-- Whether the declarations of a body are placed. -/
def Hoisted.Placed : Hoisted → Prop
  | .mk _ functions _ _ => Template.AllPlaced functions

/-- Whether a class is placed. -/
def ClassTemplate.Placed : ClassTemplate → Prop
  | .mk _ _ parent constructor members _ _ =>
    Code.Value? parent ∧ Template.Placed? constructor ∧ ClassMember.AllPlaced members

/-- Whether the members of a class are placed. -/
def ClassMember.AllPlaced : List ClassMember → Prop
  | [] => True
  | .method key template _ :: rest => key.Placed ∧ template.Placed ∧ ClassMember.AllPlaced rest
  | .accessor _ :: rest => ClassMember.AllPlaced rest
  | .field key init _ _ :: rest => key.Placed ∧ Code.Value? init ∧ ClassMember.AllPlaced rest

end

end

end GuestScript
