import GuestScript.Proofs.Grammar.Place
import GuestScript.Proofs.Steady
import Mathlib

/-!
# Outlines of trees

What a tree does to the function bodies around it while it is lowered does not depend on the code that it gives. It is
said by the *outline* of the tree: where the list of arguments is used, where a `var` is declared, and which frames and
functions stand around these.

* `Node.outline` is the outline of a node, by recursion on the tree; the parts stand in the order in which they are
  lowered.
* `Outline.runAll` does with a lowering what an outline says, and nothing else.
* `Lower.Follows` says that an action does to the open bodies what an outline does, and fails where it fails, unless it
  fails for another reason; and that what it gives has a property.

What an outline comes to can be read off it: `Outline.vars`, `Outline.uses` and `Outline.Redeclares` say which variables
it declares, whether it uses the arguments of the function around it, and whether it declares a name that a frame
around it has (`Outline.runAll_ok`, `Outline.runAll_redeclares`).
-/

namespace GuestScript

/-! ## 1. Outlines -/

/-- A part of an outline. -/
inductive Outline where
  /-- A use of the list of arguments. -/
  | note
  /-- The declaration of a `var`. -/
  | declare (position : Option Position) (name : String)
  /-- A lexical frame around parts. -/
  | frame (names : LexicalFrame) (parts : List Outline)
  /-- A function around parts. -/
  | function (isArrow : Bool) (parts : List Outline)

open Lower in
mutual

/-- Do to the open bodies what a part of an outline says. -/
def Outline.run : Outline → Lower Unit
  | .note => noteArguments
  | .declare position name => declareVar position name
  | .frame names parts => inFrame names (Outline.runAll parts)
  | .function isArrow parts => do
    let _ ← inBody isArrow (Outline.runAll parts)
    pure ()

/-- Do to the open bodies what an outline says. -/
def Outline.runAll : List Outline → Lower Unit
  | [] => pure ()
  | o :: rest => do
    o.run
    Outline.runAll rest

end

namespace Outline

mutual

/-- The variables that a part declares in the function around it, in order. -/
def vars : Outline → List String
  | .note => []
  | .declare _ name => [name]
  | .frame _ parts => allVars parts
  | .function _ _ => []

/-- The variables that an outline declares in the function around it, in order. -/
def allVars : List Outline → List String
  | [] => []
  | o :: rest => o.vars ++ allVars rest

end

mutual

/-- Whether a part uses the arguments of the function around it: arrow functions have none of their own. -/
def uses : Outline → Bool
  | .note => true
  | .declare _ _ => false
  | .frame _ parts => anyUses parts
  | .function isArrow parts => isArrow && anyUses parts

/-- Whether an outline uses the arguments of the function around it. -/
def anyUses : List Outline → Bool
  | [] => false
  | o :: rest => o.uses || anyUses rest

end

mutual

/-- Whether a part declares a variable with a name that a frame between it and its function has, when some frames are
open around the part. -/
def Redeclares : Outline → List LexicalFrame → Prop
  | .note, _ => False
  | .declare _ name, frames => ∃ frame ∈ frames, frame.declares name
  | .frame names parts, frames => AnyRedeclares parts (names :: frames)
  | .function _ parts, _ => AnyRedeclares parts []

/-- Whether an outline declares a variable with a name that a frame between it and its function has. -/
def AnyRedeclares : List Outline → List LexicalFrame → Prop
  | [], _ => False
  | o :: rest, frames => o.Redeclares frames ∨ AnyRedeclares rest frames

end

end Outline

/-! ## 2. The outline of a tree -/

/-- The lexical names of the head of a loop. -/
def Node.headFrame (init : Option Node) : LexicalFrame :=
  let frame := (init.map Node.lexicalNames).getD []
  match init.map Node.kind with
  | some (.variableDeclaration _ _) => frame
  | _ => []

/-- The statements of a case of a switch. -/
def Node.consequent (n : Node) : List Node :=
  match n.kind with
  | .switchCase _ consequent => consequent
  | _ => []

mutual

/-- The outline of a node. -/
def Node.outline : Node → List Outline
  | .mk kind _ => kind.outline

/-- The outline of a node that may be absent. -/
def Node.outline? : Option Node → List Outline
  | none => []
  | some n => n.outline

/-- The outline of nodes in order. -/
def Node.outlines : List Node → List Outline
  | [] => []
  | n :: rest => n.outline ++ Node.outlines rest

/-- The outline of the elements of an array literal. -/
def Node.elementOutlines : List (Option Node) → List Outline
  | [] => []
  | none :: rest => Node.elementOutlines rest
  | some n :: rest => n.outline ++ Node.elementOutlines rest

/-- The outline of the function declarations among statements. -/
def Node.functionOutlines : List Node → List Outline
  | [] => []
  | .mk (.function .declaration _ params body _) _ :: rest =>
    .function false (Node.patternOutlines params ++ body.bodyOutline) :: Node.functionOutlines rest
  | _ :: rest => Node.functionOutlines rest

/-- The outline of the function declarations in the cases of a switch. -/
def Node.caseFunctionOutlines : List Node → List Outline
  | [] => []
  | .mk (.switchCase _ consequent) _ :: rest => Node.functionOutlines consequent ++ Node.caseFunctionOutlines rest
  | _ :: rest => Node.caseFunctionOutlines rest

/-- The outline of the cases of a switch. -/
def Node.caseOutlines : List Node → List Outline
  | [] => []
  | .mk (.switchCase test consequent) _ :: rest =>
    Node.outline? test ++ (Node.outlines consequent ++ Node.caseOutlines rest)
  | _ :: rest => Node.caseOutlines rest

/-- The outline of the body of a function: a block, or an expression to return. -/
def Node.bodyOutline : Node → List Outline
  | .mk (.blockStatement statements) _ =>
    [.frame (lexicalFrame statements) (Node.functionOutlines statements ++ Node.outlines statements)]
  | .mk kind _ => [.frame [] kind.outline]

/-- The outline of a property key; a name is no expression. -/
def Node.keyOutline : Node → Bool → List Outline
  | .mk kind _, computed =>
    match computed, kind with
    | false, .identifier _ => []
    | _, other => other.outline

/-- The outline of what is called; text that is evaluated may use the arguments as well. -/
def Node.calleeOutline : Node → List Outline
  | .mk (.identifier name) _ => if name == "eval" || name == "arguments" then [.note] else []
  | .mk kind _ => kind.outline

/-- The outline of a pattern; the names that it binds are no expressions. -/
def Node.patternOutline : Node → List Outline
  | .mk (.assignmentPattern left right) _ => left.patternOutline ++ right.outline
  | .mk (.objectPattern properties) _ => Node.partOutlines properties
  | .mk (.arrayPattern elements) _ => Node.patternElementOutlines elements
  | .mk (.memberExpression object property computed _) _ => object.outline ++ property.keyOutline computed
  | .mk (.restElement argument) _ => argument.patternOutline
  | _ => []

/-- The outline of parameters. -/
def Node.patternOutlines : List Node → List Outline
  | [] => []
  | n :: rest => n.patternOutline ++ Node.patternOutlines rest

/-- The outline of the parts of an object pattern. -/
def Node.partOutlines : List Node → List Outline
  | [] => []
  | .mk (.property key value _ _ _ computed) _ :: rest =>
    key.keyOutline computed ++ (value.patternOutline ++ Node.partOutlines rest)
  | n :: rest => n.patternOutline ++ Node.partOutlines rest

/-- The outline of the elements of an array pattern. -/
def Node.patternElementOutlines : List (Option Node) → List Outline
  | [] => []
  | none :: rest => Node.patternElementOutlines rest
  | some n :: rest => n.patternOutline ++ Node.patternElementOutlines rest

/-- The outline of the declarators of a declaration. -/
def Node.declaratorOutlines : List Node → VariableKind → List Outline
  | [], _ => []
  | .mk (.variableDeclarator id init) span :: rest, kind =>
    (if kind = .var then id.declaredNames.map (.declare span.position) else []) ++
      (Node.outline? init ++ (id.patternOutline ++ Node.declaratorOutlines rest kind))
  | _ :: rest, kind => Node.declaratorOutlines rest kind

/-- The outline of the target of a loop over names. -/
def Node.targetOutline : Node → List Outline
  | .mk (.variableDeclaration (.mk (.variableDeclarator id _) _ :: _) kind) span =>
    (if kind = .var then id.declaredNames.map (.declare span.position) else []) ++ id.patternOutline
  | .mk (.assignmentPattern left right) _ => left.patternOutline ++ right.outline
  | .mk (.objectPattern properties) _ => Node.partOutlines properties
  | .mk (.arrayPattern elements) _ => Node.patternElementOutlines elements
  | .mk (.memberExpression object property computed _) _ => object.outline ++ property.keyOutline computed
  | _ => []

/-- The outline of what a node is. -/
def Kind.outline : Kind → List Outline
  | .program body => Node.outlines body
  | .expressionStatement expression _ => expression.outline
  | .blockStatement statements =>
    [.frame (lexicalFrame statements) (Node.functionOutlines statements ++ Node.outlines statements)]
  | .withStatement object body => object.outline ++ body.outline
  | .returnStatement argument => Node.outline? argument
  | .labeledStatement _ (.mk kind _) => kind.outline
  | .ifStatement test consequent alternate => test.outline ++ (consequent.outline ++ Node.outline? alternate)
  | .switchStatement discriminant cases =>
    discriminant.outline ++ [.frame (lexicalFrame (cases.flatMap Node.consequent))
      (Node.caseFunctionOutlines cases ++ Node.caseOutlines cases)]
  | .switchCase test _ => Node.outline? test
  | .throwStatement argument => argument.outline
  | .tryStatement block handler finalizer => block.outline ++ (Node.outline? handler ++ Node.outline? finalizer)
  | .catchClause none body => body.outline
  | .catchClause (some param) body => param.patternOutline ++ body.outline
  | .whileStatement test body => test.outline ++ body.outline
  | .doWhileStatement body test => body.outline ++ test.outline
  | .forStatement init test update body =>
    [.frame (Node.headFrame init)
      (Node.outline? init ++ (Node.outline? test ++ (Node.outline? update ++ body.outline)))]
  | .forInStatement left right body =>
    right.outline ++ (left.targetOutline ++ [.frame left.lexicalNames body.outline])
  | .function .declaration _ _ _ _ => []
  | .function .expression _ params body _ => [.function false (Node.patternOutlines params ++ body.bodyOutline)]
  | .function .arrow _ params body _ => [.function true (Node.patternOutlines params ++ body.bodyOutline)]
  | .variableDeclaration declarations kind => Node.declaratorOutlines declarations kind
  | .classLike _ _ superClass body => Node.outline? superClass ++ body.outline
  | .classBody members => Node.outlines members
  | .methodDefinition key value kind computed _ =>
    match kind with
    | .constructor => value.outline
    | .method => key.keyOutline computed ++ value.outline
    | .get | .set => []
  | .propertyDefinition key value computed _ => key.keyOutline computed ++ Node.outline? value
  | .identifier name => if name == "arguments" then [.note] else []
  | .arrayExpression elements => Node.elementOutlines elements
  | .objectExpression properties => Node.outlines properties
  | .property key value _ _ _ computed => key.keyOutline computed ++ value.outline
  | .spreadElement argument => argument.outline
  | .unaryExpression operator _ (.mk kind _) =>
    match operator, kind with
    | .typeOf, .identifier _ => []
    | .delete, .memberExpression object property computed _ => object.outline ++ property.keyOutline computed
    | .delete, .identifier _ => []
    | _, other => other.outline
  | .updateExpression _ _ argument => argument.patternOutline
  | .binaryExpression _ left right | .logicalExpression _ left right => left.outline ++ right.outline
  | .assignmentExpression _ left right => left.patternOutline ++ right.outline
  | .memberExpression object property computed _ => property.keyOutline computed ++ object.outline
  | .callExpression callee arguments _ => Node.outlines arguments ++ callee.calleeOutline
  | .newExpression callee arguments => callee.outline ++ Node.outlines arguments
  | .chainExpression expression => expression.outline
  | .sequenceExpression expressions => Node.outlines expressions
  | .templateLiteral _ expressions => Node.outlines expressions
  | .taggedTemplateExpression tag quasi => tag.outline ++ quasi.outline
  | .conditionalExpression test consequent alternate => test.outline ++ (consequent.outline ++ alternate.outline)
  | _ => []

end

/-- The outline of a program; any other node is taken as a program of one statement. -/
def Node.programOutline (n : Node) : List Outline :=
  let statements :=
    match n.kind with
    | .program body => body
    | _ => [n]
  [.frame (lexicalFrame statements) (Node.functionOutlines statements ++ Node.outlines statements)]

/-! ## 3. Results of lowering -/

/-- Whether everything that an action of lowering gives has a property. -/
def Lower.Gives {α : Type} (x : Lower α) (P : α → Prop) : Prop :=
  ∀ s a s', x s = .ok a s' → P a

namespace Lower

variable {α β : Type} {P : α → Prop} {Q : β → Prop} {x : Lower α}

theorem gives_pure {a : α} (ha : P a) : Gives (pure a : Lower α) P := by
  intro s b s' h
  cases h
  exact ha

/-- Two actions succeed, one after the other, when each of them does. -/
theorem of_bind {f : α → Lower β} {s s' : Lowering} {b : β} (h : (x >>= f) s = .ok b s') :
    ∃ a s₁, x s = .ok a s₁ ∧ f a s₁ = .ok b s' := by
  simp only [Bind.bind, EStateM.bind] at h
  cases hr : x s with
  | error e s₁ =>
    rw [hr] at h
    cases h
  | ok a s₁ =>
    rw [hr] at h
    exact ⟨a, s₁, rfl, h⟩

theorem Gives.bind {f : α → Lower β} (hx : Gives x P) (hf : ∀ a, P a → Gives (f a) Q) : Gives (x >>= f) Q := by
  intro s b s' h
  obtain ⟨a, s₁, ha, hb⟩ := of_bind h
  exact hf a (hx s a s₁ ha) s₁ b s' hb

/-- Nothing is said about the result of the first action. -/
theorem gives_bind {f : α → Lower β} (hf : ∀ a, Gives (f a) Q) : Gives (x >>= f) Q :=
  Gives.bind (P := fun _ => True) (fun _ _ _ _ => trivial) fun a _ => hf a

theorem gives_fault (d : Diagnostic) (subject : String) (position : Option Position) :
    Gives (fault d subject position) P := by
  intro s a s' h
  cases h

theorem gives_ite {c : Prop} [Decidable c] {y : Lower α} (hx : Gives x P) (hy : Gives y P) :
    Gives (if c then x else y) P := by
  split
  · exact hx
  · exact hy

theorem Gives.mono {P' : α → Prop} (hx : Gives x P) (h : ∀ a, P a → P' a) : Gives x P' :=
  fun s a s' hr => h a (hx s a s' hr)

theorem gives_inFrame (frame : LexicalFrame) (hx : Gives x P) : Gives (inFrame frame x) P :=
  gives_bind fun _ => hx.bind fun _ ha => gives_bind fun _ => gives_pure ha

theorem gives_inBody (isArrow : Bool) (hx : Gives x P) : Gives (inBody isArrow x) fun result => P result.1 := by
  refine gives_bind fun _ => gives_bind fun _ => hx.bind fun a ha => gives_bind fun s => gives_bind fun _ => ?_
  exact gives_pure ha

/-- Code that is firm and counts a step first. -/
structure Stepped (Sets : BindingMode → Prop) (c : Code) : Prop where
  firm : c.Firm Sets
  counts : c.Counts

/-- A part of a chain that is firm and counts a step first. -/
structure SteppedLink (Sets : BindingMode → Prop) (link : Link) : Prop where
  firm : link.Firm Sets
  counts : link.Counts

/-- The functions and the code of a body are firm. -/
structure FirmBody (Sets : BindingMode → Prop) (body : LexicalFrame × List (String × Template) × Code) : Prop where
  functions : Template.AllFirm Sets body.2.1
  code : body.2.2.Firm Sets

/-- The constructor and the members of a class are firm. -/
structure FirmClass (Sets : BindingMode → Prop) (parts : Option Template × List ClassMember) : Prop where
  constructor : Template.Firm? Sets parts.1
  members : ClassMember.AllFirm Sets parts.2

variable {Sets : BindingMode → Prop}

theorem firm_keepLast : ∀ {l : List (String × Template)}, Template.AllFirm Sets l → Template.AllFirm Sets (keepLast l)
  | [], h => h
  | (name, t) :: rest, h => by
    have hrest := firm_keepLast h.2
    simp only [keepLast]
    split
    · exact hrest
    · exact ⟨h.1, hrest⟩

theorem firm_append : ∀ {l l' : List (String × Template)}, Template.AllFirm Sets l → Template.AllFirm Sets l' →
    Template.AllFirm Sets (l ++ l')
  | [], _, _, h' => h'
  | _ :: _, _, h, h' => ⟨h.1, firm_append h.2 h'⟩

end Lower

/-! ## 4. Actions with an outline -/

namespace LowerError

/-- A fault of another kind than the second declaration of a name. -/
def IsOther (e : LowerError) : Prop :=
  ∃ d subject position, d ≠ .redeclareBlockScopeVariable ∧ e = .of d subject position

end LowerError

namespace Lower

/-- Whether an action does to the open bodies what an outline says, and what it gives has a property: when it succeeds,
so does the outline, with the same bodies in the end, and when it fails, the outline fails with the same fault, or the
fault is one of another kind. -/
def Follows {α : Type} (x : Lower α) (l : List Outline) (P : α → Prop) : Prop :=
  ∀ s, match x s with
    | .ok a s' => P a ∧ Outline.runAll l s = .ok () s'
    | .error e _ => e.IsOther ∨ ∃ s', Outline.runAll l s = .error e s'

/-- Nothing is said about what the action gives. -/
abbrev Outlined {α : Type} (x : Lower α) (l : List Outline) : Prop :=
  Follows x l fun _ => True

variable {α β : Type} {x : Lower α} {l l' : List Outline} {P : α → Prop} {Q : β → Prop}

theorem runAll_append (l l' : List Outline) :
    Outline.runAll (l ++ l') = (do Outline.runAll l; Outline.runAll l') := by
  induction l with
  | nil => rfl
  | cons o rest ih =>
    change (do o.run; Outline.runAll (rest ++ l')) = _
    rw [ih]
    exact (bind_assoc o.run _ _).symm

theorem Follows.gives (h : Follows x l P) : Gives x P := by
  intro s a s' hr
  have hs := h s
  rw [hr] at hs
  exact hs.1

theorem Follows.outlined (h : Follows x l P) : Outlined x l := by
  intro s
  have hs := h s
  split at hs
  · exact ⟨trivial, hs.2⟩
  · exact hs

theorem follows_pure {a : α} (ha : P a) : Follows (pure a) [] P :=
  fun _ => ⟨ha, rfl⟩

/-- What two actions do, the one after the other does; what is known of the first result may be used. -/
theorem Follows.bind {f : α → Lower β} (hx : Follows x l P) (hf : ∀ a, P a → Follows (f a) l' Q) :
    Follows (x >>= f) (l ++ l') Q := by
  intro s
  rw [runAll_append]
  have hs := hx s
  simp only [Bind.bind, EStateM.bind]
  cases hr : x s with
  | error e s₁ =>
    rw [hr] at hs
    refine hs.imp_right fun hfails => ?_
    obtain ⟨s', hs'⟩ := hfails
    exact ⟨s', by simp only [hs']⟩
  | ok a s₁ =>
    rw [hr] at hs
    simp only [hs.2]
    exact hf a hs.1 s₁

/-- The second action does nothing to the open bodies. -/
theorem Follows.last {f : α → Lower β} (hx : Follows x l P) (hf : ∀ a, P a → Follows (f a) [] Q) :
    Follows (x >>= f) l Q := by
  have h := hx.bind hf
  rwa [List.append_nil] at h

theorem Follows.map {g : α → β} (hx : Follows x l P) (hg : ∀ a, P a → Q (g a)) :
    Follows (do return g (← x)) l Q :=
  hx.last fun a ha => follows_pure (hg a ha)

/-- The first action does nothing to the open bodies. -/
theorem Follows.then {f : α → Lower β} (hx : Follows x [] P) (hf : ∀ a, Follows (f a) l Q) : Follows (x >>= f) l Q :=
  hx.bind fun a _ => hf a

theorem follows_ite {c : Prop} [Decidable c] {y : Lower α} (hx : Follows x l P) (hy : Follows y l P) :
    Follows (if c then x else y) l P := by
  split
  · exact hx
  · exact hy

/-- A fault of another kind has any outline. -/
theorem follows_fault {d : Diagnostic} (hd : d ≠ .redeclareBlockScopeVariable) (subject : String)
    (position : Option Position) : Follows (fault d subject position : Lower α) l P :=
  fun _ => .inl ⟨d, subject, position, hd, rfl⟩

section

variable {operator : AssignmentOperator} {kind : Kind} {lspan : Span} {right : Node} {span : Span} {labels : List String}
  {depth : Nat}

/-- An assignment to what is no target is a fault, and no redeclaration. -/
theorem fault_of_no_target (hsimple : kind.isSimpleTarget = false) (hpattern : kind.isPattern = false) :
    ∃ d subject, d ≠ Diagnostic.redeclareBlockScopeVariable ∧
      (Kind.assignmentExpression operator (.mk kind lspan) right).lower span labels depth =
        fault d subject span.position := by
  cases operator with
  | other word => exact ⟨_, _, by decide, rfl⟩
  | _ =>
    cases kind with
    | identifier | memberExpression => cases hsimple
    | objectPattern | arrayPattern => cases hpattern
    | _ => exact ⟨.assignmentType, _, by decide, rfl⟩

theorem follows_no_target {P : Code → Prop} (hsimple : kind.isSimpleTarget = false) (hpattern : kind.isPattern = false) :
    Follows ((Kind.assignmentExpression operator (.mk kind lspan) right).lower span labels depth) l P := by
  obtain ⟨d, subject, hd, hfault⟩ := fault_of_no_target hsimple hpattern
  rw [hfault]
  exact follows_fault hd _ _

theorem gives_no_target {P : Code → Prop} (hsimple : kind.isSimpleTarget = false) (hpattern : kind.isPattern = false) :
    Gives ((Kind.assignmentExpression operator (.mk kind lspan) right).lower span labels depth) P := by
  obtain ⟨d, subject, -, hfault⟩ := fault_of_no_target hsimple hpattern
  rw [hfault]
  exact gives_fault _ _ _

end

theorem outlined_checkNesting (depth : Nat) (position : Option Position) :
    Outlined (checkNesting depth position) [] :=
  follows_ite (follows_pure trivial) (follows_fault (by decide) _ _)

theorem outlined_describe (n : Node) : Outlined (describe n) [] :=
  fun _ => ⟨trivial, rfl⟩

theorem outlined_sourceOf (span : Span) : Outlined (sourceOf span) [] :=
  fun _ => ⟨trivial, rfl⟩

theorem outlined_noteArguments : Outlined noteArguments [.note] :=
  fun _ => ⟨trivial, rfl⟩

theorem outlined_declare (position : Option Position) (names : List String) :
    Outlined (names.forM (declareVar position)) (names.map (.declare position)) := by
  have hsame : names.forM (declareVar position) = Outline.runAll (names.map (.declare position)) := by
    induction names with
    | nil => rfl
    | cons name rest ih =>
      change (do declareVar position name; rest.forM (declareVar position)) = _
      rw [ih]
      rfl
  intro s
  rw [hsame]
  cases hr : Outline.runAll (names.map (.declare position)) s with
  | ok _ s' => exact ⟨trivial, rfl⟩
  | error e s' => exact .inr ⟨s', rfl⟩

/-- Only a `var` declares variables. -/
theorem follows_declares {kind : VariableKind} (position : Option Position) (names : List String) {y : Lower β}
    (hy : Follows y l Q) :
    Follows (if kind = .var then (do names.forM (declareVar position); y) else y)
      ((if kind = .var then names.map (.declare position) else []) ++ l) Q := by
  split
  · exact (outlined_declare position names).bind fun _ _ => hy
  · exact hy

/-- A frame around an action is one around its outline. -/
theorem follows_inFrame (frame : LexicalFrame) (hx : Follows x l P) :
    Follows (inFrame frame x) [.frame frame l] P := by
  intro s
  obtain ⟨s₁, hopen⟩ : ∃ s₁, modifyBody (fun b => { b with frames := frame :: b.frames }) s = .ok () s₁ := ⟨_, rfl⟩
  have hs := hx s₁
  simp only [Outline.runAll, Outline.run, inFrame, Bind.bind, EStateM.bind, hopen]
  cases hr : x s₁ with
  | error e s₂ =>
    rw [hr] at hs
    refine hs.imp_right fun hfails => ?_
    obtain ⟨s', hs'⟩ := hfails
    exact ⟨s', by simp only [hs']⟩
  | ok a s₂ =>
    rw [hr] at hs
    simp only [hs.2]
    exact ⟨hs.1, rfl⟩

/-- A function around an action is one around its outline. -/
theorem follows_inBody (isArrow : Bool) (hx : Follows x l P) :
    Follows (inBody isArrow x) [.function isArrow l] fun result => P result.1 := by
  intro s
  have hs := hx { s with bodies := { isArrow := isArrow } :: s.bodies }
  simp only [Outline.runAll, Outline.run, inBody, Bind.bind, EStateM.bind, get, getThe, MonadStateOf.get, EStateM.get,
    modify, modifyGet, MonadStateOf.modifyGet, EStateM.modifyGet]
  cases hr : x { s with bodies := { isArrow := isArrow } :: s.bodies } with
  | error e s₂ =>
    rw [hr] at hs
    refine hs.imp_right fun hfails => ?_
    obtain ⟨s', hs'⟩ := hfails
    exact ⟨s', by simp only [hs']⟩
  | ok a s₂ =>
    rw [hr] at hs
    simp only [hs.2]
    exact ⟨hs.1, rfl⟩

section

variable {Sets : BindingMode → Prop} {isLink : Bool} {position : Option Position} {depth : Nat}
  {inner : Nat → Lower Code} {link : Nat → Lower Link}

/-- A node that is lowered one level down counts a step first. -/
theorem follows_asCode (hinner : ∀ d, Follows (inner d) l (Code.Firm Sets))
    (hlink : ∀ d, Follows (link d) l (SteppedLink Sets)) :
    Follows (asCode isLink position depth inner link) l (Stepped Sets) := by
  refine (outlined_checkNesting _ _).then fun _ => follows_ite ((outlined_checkNesting _ _).then fun _ => ?_) ?_
  · exact (hlink _).map fun _ h => ⟨h.firm, h.counts⟩
  · exact (hinner _).map fun _ h => ⟨h, trivial⟩

theorem follows_asLink (hinner : ∀ d, Follows (inner d) l (Code.Firm Sets))
    (hlink : ∀ d, Follows (link d) l (SteppedLink Sets)) :
    Follows (asLink isLink position depth inner link) l (SteppedLink Sets) := by
  refine (outlined_checkNesting _ _).then fun _ => follows_ite (hlink _) ((outlined_checkNesting _ _).then fun _ => ?_)
  exact (hinner _).map fun _ h => ⟨h, trivial⟩

theorem follows_body {frame : LexicalFrame} {functions : Lower (List (String × Template))}
    {statements : Lower (List Code)} (hfunctions : Follows functions l (Template.AllFirm Sets))
    (hstatements : Follows statements l' (Code.AllFirm Sets)) :
    Follows (body frame functions statements) [.frame frame (l ++ l')] (FirmBody Sets) :=
  follows_inFrame frame <| hfunctions.bind fun _ hf => hstatements.map fun _ hs => ⟨firm_keepLast hf, hs⟩

variable {kindName name : String} {span : Span} {flags : FunctionFlags} {arity : Nat} {bindsSelf isArrow : Bool}
  {parameters : Lower (List (Pattern × Bool))}
  {functionBody : Lower (LexicalFrame × List (String × Template) × Code)}

theorem follows_template (hparameters : Follows parameters l (Pattern.FirmParameters Sets))
    (hbody : Follows functionBody l' (FirmBody Sets)) :
    Follows (template kindName span flags arity name bindsSelf isArrow parameters functionBody)
      [.function isArrow (l ++ l')] (Template.Firm Sets) := by
  refine follows_ite (follows_fault (by decide) _ _) ?_
  refine (follows_inBody (P := fun parts => Pattern.FirmParameters Sets (Prod.fst parts) ∧
    FirmBody Sets (Prod.snd parts)) isArrow ?_).last fun _ h => (outlined_sourceOf _).then fun _ => follows_pure ?_
  · exact hparameters.bind fun _ hp => hbody.map fun _ hb => ⟨hp, hb⟩
  · exact ⟨h.1, h.2.code, h.2.functions⟩

end

end Lower

/-! ## 5. What an outline comes to -/

/-- A body that has declared variables: a name counts where it comes first. -/
def OpenBody.declaring (b : OpenBody) (names : List String) : OpenBody :=
  { b with vars := names.foldl (fun vars name => if vars.contains name then vars else vars.push name) b.vars }

/-- The open bodies, with a use of the list of arguments noted in them if there is one. -/
def Lower.noted (uses : Bool) (bodies : List OpenBody) : List OpenBody :=
  if uses then noteArgumentsIn bodies else bodies

namespace Outline

open Lower

variable {source : Option String} {b : OpenBody} {rest : List OpenBody}

/-- A frame is closed behind what was noted in it. -/
theorem close_noted (uses : Bool) (names : LexicalFrame) (vars : List String) :
    modifyBody (fun b => { b with frames := b.frames.tail })
        ⟨source, noted uses (({ b with frames := names :: b.frames } : OpenBody).declaring vars :: rest)⟩ =
      .ok () ⟨source, noted uses (b.declaring vars :: rest)⟩ := by
  cases uses with
  | false => rfl
  | true =>
    obtain ⟨isArrow, vars, frames, usesArguments⟩ := b
    cases isArrow <;> rfl

/-- Noting once is as good as noting twice. -/
theorem noted_noted (bodies : List OpenBody) : noteArgumentsIn (noteArgumentsIn bodies) = noteArgumentsIn bodies := by
  induction bodies with
  | nil => rfl
  | cons b rest ih =>
    cases harrow : b.isArrow with
    | true => simp [noteArgumentsIn, harrow, ih]
    | false => simp [noteArgumentsIn, harrow]

/-- What is noted is another first body, with the same frames, and others behind it. -/
theorem noted_declaring (uses : Bool) (vars : List String) : ∃ b' rest',
    noted uses (b.declaring vars :: rest) = b' :: rest' ∧ b'.frames = b.frames ∧
      ∀ uses' vars', noted uses' (b'.declaring vars' :: rest') =
        noted (uses || uses') (b.declaring (vars ++ vars') :: rest) := by
  have happend (vars' : List String) : (b.declaring vars).declaring vars' = b.declaring (vars ++ vars') := by
    simp only [OpenBody.declaring, List.foldl_append]
  cases uses with
  | false => exact ⟨_, _, rfl, rfl, fun uses' vars' => by rw [happend]; rfl⟩
  | true =>
    cases harrow : b.isArrow with
    | true =>
      refine ⟨b.declaring vars, noteArgumentsIn rest, ?_, rfl, fun uses' vars' => ?_⟩
      · simp [noted, noteArgumentsIn, OpenBody.declaring, harrow]
      · rw [happend]
        cases uses' <;> simp [noted, noteArgumentsIn, OpenBody.declaring, harrow, noted_noted]
    | false =>
      refine ⟨{ b.declaring vars with usesArguments := true }, rest, ?_, rfl, fun uses' vars' => ?_⟩
      · simp [noted, noteArgumentsIn, OpenBody.declaring, harrow]
      · cases uses' <;> simp [noted, noteArgumentsIn, OpenBody.declaring, harrow, List.foldl_append]

/-- What a run of an outline comes to, from what the outline declares, uses and declares a second time. -/
structure Comes (vars : List String) (uses : Bool) (redeclares : Prop) (source : Option String) (b : OpenBody)
    (rest : List OpenBody) (x : Lower Unit) : Prop where
  fails (h : redeclares) : ∃ name position s',
    x ⟨source, b :: rest⟩ = .error (.of .redeclareBlockScopeVariable name position) s'
  succeeds (h : ¬ redeclares) : x ⟨source, b :: rest⟩ = .ok () ⟨source, noted uses (b.declaring vars :: rest)⟩

theorem comes_declare (position : Option Position) (name : String) :
    Comes [name] false (∃ frame ∈ b.frames, frame.declares name) source b rest (declareVar position name) := by
  have hiff : (b.frames.any fun frame => frame.declares name) = true ↔ ∃ frame ∈ b.frames, frame.declares name := by
    simp [List.any_eq_true]
  constructor
  · intro h
    refine ⟨name, position, ⟨source, b :: rest⟩, ?_⟩
    change (if (b.frames.any fun frame => frame.declares name) = true then
      fault .redeclareBlockScopeVariable name position else _ : Lower Unit) _ = _
    rw [if_pos (hiff.mpr h)]
    rfl
  · intro h
    change (if (b.frames.any fun frame => frame.declares name) = true then
      fault .redeclareBlockScopeVariable name position else if b.vars.contains name then pure () else _ : Lower Unit) _ = _
    rw [if_neg fun hany => h (hiff.mp hany)]
    cases hin : b.vars.contains name with
    | true =>
      simp only [if_true, noted, OpenBody.declaring, List.foldl_cons, List.foldl_nil, hin]
      rfl
    | false =>
      simp only [noted, OpenBody.declaring, List.foldl_cons, List.foldl_nil, hin, Bool.false_eq_true, if_false]
      rfl

theorem Comes.inFrame {l : List Outline} {names : LexicalFrame} {redeclares : Prop}
    (h : Comes (allVars l) (anyUses l) redeclares source { b with frames := names :: b.frames } rest (runAll l)) :
    Comes (allVars l) (anyUses l) redeclares source b rest (inFrame names (runAll l)) := by
  have hopen : modifyBody (fun b => { b with frames := names :: b.frames }) ⟨source, b :: rest⟩ =
      .ok () ⟨source, { b with frames := names :: b.frames } :: rest⟩ := rfl
  constructor
  · intro hr
    obtain ⟨name, position, s', hs'⟩ := h.fails hr
    refine ⟨name, position, s', ?_⟩
    simp only [Lower.inFrame, bind, EStateM.bind, hopen, hs']
  · intro hr
    simp only [Lower.inFrame, bind, EStateM.bind, hopen, h.succeeds hr, close_noted]
    rfl

theorem Comes.inBody {l : List Outline} {isArrow : Bool} {redeclares : Prop}
    (h : Comes (allVars l) (anyUses l) redeclares source { isArrow := isArrow } (b :: rest) (runAll l)) :
    Comes [] (isArrow && anyUses l) redeclares source b rest (run (.function isArrow l)) := by
  constructor
  · intro hr
    obtain ⟨name, position, s', hs'⟩ := h.fails hr
    refine ⟨name, position, s', ?_⟩
    simp only [run, Lower.inBody, bind, EStateM.bind, get, getThe, MonadStateOf.get, EStateM.get, modify, modifyGet,
      MonadStateOf.modifyGet, EStateM.modifyGet, hs']
  · intro hr
    simp only [run, Lower.inBody, bind, EStateM.bind, get, getThe, MonadStateOf.get, EStateM.get, modify, modifyGet,
      MonadStateOf.modifyGet, EStateM.modifyGet, h.succeeds hr]
    cases isArrow with
    | false => rfl
    | true => cases anyUses l <;> rfl

theorem Comes.cons {o : Outline} {l : List Outline} {redeclares redeclares' : Prop}
    (ho : Comes o.vars o.uses redeclares source b rest o.run)
    (hl : ∀ b' rest', b'.frames = b.frames → Comes (allVars l) (anyUses l) redeclares' source b' rest' (runAll l)) :
    Comes (allVars (o :: l)) (anyUses (o :: l)) (redeclares ∨ redeclares') source b rest (runAll (o :: l)) := by
  obtain ⟨b', rest', hnoted, hframes, hthen⟩ :
      ∃ b' rest', noted o.uses (b.declaring o.vars :: rest) = b' :: rest' ∧ b'.frames = b.frames ∧
        ∀ uses' vars', noted uses' (b'.declaring vars' :: rest') =
          noted (o.uses || uses') (b.declaring (o.vars ++ vars') :: rest) := noted_declaring o.uses o.vars
  by_cases hr : redeclares
  · refine ⟨fun _ => ?_, fun h => absurd (.inl hr) h⟩
    obtain ⟨name, position, s', hs'⟩ := ho.fails hr
    refine ⟨name, position, s', ?_⟩
    simp only [runAll, bind, EStateM.bind, hs']
  · have hfirst := ho.succeeds hr
    rw [hnoted] at hfirst
    constructor
    · intro h
      obtain ⟨name, position, s', hs'⟩ := (hl b' rest' hframes).fails (h.resolve_left hr)
      refine ⟨name, position, s', ?_⟩
      simp only [runAll, bind, EStateM.bind, hfirst, hs']
    · intro h
      have hlast := (hl b' rest' hframes).succeeds fun hr' => h (.inr hr')
      rw [hthen] at hlast
      simp only [runAll, bind, EStateM.bind, hfirst, hlast, anyUses, allVars]

mutual

/-- What a part of an outline comes to in a body. -/
theorem comes_run (o : Outline) (source : Option String) (b : OpenBody) (rest : List OpenBody) :
    Comes o.vars o.uses (o.Redeclares b.frames) source b rest o.run := by
  cases o with
  | note => exact ⟨False.elim, fun _ => rfl⟩
  | declare position name => exact comes_declare position name
  | frame names parts => exact (comes_runAll parts source { b with frames := names :: b.frames } rest).inFrame
  | function isArrow parts => exact (comes_runAll parts source { isArrow := isArrow } (b :: rest)).inBody

/-- **What an outline comes to in a body**: it fails when it declares a variable a second time, and else the variables
that it declares are added, and a use of the arguments is noted. -/
theorem comes_runAll (l : List Outline) (source : Option String) (b : OpenBody) (rest : List OpenBody) :
    Comes (allVars l) (anyUses l) (AnyRedeclares l b.frames) source b rest (runAll l) := by
  cases l with
  | nil => exact ⟨False.elim, fun _ => rfl⟩
  | cons o l =>
    refine (comes_run o source b rest).cons fun b' rest' hframes => ?_
    rw [← hframes]
    exact comes_runAll l source b' rest'

end

end Outline

end GuestScript
