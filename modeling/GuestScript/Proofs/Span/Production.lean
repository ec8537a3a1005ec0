import GuestScript.Proofs.Document
import GuestScript.Proofs.Span.Token
import GuestScript.Proofs.Grammar.Statement
import GuestScript.Proofs.Lexical.Code

/-!
# Where productions lay and place their nodes

A parser that is *sited* holds one token ahead that lies between two boundaries, behind the last token taken.
`Parser.Reads` says what a production does from there: it goes on, and what it gives lies behind an offset from where
it started and before the end of the last token that it takes. What has been read earlier in a production is *held*,
and stays where it is, so a node can be closed over it (`Parser.reads_finish`).

The loops, switches and labels around a production are the same again after it, and what it gives is placed among
them. Most kinds of nodes are *free*: a node of such a kind is placed wherever it stands, when its children are placed
as expressions (`Kind.placed_of_children`).

In a tree that is *laid over* a text, every node covers a part of the text that starts and stops at boundaries, its
children lie inside it, and the children that declare functions stand where statements stand. `Node.LaidOver.contains`
takes this to all nodes of the tree, and `Node.LaidOver.text` says what the text of a node is then.
-/

namespace GuestScript

/-! ## 1. Places for statements -/

/-- The lists of statements in a kind of node. -/
def Kind.items : Kind → List Node
  | .program body | .blockStatement body => body
  | .switchCase _ consequent => consequent
  | _ => []

/-- The statements that stand alone in a kind of node. -/
def Kind.substatements : Kind → List Node
  | .ifStatement _ consequent alternate => consequent :: alternate.toList
  | .labeledStatement _ body | .withStatement _ body | .whileStatement _ body | .doWhileStatement body _
  | .forStatement _ _ _ body | .forInStatement _ _ body => [body]
  | _ => []

/-! ## 2. Nodes in nodes -/

/-- Whether a node is another one or stands somewhere in it. -/
inductive Node.Contains (root : Node) : Node → Prop where
  | self : Contains root root
  | child {n c : Node} (h : Contains root n) (hc : c ∈ n.kind.children) : Contains root c

/-- Whether a tree is laid over a text: from boundary to boundary, with the children inside. -/
inductive Node.LaidOver (source : String) : Node → Prop where
  | mk {n : Node} (start : Boundary source n.span.start) (stop : Boundary source n.span.stop)
      (le : n.span.start ≤ n.span.stop) (children : ∀ c ∈ n.kind.children, c.LaidOver source)
      (inside : ∀ c ∈ n.kind.children, n.span.start ≤ c.span.start ∧ c.span.stop ≤ n.span.stop)
      (functions : ∀ c ∈ n.kind.children, c.isFunctionDeclaration → c ∈ n.kind.items ∨ c ∈ n.kind.substatements) :
      LaidOver source n

namespace Node.LaidOver

variable {source : String} {n c : Node}

theorem start : n.LaidOver source → Boundary source n.span.start
  | mk h _ _ _ _ _ => h

theorem stop : n.LaidOver source → Boundary source n.span.stop
  | mk _ h _ _ _ _ => h

theorem le : n.LaidOver source → n.span.start ≤ n.span.stop
  | mk _ _ h _ _ _ => h

theorem children : n.LaidOver source → ∀ c ∈ n.kind.children, c.LaidOver source
  | mk _ _ _ h _ _ => h

theorem inside : n.LaidOver source → ∀ c ∈ n.kind.children, n.span.start ≤ c.span.start ∧ c.span.stop ≤ n.span.stop
  | mk _ _ _ _ h _ => h

theorem functions : n.LaidOver source →
    ∀ c ∈ n.kind.children, c.isFunctionDeclaration → c ∈ n.kind.items ∨ c ∈ n.kind.substatements
  | mk _ _ _ _ _ h => h

/-- **All nodes of a tree are laid over the text.** -/
theorem contains (h : n.LaidOver source) (hc : n.Contains c) : c.LaidOver source := by
  induction hc with
  | self => exact h
  | child _ hc ih => exact ih.children _ hc

/-- A node without children is laid over what another one is laid over. -/
theorem leaf (h : n.LaidOver source) {kind : Kind} (hkind : kind.children = []) :
    (Node.mk kind n.span).LaidOver source := by
  refine mk h.start h.stop h.le ?_ ?_ ?_ <;> exact fun c hc => absurd (hkind ▸ hc) List.not_mem_nil

/-- A node with the same children in the same places is laid over what another one is laid over. -/
theorem recast {kind kind' : Kind} {span : Span} (h : (Node.mk kind span).LaidOver source)
    (hchildren : kind'.children = kind.children) (hitems : kind'.items = kind.items)
    (hsubstatements : kind'.substatements = kind.substatements) : (Node.mk kind' span).LaidOver source :=
  mk h.start h.stop h.le (fun c hc => h.children c (hchildren ▸ hc)) (fun c hc => h.inside c (hchildren ▸ hc))
    fun c hc hf => (h.functions c (hchildren ▸ hc) hf).imp (fun h => hitems ▸ h) fun h => hsubstatements ▸ h

/-- **The text of a node is the part of the text between its offsets**, which cuts the text into three. -/
theorem text (h : n.LaidOver source) : ∃ before text after : String, source = before ++ text ++ after ∧
    before.utf8ByteSize = n.span.start ∧ (before ++ text).utf8ByteSize = n.span.stop ∧
    n.span.text? (some source) = if text = "" then none else some text := by
  obtain ⟨before, text, after, hsource, hbefore, htext, hextract⟩ := h.start.cut h.stop h.le
  refine ⟨before, text, after, hsource, hbefore, htext, ?_⟩
  have hstart : String.Pos.Raw.isValid source ⟨n.span.start⟩ := String.Pos.Raw.isValid_eq_true_iff.2 h.start
  have hstop : String.Pos.Raw.isValid source ⟨n.span.stop⟩ := String.Pos.Raw.isValid_eq_true_iff.2 h.stop
  have hsize : n.span.stop ≤ source.utf8ByteSize := h.stop.le_size
  have hempty : text = "" ↔ ¬ n.span.start < n.span.stop := by
    rw [← String.utf8ByteSize_eq_zero_iff]
    rw [String.utf8ByteSize_append] at htext
    omega
  by_cases hlt : n.span.start < n.span.stop
  · rw [if_neg fun h => hempty.1 h hlt, ← hextract]
    simp [Span.text?, hlt, hsize, hstart, hstop]
  · rw [if_pos (hempty.2 hlt)]
    simp [Span.text?, hlt]

end Node.LaidOver

/-! ## 3. Nodes between two offsets -/

/-- Whether a node is laid over a part of a text between two offsets. -/
structure Node.Between (source : String) (lo hi : Nat) (n : Node) : Prop where
  laid : n.LaidOver source
  lo_le : lo ≤ n.span.start
  le_hi : n.span.stop ≤ hi

section

variable {source : String} {lo lo' hi hi' : Nat} {n : Node}

theorem Node.Between.mono (h : n.Between source lo hi) (hlo : lo' ≤ lo) (hhi : hi ≤ hi') :
    n.Between source lo' hi' :=
  ⟨h.laid, Nat.le_trans hlo h.lo_le, Nat.le_trans h.le_hi hhi⟩

theorem Node.Between.lo_le_hi (h : n.Between source lo hi) : lo ≤ hi :=
  Nat.le_trans h.lo_le (Nat.le_trans h.laid.le h.le_hi)

/-- The children of a node lie between the same offsets. -/
theorem Node.Between.child (h : n.Between source lo hi) {c : Node} (hc : c ∈ n.kind.children) :
    c.Between source lo hi :=
  have hinside := h.laid.inside c hc
  ⟨h.laid.children c hc, Nat.le_trans h.lo_le hinside.1, Nat.le_trans hinside.2 h.le_hi⟩

/-- **A node over its parts.** From a boundary to a boundary behind the parts, the node is laid over the text. -/
theorem Node.between_of_children {span : Span} {kind : Kind} (hstart : Boundary source span.start)
    (hstop : Boundary source span.stop) (hle : span.start ≤ span.stop) (hlo : lo ≤ span.start) (hhi : span.stop ≤ hi)
    (hchildren : ∀ c ∈ kind.children, c.Between source span.start span.stop)
    (hfunctions : ∀ c ∈ kind.children, c.isFunctionDeclaration → c ∈ kind.items ∨ c ∈ kind.substatements) :
    (Node.mk kind span).Between source lo hi :=
  ⟨.mk hstart hstop hle (fun c hc => (hchildren c hc).laid)
    (fun c hc => ⟨(hchildren c hc).lo_le, (hchildren c hc).le_hi⟩) hfunctions, hlo, hhi⟩

end

/-! ## 4. Kinds that are placed with their children -/

/-- Whether nodes of a kind are placed wherever they stand, when their children are placed as expressions. Statements
with other statements in them are not, and neither are jumps and lexical declarations. -/
def Kind.isFree : Kind → Bool
  | .program _ | .blockStatement _ | .withStatement _ _ | .labeledStatement _ _ | .breakStatement _
  | .continueStatement _ | .ifStatement _ _ _ | .switchStatement _ _ | .switchCase _ _ | .tryStatement _ _ _
  | .catchClause _ _ | .whileStatement _ _ | .doWhileStatement _ _ | .forStatement _ _ _ _ | .forInStatement _ _ _
  | .variableDeclaration _ _ | .classLike .declaration _ _ _ => false
  | _ => true

/-- Whether a kind is free and no declaration of a function. -/
def Kind.isOperand : Kind → Bool
  | .function form _ _ _ _ => form ≠ .declaration
  | kind => kind.isFree

theorem Kind.isFree_of_isOperand {kind : Kind} (h : kind.isOperand) : kind.isFree := by
  cases kind with
  | function _ _ _ _ _ => rfl
  | _ => exact h

theorem Kind.plain_of_isOperand {kind : Kind} (h : kind.isOperand) (span : Span) :
    (Node.mk kind span).isFunctionDeclaration = false := by
  cases kind with
  | function form _ _ _ _ =>
    cases form with
    | declaration => cases h
    | _ => rfl
  | _ => rfl

theorem Node.placed?_iff {n : Option Node} {declares : Bool} {Taken : Signal → Prop} :
    Node.Placed? n declares Taken ↔ ∀ c ∈ n.toList, c.Placed declares Taken := by
  cases n <;> simp [Node.Placed?]

theorem Node.elementsPlaced_iff_filterMap {l : List (Option Node)} :
    Node.ElementsPlaced l ↔ ∀ c ∈ l.filterMap id, c.IsPlaced := by
  rw [Node.elementsPlaced_iff]
  simp [Node.placed?_iff]
  grind

/-- **A node of a free kind is placed when its children are.** -/
theorem Kind.placed_of_children {kind : Kind} (hfree : kind.isFree) (h : ∀ c ∈ kind.children, c.IsPlaced)
    (declares : Bool) (Taken : Signal → Prop) : kind.Placed declares Taken := by
  cases kind with
  | emptyStatement | debuggerStatement | identifier _ | literal _ _ _ | thisExpression | super
  | templateElement _ _ _ | unsupported _ => trivial
  | expressionStatement n _ | throwStatement n | unaryExpression _ _ n | updateExpression _ _ n | chainExpression n
  | spreadElement n | restElement n => exact h n (List.mem_singleton_self n)
  | returnStatement n => exact Node.placed?_iff.2 h
  | binaryExpression _ _ _ | assignmentExpression _ _ _ | logicalExpression _ _ _ | memberExpression _ _ _ _
  | property _ _ _ _ _ _ | taggedTemplateExpression _ _ | assignmentPattern _ _ | methodDefinition _ _ _ _ _ =>
    exact forall_mem_pair.1 h
  | variableDeclarator n init | propertyDefinition n init _ _ =>
    exact (List.forall_mem_cons.1 h).imp_right Node.placed?_iff.2
  | conditionalExpression _ _ _ => exact forall_mem_triple.1 h
  | callExpression _ _ _ | newExpression _ _ => exact (List.forall_mem_cons.1 h).imp_right Node.allPlaced_iff.2
  | objectExpression _ | sequenceExpression _ | classBody _ | objectPattern _ => exact Node.allPlaced_iff.2 h
  | templateLiteral _ _ => exact Node.allPlaced_iff.2 (List.forall_mem_append.1 h).2
  | arrayExpression _ | arrayPattern _ => exact Node.elementsPlaced_iff_filterMap.2 h
  | function _ _ params body _ =>
    obtain ⟨hparams, hbody⟩ := List.forall_mem_append.1 h
    exact ⟨Node.allPlaced_iff.2 (List.forall_mem_append.1 hparams).2, hbody body (List.mem_singleton_self body)⟩
  | classLike form id superClass body =>
    obtain ⟨hsuper, hbody⟩ := List.forall_mem_append.1 h
    cases form with
    | declaration => cases hfree
    | expression =>
      exact ⟨nofun, Node.placed?_iff.2 (List.forall_mem_append.1 hsuper).2, hbody body (List.mem_singleton_self body)⟩
  | _ => cases hfree

end GuestScript

namespace GuestScript.Parser

open Signal

variable {kind : Kind} {marker : Marker}

/-! ## 5. Loops, switches and labels around -/

/-- What decides where jumps may go: how many loops and switches are around, and the labels. -/
structure Surroundings where
  iterations : Nat
  switches : Nat
  labels : List (String × Bool)

/-- The loops, switches and labels around. -/
def surroundings (p : Parser) : Surroundings :=
  ⟨p.iterations, p.switches, p.labels⟩

/-- The signals that the loops, switches and labels around a production take. -/
def Surroundings.Taken (around : Surroundings) : Signal → Prop
  | .out none => 0 < around.iterations ∨ 0 < around.switches
  | .out (some label) => ∃ isLoop, (label, isLoop) ∈ around.labels
  | .on none => 0 < around.iterations
  | .on (some label) => (label, true) ∈ around.labels
  | .fallback => False

namespace Surroundings

/-- What is around at the start of a function. -/
def outermost : Surroundings :=
  ⟨0, 0, []⟩

/-- What is around in a loop. -/
def inLoop (around : Surroundings) : Surroundings :=
  { around with iterations := around.iterations + 1 }

/-- What is around in a switch. -/
def inSwitch (around : Surroundings) : Surroundings :=
  { around with switches := around.switches + 1 }

/-- What is around in a labeled statement. -/
def inLabeled (around : Surroundings) (label : String) (isLoop : Bool) : Surroundings :=
  { around with labels := (label, isLoop) :: around.labels }

/-- At the start of a function nothing is taken. -/
theorem taken_outermost : outermost.Taken = Nowhere := by
  funext s
  rcases s with ⟨_ | label⟩ | ⟨_ | label⟩ | _ <;> simp [outermost, Taken, Nowhere]

variable (around : Surroundings)

theorem taken_inLoop : around.inLoop.Taken = InLoop around.Taken := by
  funext s
  rcases s with ⟨_ | label⟩ | ⟨_ | label⟩ | _ <;> simp [Taken, InLoop, inLoop]

theorem taken_inSwitch : around.inSwitch.Taken = InSwitch around.Taken := by
  funext s
  rcases s with ⟨_ | label⟩ | ⟨_ | label⟩ | _ <;> simp [Taken, InSwitch, inSwitch]

theorem taken_inLabeled (label : String) (isLoop : Bool) :
    (around.inLabeled label isLoop).Taken = InLabeled around.Taken label isLoop := by
  funext s
  rcases s with ⟨_ | l⟩ | ⟨_ | l⟩ | _ <;> simp [Taken, InLabeled, inLabeled, exists_or, and_comm, eq_comm]

end Surroundings

/-! ## 6. The state of a parser -/

/-- The part of a parser that says where it is. -/
def place (p : Parser) : Lexer × Nat × Nat × Nat :=
  (p.lexer, p.currentStart, p.currentStop, p.lastStop)

/-- Where a parser is, and what is around it. -/
def standing (p : Parser) : (Lexer × Nat × Nat × Nat) × Surroundings :=
  (p.place, p.surroundings)

/-- Whether the token ahead and the end of the last one taken are where they should be. -/
structure Sited (source : String) (p : Parser) : Prop where
  lexer : p.lexer.At source
  stop_eq : p.currentStop = p.lexer.offset
  start : Boundary source p.currentStart
  lastStop : Boundary source p.lastStop
  lastStop_le : p.lastStop ≤ p.currentStart
  start_le : p.currentStart ≤ p.currentStop

/-- Whether a parser is one that has gone on from another one, with the same around. -/
structure Follows (source : String) (p p' : Parser) : Prop where
  sited : p'.Sited source
  around : p'.surroundings = p.surroundings
  start_le : p.currentStart ≤ p'.currentStart
  stop_le : p.lastStop ≤ p'.lastStop

section

variable {source : String} {p p' p'' : Parser}

theorem Sited.congr (h : p.Sited source) (heq : p'.place = p.place) : p'.Sited source := by
  simp only [place, Prod.mk.injEq] at heq
  obtain ⟨hlexer, hstart, hstop, hlast⟩ := heq
  obtain ⟨h₁, h₂, h₃, h₄, h₅, h₆⟩ := h
  constructor <;> simp only [hlexer, hstart, hstop, hlast] <;> assumption

theorem Sited.follows (h : p.Sited source) (heq : p'.standing = p.standing) : Follows source p p' := by
  refine ⟨h.congr (congrArg (·.1) heq), congrArg (·.2) heq, ?_, ?_⟩
  · exact Nat.le_of_eq (congrArg (·.1.2.1) heq).symm
  · exact Nat.le_of_eq (congrArg (·.1.2.2.2) heq).symm

theorem Follows.trans (h : Follows source p p') (h' : Follows source p' p'') : Follows source p p'' :=
  ⟨h'.sited, h'.around.trans h.around, Nat.le_trans h.start_le h'.start_le, Nat.le_trans h.stop_le h'.stop_le⟩

end

/-! ## 7. Pieces -/

/-- What a production has read behind an offset. -/
inductive Piece where
  /-- At least one token. -/
  | token (lo : Nat)
  /-- The start of a node. -/
  | mark (lo : Nat) (marker : Marker)
  /-- A node that does not declare a function and is placed as an expression. -/
  | operand (lo : Nat) (n : Node)
  /-- A node that does not declare a function, with what is known of it where some signals are taken. -/
  | plain (lo : Nat) (n : Node) (P : (Signal → Prop) → Prop)
  | statement (lo : Nat) (n : Node) (P : (Signal → Prop) → Prop)

/-- The offset that a piece lies behind. -/
def Piece.lo : Piece → Nat
  | token lo | operand lo _ | plain lo _ _ | statement lo _ _ => lo
  | mark _ marker => marker.start

/-- Whether a piece is the same whatever is around. -/
def Piece.IsFree : Piece → Prop
  | plain _ _ _ | statement _ _ _ => False
  | _ => True

/-- Whether a piece lies between its offset and another one, and is placed with something around. -/
def Piece.Before (source : String) (around : Surroundings) (hi : Nat) : Piece → Prop
  | token lo => lo ≤ hi
  | mark lo marker => Boundary source marker.start ∧ lo ≤ marker.start ∧ marker.start ≤ hi
  | operand lo n => n.Between source lo hi ∧ n.isFunctionDeclaration = false ∧ n.IsPlaced
  | plain lo n P => n.Between source lo hi ∧ n.isFunctionDeclaration = false ∧ P around.Taken
  | statement lo n P => n.Between source lo hi ∧ P around.Taken

/-- Whether all pieces of a list lie between their offsets and another one. -/
def Held (source : String) (around : Surroundings) (hi : Nat) (held : List Piece) : Prop :=
  ∀ e ∈ held, e.Before source around hi

section

variable {source : String} {around around' : Surroundings} {lo lo' hi hi' : Nat} {held held' : List Piece} {e : Piece}
  {n : Node} {P : (Signal → Prop) → Prop}

theorem Piece.Before.mono (h : e.Before source around hi) (hhi : hi ≤ hi') : e.Before source around hi' := by
  cases e with
  | token lo => exact Nat.le_trans h hhi
  | mark lo marker => exact ⟨h.1, h.2.1, Nat.le_trans h.2.2 hhi⟩
  | operand lo n | plain lo n P | statement lo n P => exact ⟨h.1.mono (Nat.le_refl _) hhi, h.2⟩

theorem Piece.IsFree.before (he : e.IsFree) (h : e.Before source around hi) : e.Before source around' hi := by
  cases e with
  | plain _ _ _ | statement _ _ _ => exact he.elim
  | _ => exact h

theorem Held.mono (h : Held source around hi held) (hhi : hi ≤ hi') : Held source around hi' held :=
  fun e he => (h e he).mono hhi

theorem Held.free (h : Held source around hi held) (hfree : ∀ e ∈ held, e.IsFree) : Held source around' hi held :=
  fun e he => (hfree e he).before (h e he)

theorem Held.head (h : Held source around hi (e :: held)) : e.Before source around hi :=
  h e List.mem_cons_self

theorem Held.tail (h : Held source around hi (e :: held)) : Held source around hi held :=
  fun e he => h e (List.mem_cons_of_mem _ he)

/-- An operand that is held is placed. -/
theorem Held.operand (h : Held source around hi held) (he : .operand lo n ∈ held) : n.IsPlaced :=
  (h _ he).2.2

theorem Held.statement (h : Held source around hi held) (he : .statement lo n P ∈ held) : P around.Taken :=
  (h _ he).2

theorem held_cons :
    Held source around hi (e :: held) ↔ e.Before source around hi ∧ Held source around hi held :=
  List.forall_mem_cons

theorem held_operand : Held source around hi [.operand lo n] ↔
    n.Between source lo hi ∧ n.isFunctionDeclaration = false ∧ n.IsPlaced :=
  List.forall_mem_singleton

theorem held_plain : Held source around hi [.plain lo n P] ↔
    n.Between source lo hi ∧ n.isFunctionDeclaration = false ∧ P around.Taken :=
  List.forall_mem_singleton

theorem held_statement : Held source around hi [.statement lo n P] ↔ n.Between source lo hi ∧ P around.Taken :=
  List.forall_mem_singleton

theorem held_append :
    Held source around hi (held ++ held') ↔ Held source around hi held ∧ Held source around hi held' :=
  List.forall_mem_append

/-- Where a node that a piece is, or one of its children, lies behind an offset and may stand in a kind of node. -/
def Piece.Covers (lo : Nat) (kind : Kind) (c : Node) : Piece → Prop
  | operand lo' n | plain lo' n _ => lo ≤ lo' ∧ (c = n ∨ kind = n.kind ∧ c ∈ kind.children)
  | statement lo' n _ => lo ≤ lo' ∧ c = n ∧ (c ∈ kind.items ∨ c ∈ kind.substatements)
  | _ => False

theorem Piece.Covers.between {c : Node} (h : e.Covers lo kind c) (he : e.Before source around hi) :
    c.Between source lo hi ∧ (c.isFunctionDeclaration → c ∈ kind.items ∨ c ∈ kind.substatements) := by
  cases e with
  | token lo' => cases h
  | mark lo' marker => cases h
  | operand lo' n | plain lo' n P =>
    obtain ⟨hlo, rfl | ⟨rfl, hc⟩⟩ := h
    · exact ⟨he.1.mono hlo (Nat.le_refl _), fun h => by simp [he.2.1] at h⟩
    · exact ⟨(he.1.child hc).mono hlo (Nat.le_refl _), he.1.laid.functions c hc⟩
  | statement lo' n P =>
    obtain ⟨hlo, rfl, hplace⟩ := h
    exact ⟨he.1.mono hlo (Nat.le_refl _), fun _ => hplace⟩

theorem Piece.Before.lo_le (h : e.Before source around hi) : e.lo ≤ hi := by
  cases e with
  | token lo => exact h
  | mark lo marker => exact h.2.2
  | operand lo n | plain lo n P | statement lo n P => exact h.1.lo_le_hi

end

/-! ## 8. Productions -/

/-- Whether a production that starts behind an offset, with something around it and some pieces held, goes on and gives
some pieces. -/
def Reads {α : Type} (source : String) (around : Surroundings) (lo : Nat) (held : List Piece) (x : Parse α)
    (parts : α → List Piece) : Prop :=
  ∀ p a p', p.Sited source → p.surroundings = around → lo ≤ p.currentStart → Held source around p.lastStop held →
    x p = .ok a p' → Follows source p p' ∧ Held source around p'.lastStop (parts a)

section

variable {source : String} {around inner : Surroundings} {lo lo' : Nat} {held held' : List Piece} {α β : Type}
  {x : Parse α} {f : α → Parse β} {parts parts' : α → List Piece} {more : β → List Piece} (mark : Punctuator)
  (message : String)

/-- Nothing is read. -/
def nothing {α : Type} : α → List Piece :=
  fun _ => []

/-- An operand is read. -/
def operand (lo : Nat) : Node → List Piece :=
  fun n => [.operand lo n]

/-- A node that declares no function is read. -/
def plainAt (P : Node → (Signal → Prop) → Prop) (lo : Nat) : Node → List Piece :=
  fun n => [.plain lo n (P n)]

/-- A node is read. -/
def nodeAt (P : Node → (Signal → Prop) → Prop) (lo : Nat) : Node → List Piece :=
  fun n => [.statement lo n (P n)]

/-- A statement that is no lexical declaration is read. -/
def statementAt : Nat → Node → List Piece :=
  nodeAt fun n => n.Placed false

/-- A statement or a declaration is read. -/
def itemAt : Nat → Node → List Piece :=
  nodeAt fun n => n.Placed true

/-- A block is read. -/
def blockAt : Nat → Node → List Piece :=
  plainAt fun n => n.Placed false

/-- Operands are read. -/
def operands (lo : Nat) : List Node → List Piece :=
  fun l => l.map (.operand lo)

/-- Statements and declarations are read. -/
def itemsAt (lo : Nat) : List Node → List Piece :=
  fun l => l.map fun n => .statement lo n (n.Placed true)

theorem reads_pure {a : α} (h : parts a ⊆ held) : Reads source around lo held (pure a) parts := by
  intro p b p' hp _ _ hheld hr
  cases hr
  exact ⟨hp.follows rfl, fun e he => hheld e (h he)⟩

theorem reads_nothing (a : α) : Reads source around lo held (pure a) nothing :=
  reads_pure (List.nil_subset _)

/-- After a production of which something more is known. -/
theorem Reads.known {P : α → Prop} (hx : Reads source around lo held x parts) (hP : Results x P)
    (hf : ∀ a, P a → Reads source around lo (parts a ++ held) (f a) more) :
    Reads source around lo held (x >>= f) more := by
  intro p b p' hp haround hlo hheld hr
  obtain ⟨a, p₁, ha, hb⟩ := bind_ok hr
  obtain ⟨hp₁, hparts⟩ := hx p a p₁ hp haround hlo hheld ha
  have hall : Held source around p₁.lastStop (parts a ++ held) := held_append.2 ⟨hparts, hheld.mono hp₁.stop_le⟩
  have hstart := Nat.le_trans hlo hp₁.start_le
  obtain ⟨hp', hmore⟩ := hf a (hP p a p₁ ha) p₁ b p' hp₁.sited (hp₁.around.trans haround) hstart hall hb
  exact ⟨hp₁.trans hp', hmore⟩

theorem Reads.bind (hx : Reads source around lo held x parts)
    (hf : ∀ a, Reads source around lo (parts a ++ held) (f a) more) : Reads source around lo held (x >>= f) more :=
  hx.known (fun _ _ _ _ => trivial) fun a _ => hf a

/-- After one piece. -/
theorem Reads.then {e : Piece} (hx : Reads source around lo held x fun _ => [e])
    (hf : ∀ a, Reads source around lo (e :: held) (f a) more) : Reads source around lo held (x >>= f) more :=
  hx.bind hf

/-- After an operand. -/
theorem Reads.node {x : Parse Node} {f : Node → Parse β} (hx : Reads source around lo held x (operand lo'))
    (hf : ∀ n, Reads source around lo (.operand lo' n :: held) (f n) more) : Reads source around lo held (x >>= f) more :=
  hx.bind hf

/-- After nothing. -/
theorem Reads.skip (hx : Reads source around lo held x nothing) (hf : ∀ a, Reads source around lo held (f a) more) :
    Reads source around lo held (x >>= f) more :=
  hx.bind hf

/-- What is held can be less, and where the production starts can be known better. -/
theorem Reads.weaken (h : Reads source around lo held x parts) (hlo : lo ≤ lo') (hheld : held ⊆ held') :
    Reads source around lo' held' x parts :=
  fun p a p' hp haround hstart hall hr =>
    h p a p' hp haround (Nat.le_trans hlo hstart) (fun e he => hall e (hheld he)) hr

theorem Reads.post (h : Reads source around lo held x parts)
    (hparts : ∀ a hi, Held source around hi (parts a) → Held source around hi (parts' a)) : Reads source around lo held x parts' :=
  fun p a p' hp haround hstart hall hr => (h p a p' hp haround hstart hall hr).imp_right (hparts a _)

/-- What is held is also something else. -/
theorem Reads.pre (held' : List Piece) (h : Reads source around lo held' x parts)
    (hheld : ∀ hi, Held source around hi held → Held source around hi held') :
    Reads source around lo held x parts :=
  fun p a p' hp haround hstart hall hr => h p a p' hp haround hstart (hheld _ hall) hr

/-- What is read is not needed. -/
theorem Reads.forget (h : Reads source around lo held x parts) : Reads source around lo held x nothing :=
  h.post fun _ _ _ => fun _ he => absurd he List.not_mem_nil

/-- Where something has been read behind an offset, the production starts behind it. -/
theorem Reads.raise (hbehind : ∃ e ∈ held, lo' ≤ e.lo) (h : Reads source around lo' held x parts) :
    Reads source around lo held x parts := by
  intro p a p' hp haround _ hall hr
  obtain ⟨e, he, hle⟩ := hbehind
  exact h p a p' hp haround (Nat.le_trans hle (Nat.le_trans (hall e he).lo_le hp.lastStop_le)) hall hr

/-- Where something has been read behind an offset, a token has been. -/
theorem Reads.counted (hbehind : ∃ e ∈ held, lo' ≤ e.lo) (h : Reads source around lo (.token lo' :: held) x parts) :
    Reads source around lo held x parts := by
  obtain ⟨e, he, hle⟩ := hbehind
  exact h.pre _ fun hi hall => held_cons.2 ⟨Nat.le_trans hle (hall e he).lo_le, hall⟩

/-- Where a node has been read, the production starts behind it. -/
theorem Reads.behind {n : Node} (hn : .operand lo' n ∈ held) (h : Reads source around n.span.stop held x parts) :
    Reads source around lo held x parts := by
  intro p a p' hp haround _ hall hr
  obtain ⟨hbetween, _⟩ : n.Between source lo' p.lastStop ∧ _ := hall _ hn
  exact h p a p' hp haround (Nat.le_trans hbetween.le_hi hp.lastStop_le) hall hr

/-- What is known about the start of a node that has been read. -/
theorem Reads.of_mark (hmark : .mark lo' marker ∈ held)
    (h : Boundary source marker.start → lo' ≤ marker.start → Reads source around lo held x parts) :
    Reads source around lo held x parts :=
  fun p a p' hp haround hlo hall hr =>
    have hbefore : (Piece.mark lo' marker).Before source around p.lastStop := hall _ hmark
    h hbefore.1 hbefore.2.1 p a p' hp haround hlo hall hr

theorem Reads.map {f : α → β} (h : Reads source around lo held x parts) (hparts : ∀ a, more (f a) ⊆ parts a) :
    Reads source around lo held (f <$> x) more :=
  h.bind fun a => reads_pure fun _ he => List.mem_append_left _ (hparts a he)

theorem reads_ite {c : Prop} [Decidable c] {y : Parse α} (hx : c → Reads source around lo held x parts)
    (hy : ¬ c → Reads source around lo held y parts) : Reads source around lo held (if c then x else y) parts := by
  split
  · exact hx ‹_›
  · exact hy ‹_›

/-! ### Productions that stay where they are -/

theorem Keeps.reads (hx : Keeps standing x) (hf : ∀ a, Reads source around lo held (f a) more) :
    Reads source around lo held (x >>= f) more := by
  intro p b p' hp haround hlo hheld hr
  obtain ⟨a, p₁, ha, hb⟩ := bind_ok hr
  have hp₁ := hp.follows (hx p a p₁ ha)
  have hstart := Nat.le_trans hlo hp₁.start_le
  obtain ⟨hp', hmore⟩ := hf a p₁ b p' hp₁.sited (hp₁.around.trans haround) hstart (hheld.mono hp₁.stop_le) hb
  exact ⟨hp₁.trans hp', hmore⟩

/-- A production that fails gives anything. -/
theorem reads_throw (e : ParseError) : Reads source around lo held (throw e) parts := by
  intro p a p' _ _ _ _ h
  cases h

theorem reads_failAt (position : Option Position) : Reads source around lo held (failAt message position) parts :=
  reads_throw _

theorem reads_fail : Reads source around lo held (fail message) parts :=
  keeps_get.reads fun _ => reads_failAt _ _

theorem reads_unexpected : Reads source around lo held unexpected parts := by
  refine keeps_get.reads fun p => ?_
  split <;> exact reads_fail _

theorem reads_unsupported (what : String) : Reads source around lo held (unsupported what) parts :=
  reads_fail _

/-! ## 9. Tokens -/

theorem lex_ok {reader : Lex Token} {p p' : Parser} {t : Token} (h : lex reader p = .ok t p') :
    ∃ l, reader p.lexer = .ok t l ∧ p' = { p with lexer := l } := by
  unfold lex at h
  split at h
  · rename_i t' l hr
    cases h
    exact ⟨l, hr, rfl⟩
  · cases h

/-- Line breaks are passed over; the token that is found lies behind where the search starts. -/
theorem nextToken_marked : ∀ (fuel : Nat) {broken : Bool} {p p' : Parser} {r : Token × Bool} {lo : Nat},
    p.lexer.At source → lo ≤ p.lexer.offset → nextToken (fuel + 1) broken p = .ok r p' →
      ∃ l, p' = { p with lexer := l } ∧ Lexer.Marked source lo l
  | fuel, broken, p, p', r, lo, hp, hlo, h => by
    obtain ⟨t, p₁, hlex, h⟩ := bind_ok h
    obtain ⟨l, ht, rfl⟩ := lex_ok hlex
    have hl := Lexer.token_marked hp hlo ht
    split at h
    · cases fuel with
      | zero =>
        cases h
        exact ⟨l, rfl, hl⟩
      | succ fuel =>
        have hlo' := Nat.le_trans hl.lo_le hl.le_offset
        exact nextToken_marked (p := { p with lexer := l }) fuel hl.at_source hlo' h
    · cases h
      exact ⟨l, rfl, hl⟩

/-- **Taking a token goes on to its end.** -/
theorem reads_advance : Reads source around lo held advance fun _ => [.token lo] := by
  intro p t p' hp _ hlo _ h
  obtain ⟨q, p₁, hget, h⟩ := bind_ok h
  cases hget
  obtain ⟨⟨next, broken⟩, p₂, hnext, h⟩ := bind_ok h
  obtain ⟨l, rfl, hl⟩ := nextToken_marked _ hp.lexer (Nat.le_of_eq hp.stop_eq) hnext
  cases h
  have hstop : Boundary source p.currentStop := hp.stop_eq ▸ hp.lexer.boundary
  refine ⟨⟨⟨hl.at_source, rfl, hl.boundary, hstop, hl.lo_le, hl.le_offset⟩, rfl, ?_, ?_⟩, ?_⟩
  · exact Nat.le_trans hp.start_le hl.lo_le
  · exact Nat.le_trans hp.lastStop_le hp.start_le
  · exact List.forall_mem_singleton.2 (Nat.le_trans hlo hp.start_le)

/-- **A token that is read anew** starts where it did. -/
theorem reads_rescan {reader : Lex Token} (hreader : Lexer.Moves reader) {f : Unit → Parse β}
    (hf : ∀ u, Reads source around lo held (f u) more) :
    Reads source around lo held (lex reader >>= fun t => rescan t >>= f) more := by
  intro p b p' hp haround hlo hheld h
  obtain ⟨t, p₁, hlex, h⟩ := bind_ok h
  obtain ⟨l, ht, rfl⟩ := lex_ok hlex
  obtain ⟨u, p₂, hrescan, h⟩ := bind_ok h
  cases hrescan
  have hpasses := hreader.passes ht
  have hstop : p.currentStop ≤ l.offset := hp.stop_eq ▸ hpasses.offset_le
  have hsited : Follows source p { p with
      lexer := l, current := t, currentStop := l.offset, currentStopPosition := l.position } :=
    ⟨⟨hpasses.at hp.lexer, rfl, hp.start, hp.lastStop, hp.lastStop_le, Nat.le_trans hp.start_le hstop⟩, rfl,
      Nat.le_refl _, Nat.le_refl _⟩
  obtain ⟨hp', hmore⟩ := hf () _ b p' hsited.sited haround hlo hheld h
  exact ⟨hsited.trans hp', hmore⟩

/-- What is read does not hang on what is given. -/
theorem reads_discard {pieces : List Piece} (h : Reads source around lo held x fun _ => pieces) :
    Reads source around lo held (discard x) fun _ => pieces :=
  h.bind fun _ => reads_pure (List.subset_append_left _ _)

theorem reads_eat : Reads source around lo held (eat mark) fun _ => [.token lo] := by
  refine (keeps_at mark).reads fun _ => reads_ite (fun _ => ?_) fun _ => reads_unexpected
  exact reads_discard reads_advance

theorem reads_eatWord (word : Keyword) : Reads source around lo held (eatWord word) fun _ => [.token lo] := by
  refine (keeps_atWord word).reads fun _ => reads_ite (fun _ => ?_) fun _ => reads_unexpected
  exact reads_discard reads_advance

theorem reads_eatIf : Reads source around lo held (eatIf mark) nothing := by
  refine (keeps_at mark).reads fun _ => reads_ite (fun _ => ?_) fun _ => reads_nothing _
  exact (reads_discard reads_advance).then fun _ => reads_nothing _

theorem reads_discardIf : Reads source around lo held (discard (eatIf mark)) nothing :=
  (reads_eatIf mark).bind fun _ => reads_nothing _

theorem reads_eatIfWord (word : Keyword) : Reads source around lo held (eatIfWord word) nothing := by
  refine (keeps_atWord word).reads fun _ => reads_ite (fun _ => ?_) fun _ => reads_nothing _
  exact (reads_discard reads_advance).then fun _ => reads_nothing _

theorem reads_eatSemicolon : Reads source around lo held eatSemicolon nothing := by
  refine (reads_eatIf _).skip fun _ => reads_ite (fun _ => reads_nothing _) fun _ => ?_
  exact keeps_get.reads fun _ => reads_ite (fun _ => reads_nothing _) fun _ => reads_unexpected

/-! ## 10. Nodes -/

/-- The start of a node lies behind where the production starts, and what follows lies behind it. -/
theorem reads_start {f : Marker → Parse β}
    (hf : ∀ marker, Boundary source marker.start → lo ≤ marker.start →
      Reads source around marker.start held (f marker) more) :
    Reads source around lo held (start >>= f) more := by
  intro p b p' hp haround hlo hheld h
  obtain ⟨marker, p₁, hstart, h⟩ := bind_ok h
  cases hstart
  exact hf _ hp.start hlo p b p' hp haround (Nat.le_refl _) hheld h

/-- An operand that lies behind a later offset lies behind an earlier one. -/
theorem Reads.lower {x : Parse Node} {lo₁ lo₂ : Nat} (h : Reads source around lo held x (operand lo₂))
    (hle : lo₁ ≤ lo₂) : Reads source around lo held x (operand lo₁) :=
  h.post fun _ _ hn => held_operand.2 ((held_operand.1 hn).imp_left fun h => h.mono hle (Nat.le_refl _))

theorem Reads.lowerPlain {x : Parse Node} {P : Node → (Signal → Prop) → Prop} {lo₁ lo₂ : Nat}
    (h : Reads source around lo held x (plainAt P lo₂)) (hle : lo₁ ≤ lo₂) :
    Reads source around lo held x (plainAt P lo₁) :=
  h.post fun _ _ hn => held_plain.2 ((held_plain.1 hn).imp_left fun h => h.mono hle (Nat.le_refl _))

theorem Reads.lowerNode {x : Parse Node} {P : Node → (Signal → Prop) → Prop} {lo₁ lo₂ : Nat}
    (h : Reads source around lo held x (nodeAt P lo₂)) (hle : lo₁ ≤ lo₂) :
    Reads source around lo held x (nodeAt P lo₁) :=
  h.post fun _ _ hn => held_statement.2 ((held_statement.1 hn).imp_left fun h => h.mono hle (Nat.le_refl _))

/-- After an operand that lies behind a later offset than is needed. -/
theorem Reads.lowered {x : Parse Node} {f : Node → Parse β} {lo₁ lo₂ : Nat}
    (hx : Reads source around lo held x (operand lo₂)) (hle : lo₁ ≤ lo₂)
    (hf : ∀ n, Reads source around lo (.operand lo₁ n :: held) (f n) more) :
    Reads source around lo held (x >>= f) more :=
  (hx.lower hle).node hf

/-- What declares no function may stand where a statement stands. -/
theorem Reads.asNode {x : Parse Node} {P Q : Node → (Signal → Prop) → Prop}
    (h : Reads source around lo held x (plainAt P lo')) (hPQ : ∀ n, P n around.Taken → Q n around.Taken) :
    Reads source around lo held x (nodeAt Q lo') :=
  h.post fun n _ hn => have h := held_plain.1 hn; held_statement.2 ⟨h.1, hPQ n h.2.2⟩

/-- What is known of a statement is also known in another way. -/
theorem Reads.also {x : Parse Node} {P Q : Node → (Signal → Prop) → Prop}
    (h : Reads source around lo held x (nodeAt P lo')) (hPQ : ∀ n, P n around.Taken → Q n around.Taken) :
    Reads source around lo held x (nodeAt Q lo') :=
  h.post fun n _ hn => held_statement.2 ((held_statement.1 hn).imp_right (hPQ n))

/-- What is placed as an expression is an operand. -/
theorem Reads.asOperand {x : Parse Node} {P : Node → (Signal → Prop) → Prop}
    (h : Reads source around lo held x (plainAt P lo')) (hP : ∀ n, P n around.Taken → n.IsPlaced) :
    Reads source around lo held x (operand lo') :=
  h.post fun n _ hn => have h := held_plain.1 hn; held_operand.2 ⟨h.1, h.2.1, hP n h.2.2⟩

theorem reads_startOperand {f : Marker → Parse Node}
    (hf : ∀ marker, Boundary source marker.start →
      Reads source around marker.start held (f marker) (operand marker.start)) :
    Reads source around lo held (start >>= f) (operand lo) :=
  reads_start fun marker hmark hlo => (hf marker hmark).lower hlo

theorem reads_startPlain {f : Marker → Parse Node} {P : Node → (Signal → Prop) → Prop}
    (hf : ∀ marker, Boundary source marker.start →
      Reads source around marker.start held (f marker) (plainAt P marker.start)) :
    Reads source around lo held (start >>= f) (plainAt P lo) :=
  reads_start fun marker hmark hlo => (hf marker hmark).lowerPlain hlo

theorem reads_startNode {f : Marker → Parse Node} {P : Node → (Signal → Prop) → Prop}
    (hf : ∀ marker, Boundary source marker.start →
      Reads source around marker.start held (f marker) (nodeAt P marker.start)) :
    Reads source around lo held (start >>= f) (nodeAt P lo) :=
  reads_start fun marker hmark hlo => (hf marker hmark).lowerNode hlo

/-- What has been read last lies behind its offset. -/
theorem head_behind {e : Piece} : ∃ e' ∈ e :: held, e.lo ≤ e'.lo :=
  ⟨e, List.mem_cons_self, Nat.le_refl _⟩

/-- **A node is closed over what is held.** -/
theorem reads_finishNode {P : Node → (Signal → Prop) → Prop} (hmark : Boundary source marker.start)
    (hheld : ∃ e ∈ held, marker.start ≤ e.lo)
    (hchildren : ∀ c ∈ kind.children, ∃ e ∈ held, e.Covers marker.start kind c)
    (hplaced : ∀ {hi}, Held source around hi held → ∀ span, P (.mk kind span) around.Taken) :
    Reads source around lo held (finish marker kind) (nodeAt P marker.start) := by
  intro p n p' hp _ _ hall h
  obtain ⟨q, p₁, hget, h⟩ := bind_ok h
  cases hget
  cases h
  refine ⟨hp.follows rfl, held_statement.2 ⟨?_, hplaced hall _⟩⟩
  have hcovered : ∀ c ∈ kind.children, c.Between source marker.start p.lastStop ∧
      (c.isFunctionDeclaration → c ∈ kind.items ∨ c ∈ kind.substatements) := by
    intro c hc
    obtain ⟨e, he, hcovers⟩ := hchildren c hc
    exact hcovers.between (hall e he)
  obtain ⟨e, he, hlo⟩ := hheld
  exact Node.between_of_children hmark hp.lastStop (Nat.le_trans hlo (hall e he).lo_le) (Nat.le_refl _) (Nat.le_refl _)
    (fun c hc => (hcovered c hc).1) fun c hc => (hcovered c hc).2

theorem reads_finishPlain {P : Node → (Signal → Prop) → Prop} (hmark : Boundary source marker.start)
    (hheld : ∃ e ∈ held, marker.start ≤ e.lo)
    (hchildren : ∀ c ∈ kind.children, ∃ e ∈ held, e.Covers marker.start kind c)
    (hplain : ∀ span, (Node.mk kind span).isFunctionDeclaration = false)
    (hplaced : ∀ {hi}, Held source around hi held → ∀ span, P (.mk kind span) around.Taken) :
    Reads source around lo held (finish marker kind) (plainAt P marker.start) := by
  intro p n p' hp haround hlo hall h
  obtain ⟨hp', hn⟩ := reads_finishNode hmark hheld hchildren hplaced p n p' hp haround hlo hall h
  obtain ⟨q, p₁, hget, h⟩ := bind_ok h
  cases hget
  cases h
  have hn := held_statement.1 hn
  exact ⟨hp', held_plain.2 ⟨hn.1, hplain _, hn.2⟩⟩

/-- A node over operands. -/
theorem reads_node (hmark : Boundary source marker.start) (hheld : ∃ e ∈ held, marker.start ≤ e.lo)
    (hchildren : operands marker.start kind.children ⊆ held) (hkind : kind.isOperand) :
    Reads source around lo held (finish marker kind) (operand marker.start) := by
  have hmem : ∀ c ∈ kind.children, Piece.operand marker.start c ∈ held := fun c hc =>
    hchildren (List.mem_map_of_mem hc)
  refine Reads.asOperand (P := fun n _ => n.IsPlaced) (reads_finishPlain hmark hheld ?_ (Kind.plain_of_isOperand hkind) ?_) fun _ h => h
  · exact fun c hc => ⟨_, hmem c hc, Nat.le_refl _, .inl rfl⟩
  · exact fun hall _ => Kind.placed_of_children (Kind.isFree_of_isOperand hkind) (fun c hc => hall.operand (hmem c hc)) _ _

/-- A node of a free kind over operands is placed wherever it stands. -/
theorem reads_freeNode (hmark : Boundary source marker.start) (hheld : ∃ e ∈ held, marker.start ≤ e.lo)
    (hchildren : operands marker.start kind.children ⊆ held) (hfree : kind.isFree) :
    Reads source around lo held (finish marker kind)
      (nodeAt (fun n _ => ∀ declares Taken, n.Placed declares Taken) marker.start) := by
  have hmem : ∀ c ∈ kind.children, Piece.operand marker.start c ∈ held := fun c hc =>
    hchildren (List.mem_map_of_mem hc)
  refine reads_finishNode hmark hheld (fun c hc => ⟨_, hmem c hc, Nat.le_refl _, .inl rfl⟩) ?_
  exact fun hall _ => Kind.placed_of_children hfree fun c hc => hall.operand (hmem c hc)

/-! ## 11. Context -/

/-- What a production changes around another one does not matter to where it is. -/
theorem Reads.between {f g : Parser → Parser} (h : Reads source around lo held x parts)
    (hf : ∀ p, (f p).standing = p.standing) (hg : ∀ p, (g p).standing = p.standing) :
    Reads source around lo held (do modify f; let result ← x; modify g; pure result) parts :=
  (keeps_modify hf).reads fun _ => h.bind fun _ => (keeps_modify hg).reads fun _ =>
    reads_pure (List.subset_append_left _ _)

/-- **A production with something else around it.** What is around is changed for it and changed back after it, and
what it gives is seen from outside. -/
theorem reads_inside (inner : Surroundings) {p : Parser} {f g : Parser → Parser} {k : α → Parse β} {b : β} {p' : Parser}
    (h : (do modify f; let a ← x; modify g; k a) p = .ok b p') (hp : p.Sited source)
    (haround : p.surroundings = around) (hlo : lo ≤ p.currentStart) (hheld : Held source around p.lastStop held)
    (hx : Reads source inner lo [] x parts) (hk : ∀ a, Reads source around lo (parts' a ++ held) (k a) more)
    (hparts : ∀ a q hi, x (f p) = .ok a q → Held source inner hi (parts a) → Held source around hi (parts' a))
    (hf : (f p).place = p.place ∧ (f p).surroundings = inner)
    (hg : ∀ q, q.surroundings = inner → (g q).place = q.place ∧ (g q).surroundings = around) :
    Follows source p p' ∧ Held source around p'.lastStop (more b) := by
  obtain ⟨_, p₁, hmodify, h⟩ := bind_ok h
  cases hmodify
  obtain ⟨a, p₂, ha, h⟩ := bind_ok h
  obtain ⟨_, p₃, hmodify, h⟩ := bind_ok h
  cases hmodify
  have hstart : (f p).currentStart = p.currentStart := congrArg (·.2.1) hf.1
  have hstop : (f p).lastStop = p.lastStop := congrArg (·.2.2.2) hf.1
  obtain ⟨hp₂, hgiven⟩ := hx (f p) a p₂ (hp.congr hf.1) hf.2 (hstart ▸ hlo) (List.forall_mem_nil _) ha
  obtain ⟨hplace, hback⟩ := hg p₂ (hp₂.around.trans hf.2)
  have hstart' : (g p₂).currentStart = p₂.currentStart := congrArg (·.2.1) hplace
  have hstop' : (g p₂).lastStop = p₂.lastStop := congrArg (·.2.2.2) hplace
  have hp₃ : Follows source p (g p₂) := by
    refine ⟨hp₂.sited.congr hplace, hback.trans haround.symm, ?_, ?_⟩
    · exact hstart' ▸ hstart ▸ hp₂.start_le
    · exact hstop' ▸ hstop ▸ hp₂.stop_le
  have hall : Held source around (g p₂).lastStop (parts' a ++ held) :=
    held_append.2 ⟨hstop' ▸ hparts a _ _ ha hgiven, hheld.mono hp₃.stop_le⟩
  obtain ⟨hp', hmore⟩ := hk a (g p₂) b p' hp₃.sited hback (Nat.le_trans hlo hp₃.start_le) hall h
  exact ⟨hp₃.trans hp', hmore⟩

theorem reads_nested (h : Reads source around lo held x parts) : Reads source around lo held (nested x) parts := by
  refine keeps_get.reads fun p => reads_ite (fun _ => reads_fail _) fun _ => h.between ?_ ?_
  · exact fun _ => rfl
  · exact fun _ => rfl

theorem reads_withIn (h : Reads source around lo held x parts) : Reads source around lo held (withIn x) parts := by
  refine keeps_get.reads fun p => h.between ?_ ?_
  · exact fun _ => rfl
  · exact fun _ => rfl

/-- Inside a function nothing is around, so only what is the same whatever is around is seen from outside. -/
theorem reads_inFunction (h : Reads source .outermost lo [] x parts) (hfree : ∀ a, ∀ e ∈ parts a, e.IsFree) :
    Reads source around lo held (inFunction x) parts := by
  intro p a p' hp haround hlo hheld hr
  obtain ⟨saved, p₁, hget, hr⟩ := bind_ok hr
  cases hget
  exact reads_inside .outermost hr hp haround hlo hheld h (fun a => reads_pure (List.subset_append_left _ _))
    (fun a _ _ _ hgiven => hgiven.free (hfree a)) ⟨rfl, rfl⟩ fun q _ => ⟨rfl, haround⟩

theorem free_operand (n : Node) : ∀ e ∈ operand lo n, e.IsFree :=
  List.forall_mem_singleton.2 trivial

theorem free_operands (l : List Node) : ∀ e ∈ operands lo l, e.IsFree :=
  List.forall_mem_map.2 fun _ _ => trivial

/-- What every round reads is read by all rounds together. -/
theorem reads_rounds {pieces : List α → List Piece} {goesOn : Parse Bool} {production : List α → Parse (List α)}
    (hgoes : Keeps standing goesOn) (h : ∀ acc, Reads source around lo (pieces acc ++ held) (production acc) pieces) :
    ∀ (fuel : Nat) (acc : List α),
      Reads source around lo (pieces acc ++ held) (rounds goesOn production fuel acc) pieces
  | 0, acc => reads_pure (List.subset_append_left _ _)
  | fuel + 1, acc => hgoes.reads fun _ => reads_ite
    (fun _ => (h acc).bind fun acc' => (reads_rounds hgoes h fuel acc').weaken (Nat.le_refl _) (by simp))
    fun _ => reads_pure (List.subset_append_left _ _)

/-! ## 12. Names -/

/-- A node without children. -/
theorem reads_leaf (hmark : Boundary source marker.start) (hheld : ∃ e ∈ held, marker.start ≤ e.lo)
    (hchildren : kind.children = []) (hkind : kind.isOperand) :
    Reads source around lo held (finish marker kind) (operand marker.start) :=
  reads_node hmark hheld (by simp [hchildren, operands]) hkind

theorem reads_identifier : Reads source around lo held identifier (operand lo) := by
  refine reads_startOperand fun marker hmark => keeps_identifierAhead.reads fun name => ?_
  cases name with
  | none => exact reads_unexpected
  | some name =>
    exact (reads_discard reads_advance).then fun _ => reads_leaf hmark head_behind rfl rfl

theorem reads_bindingIdentifier : Reads source around lo held bindingIdentifier (operand lo) := by
  refine reads_identifier.bind fun n => ?_
  split
  · exact (keeps_checkBinding _).reads fun _ => reads_pure (List.subset_append_left _ _)
  · exact reads_pure (List.subset_append_left _ _)

/-- What is given at most once is read at most once. -/
def optional (lo : Nat) : Option Node → List Piece :=
  fun o => o.toList.map (.operand lo)

theorem Held.optional {hi : Nat} {o : Option Node} (h : Held source around hi (optional lo o)) :
    Node.Placed? o false Nowhere :=
  Node.placed?_iff.2 fun _ hc => h.operand (List.mem_map_of_mem hc)

theorem reads_some {y : Parse Node} (h : Reads source around lo held y (operand lo')) :
    Reads source around lo held (some <$> y) (optional lo') :=
  h.map fun _ => List.Subset.refl _

theorem reads_none : Reads source around lo held (pure none) (optional lo') :=
  reads_pure (List.nil_subset _)

theorem reads_optionalLabel : Reads source around lo held optionalLabel (optional lo) :=
  keeps_get.reads fun _ => keeps_identifierAhead.reads fun _ =>
    reads_ite (fun _ => reads_some reads_identifier) fun _ => reads_none

theorem reads_literal (value : Json) : Reads source around lo held (literal value) (operand lo) :=
  reads_startOperand fun _ hmark => keeps_get.reads fun _ => (keeps_sourceSlice _ _).reads fun _ =>
    (reads_discard reads_advance).then fun _ => reads_leaf hmark head_behind rfl rfl

end

/-! ## 13. Goals -/

/-- Whether the goals inside a production are reached by productions that lay and place their nodes. -/
structure Laying (source : String) (reach : Reach) : Prop where
  item {around : Surroundings} (lo : Nat) (held : List Piece) : Reads source around lo held (reach .item) (itemAt lo)
  statement {around : Surroundings} (lo : Nat) (held : List Piece) :
    Reads source around lo held (reach .statement) (statementAt lo)
  /-- Where the word of a loop is ahead, the statement is a loop. -/
  loop {p p' : Parser} {n : Node} {word : Keyword} (hword : word = .forWord ∨ word = .whileWord ∨ word = .doWord)
    (hcurrent : p.current = .keyword word) (h : reach .statement p = .ok n p') : n.kind.isLoop = true
  assignment {around : Surroundings} (lo : Nat) (held : List Piece) :
    Reads source around lo held (reach .assignment) (operand lo)
  unary {around : Surroundings} (lo : Nat) (held : List Piece) :
    Reads source around lo held (reach .unary) (operand lo)
  binaryRest {around : Surroundings} (lo : Nat) {held : List Piece} {marker : Marker}
    (hmark : Boundary source marker.start) {left : Node} (hleft : .operand marker.start left ∈ held)
    (hlo : marker.start ≤ lo) (least : Nat) :
    Reads source around lo held (reach (.binaryRest marker left least)) (operand marker.start)
  newExpression {around : Surroundings} (lo : Nat) (held : List Piece) :
    Reads source around lo held (reach .newExpression) (operand lo)
  leftHandSide {around : Surroundings} (lo : Nat) (held : List Piece) :
    Reads source around lo held (reach .leftHandSide) (operand lo)
  bindingTarget {around : Surroundings} (lo : Nat) (held : List Piece) :
    Reads source around lo held (reach .bindingTarget) (operand lo)

end GuestScript.Parser
