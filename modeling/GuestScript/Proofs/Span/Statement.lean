import GuestScript.Proofs.Span.Expression

/-!
# Statements and programs lay and place their nodes

Given that the goals inside a production lay and place their nodes, the productions of statements do. The statements
that are read inside another one stand where its kind has statements, so a declaration of a function stands nowhere
else. The checks of the parser are the ones that the places of jumps need: what `checkJump` lets pass is a signal that
the loops, switches and labels around take.

Every goal lays its nodes, however many levels there are to go (`Parser.reach_laying`), so every program that is parsed
is laid over its text (`parse_laid`) and placed (`parse_placed`). What follows is the law of spans: every node of a parsed program covers a part of
the text between two characters, its children lie inside it, and its text is that part of the source.
-/

namespace GuestScript.Parser

open Signal

variable {source : String} {reach : Reach} {around : Surroundings} {lo : Nat} {held : List Piece}

/-! ## 1. Nodes with statements -/

/-- Where a child of a node is held: as a node that declares no function, or as a statement where one stands. -/
def HeldAs (held : List Piece) (lo : Nat) (kind : Kind) (c : Node) : Prop :=
  .operand lo c ∈ held ∨ (∃ P, .plain lo c P ∈ held) ∨
    (∃ P, .statement lo c P ∈ held) ∧ (c ∈ kind.items ∨ c ∈ kind.substatements)

theorem HeldAs.plain {kind : Kind} {c : Node} {P : (Signal → Prop) → Prop} (h : .plain lo c P ∈ held) :
    HeldAs held lo kind c :=
  .inr (.inl ⟨P, h⟩)

theorem HeldAs.statement {kind : Kind} {c : Node} {P : (Signal → Prop) → Prop} (h : .statement lo c P ∈ held)
    (hc : c ∈ kind.items ∨ c ∈ kind.substatements) : HeldAs held lo kind c :=
  .inr (.inr ⟨⟨P, h⟩, hc⟩)

theorem HeldAs.covers {marker : Marker} {kind : Kind} {c : Node} (h : HeldAs held marker.start kind c) :
    ∃ e ∈ held, e.Covers marker.start kind c := by
  obtain hoperand | ⟨P, hplain⟩ | ⟨⟨P, hstatement⟩, hplace⟩ := h
  · exact ⟨_, hoperand, Nat.le_refl _, .inl rfl⟩
  · exact ⟨_, hplain, Nat.le_refl _, .inl rfl⟩
  · exact ⟨_, hstatement, Nat.le_refl _, rfl, hplace⟩

/-- A statement that is closed over what is held. -/
theorem reads_close {marker : Marker} {kind : Kind} (hmark : Boundary source marker.start)
    (hbehind : ∃ e ∈ held, marker.start ≤ e.lo) (hchildren : ∀ c ∈ kind.children, HeldAs held marker.start kind c)
    (hplaced : ∀ {hi}, Held source around hi held → kind.Placed false around.Taken) :
    Reads source around lo held (finish marker kind) (statementAt marker.start) :=
  reads_finishNode hmark hbehind (fun c hc => (hchildren c hc).covers) fun hall _ => hplaced hall

/-- A statement without statements in it that does not jump. -/
theorem reads_closeFree {marker : Marker} {kind : Kind} (hmark : Boundary source marker.start)
    (hbehind : ∃ e ∈ held, marker.start ≤ e.lo) (hchildren : operands marker.start kind.children ⊆ held)
    (hfree : kind.isFree) : Reads source around lo held (finish marker kind) (statementAt marker.start) :=
  (reads_freeNode hmark hbehind hchildren hfree).also fun _ h => h _ _

/-! ## 2. Blocks and simple statements -/

section

variable (hr : Laying source reach)

include hr

theorem reads_items {goesOn : Parse Bool} (hgoes : Keeps standing goesOn) :
    Reads source around lo held (items reach goesOn) (itemsAt lo) := by
  refine keeps_get.reads fun p => ?_
  have hround : ∀ acc : List Node,
      Reads source around lo (itemsAt lo acc ++ held) (do pure ((← reach .item) :: acc)) (itemsAt lo) := fun acc =>
    (hr.item _ _).bind fun n => reads_pure (List.cons_subset_cons _ (List.subset_append_left _ _))
  refine (reads_rounds hgoes hround _ []).bind fun l => reads_pure (List.subset_append_of_subset_left _ ?_)
  exact itemsAt_reverse l

/-- **A block is laid over the text**, and placed. -/
theorem reads_block : Reads source around lo held (block reach) (blockAt lo) := by
  refine reads_startPlain fun marker hmark => (reads_eat _).then fun _ => ?_
  refine (reads_items hr (keeps_notAt _)).bind fun body => (reads_eat _).then fun _ => ?_
  exact reads_itemBlock hmark head_behind (List.subset_cons_of_subset _ (List.subset_append_left _ _))

omit hr in
/-- Where lexical declarations may stand, a declaration of variables is placed. -/
theorem PlacedDeclaration.placed {n : Node} (h : PlacedDeclaration n) (Taken : Signal → Prop) : n.Placed true Taken := by
  obtain ⟨kind, span⟩ := n
  obtain ⟨ds, kind, rfl, hds⟩ := h
  exact ⟨.inr rfl, hds⟩

omit hr in
theorem PlacedDeclaration.init {n : Node} (h : PlacedDeclaration n) : Node.InitPlaced (some n) := by
  obtain ⟨kind, span⟩ := n
  obtain ⟨ds, kind, rfl, hds⟩ := h
  exact hds

omit hr in
theorem PlacedDeclaration.placed_var {n : Node} (h : PlacedDeclaration n)
    (hvar : ∃ ds, n.kind = .variableDeclaration ds .var) (Taken : Signal → Prop) : n.Placed false Taken := by
  obtain ⟨kind, span⟩ := n
  obtain ⟨ds, rfl⟩ := hvar
  obtain ⟨ds', kind, hkind, hds⟩ := h
  cases hkind
  exact ⟨.inl rfl, hds⟩

theorem reads_variableStatement :
    Reads source around lo held (variableStatement reach) (nodeAt (fun n _ => PlacedDeclaration n) lo) := by
  refine reads_startNode fun marker hmark => (reads_variableDeclaration hr false).bind fun n => ?_
  refine reads_eatSemicolon.skip fun _ => reads_finishNode hmark head_behind (fun c hc => ?_) fun hall _ => ?_
  · exact ⟨_, List.mem_cons_self, Nat.le_refl _, .inr ⟨rfl, hc⟩⟩
  · exact hall.head.2.2

omit hr in
/-- Where the word for variables is ahead, no lexical declaration follows. -/
theorem variableDeclaration_isVar {inHead : Bool} {p p' : Parser} {n : Node}
    (h : variableDeclaration reach inHead p = .ok n p') (hcurrent : p.current = .keyword .varWord) :
    ∃ ds, n.kind = .variableDeclaration ds .var := by
  obtain ⟨marker, p₁, hm, h₁⟩ := bind_ok h
  cases hm
  refine ahead_results (c := fun token => token = .keyword .varWord)
    (P := fun n => ∃ ds, n.kind = .variableDeclaration ds .var) (fun token htoken => ?_) hcurrent h₁
  subst htoken
  extract_lets rest
  have hrest : Results (rest .var) fun n => ∃ ds, n.kind = .variableDeclaration ds .var := by
    refine results_bind fun _ => results_bind fun first => results_bind fun _ => results_bind fun ds => ?_
    intro p n p' h
    cases h
    exact ⟨_, rfl⟩
  exact hrest

omit hr in
theorem variableStatement_isVar {p p' : Parser} {n : Node} (h : variableStatement reach p = .ok n p')
    (hcurrent : p.current = .keyword .varWord) : ∃ ds, n.kind = .variableDeclaration ds .var := by
  obtain ⟨marker, p₁, hm, h⟩ := bind_ok h
  cases hm
  obtain ⟨declaration, p₂, hdeclaration, h⟩ := bind_ok h
  obtain ⟨_, p₃, _, h⟩ := bind_ok h
  cases h
  have hvar := variableDeclaration_isVar hdeclaration hcurrent
  exact hvar

theorem reads_parenthesized : Reads source around lo held (parenthesized reach) (operand lo) :=
  (reads_eat _).then fun _ => (reads_withIn (reads_expression hr)).node fun _ => (reads_eat _).then fun _ =>
    reads_pure (by simp [operand])

/-- The body of a labeled statement is read. Only a label in front of a loop takes the jumps to its next round. -/
def labeledAt (name : String) : Nat → Node → List Piece :=
  nodeAt fun n Taken => ∃ isLoop, (isLoop = true → n.kind.isLoop = true) ∧ n.Placed false (InLabeled Taken name isLoop)

theorem reads_labeled {marker : Marker} (hmark : Boundary source marker.start) {label : Node} {name : String}
    (hlabel : .operand marker.start label ∈ held) (hname : label.name? = some name) :
    Reads source around marker.start held (labeled reach marker label name) (statementAt marker.start) := by
  refine keeps_get.reads fun p => reads_ite (fun _ => reads_failAt _ _) fun _ => ?_
  refine (reads_discard reads_advance).then fun _ => ?_
  have hclose (body : Node) : Reads source around marker.start
      (labeledAt name marker.start body ++ .token marker.start :: held) (finish marker (.labeledStatement label body))
      (statementAt marker.start) := by
    refine reads_close hmark ⟨.token marker.start, by simp, Nat.le_refl _⟩ (forall_mem_pair.2 ⟨?_, ?_⟩) fun hall => ?_
    · exact .inl (by simp [hlabel])
    · exact .statement List.mem_cons_self (.inr (List.mem_singleton_self _))
    · obtain ⟨isLoop, hloop, hplaced⟩ := hall.head.2
      obtain ⟨kind, span⟩ := body
      refine ⟨isLoop, hloop, ?_⟩
      rw [hname]
      exact hplaced
  intro p n p' hp haround hlo hheld h
  obtain ⟨token, p₁, ht, h⟩ := bind_ok h
  cases ht
  extract_lets isLoop at h
  refine reads_inside (around.inLabeled name isLoop) h hp haround hlo hheld (hr.statement _ _) hclose
    (fun body q hi hrun hgiven => ?_) ⟨rfl, ?_⟩ fun q hq => ⟨rfl, ?_⟩
  · -- where the label is in front of the word of a loop, the statement behind it is a loop
    have hloop : isLoop = true → body.kind.isLoop = true := by
      intro hisLoop
      simp only [isLoop] at hisLoop
      split at hisLoop
      · exact hr.loop (.inl rfl) ‹_› hrun
      · exact hr.loop (.inr (.inl rfl)) ‹_› hrun
      · exact hr.loop (.inr (.inr rfl)) ‹_› hrun
      · cases hisLoop
    obtain ⟨hbetween, hplaced⟩ := held_statement.1 hgiven
    rw [Surroundings.taken_inLabeled] at hplaced
    exact held_statement.2 ⟨hbetween, isLoop, hloop, hplaced⟩
  · exact congrArg (fun around : Surroundings => around.inLabeled name isLoop) haround
  · exact congrArg (fun around : Surroundings => { around with labels := around.labels.tail }) hq

theorem reads_expressionOrLabeled : Reads source around lo held (expressionOrLabeled reach) (statementAt lo) := by
  refine reads_startNode fun marker hmark => (reads_expression hr).node fun e => ?_
  have hplain : Reads source around marker.start (.operand marker.start e :: held)
      (do eatSemicolon; finish marker (.expressionStatement e none)) (statementAt marker.start) :=
    reads_eatSemicolon.skip fun _ =>
      reads_closeFree hmark head_behind (by simp [Kind.children.eq_def, operands]) rfl
  dsimp only
  split
  · rename_i name hname
    refine (keeps_at _).reads fun _ => reads_ite (fun _ => ?_) fun _ => hplain
    exact reads_labeled hr hmark List.mem_cons_self hname
  · exact hplain

/-- A statement is read where one may be. -/
def optionalStatement (lo : Nat) : Option Node → List Piece :=
  fun o => o.toList.map fun n => .statement lo n (n.Placed false)

omit hr in
theorem Held.optionalStatement {hi : Nat} {o : Option Node} (h : Held source around hi (optionalStatement lo o)) :
    Node.Placed? o false around.Taken :=
  Node.placed?_iff.2 fun n hn => h.statement (List.mem_map.2 ⟨n, hn, rfl⟩)

omit hr in
theorem reads_someStatement {y : Parse Node} {lo' : Nat} (h : Reads source around lo held y (statementAt lo')) :
    Reads source around lo held (some <$> y) (optionalStatement lo') :=
  h.map fun _ => List.Subset.refl _

theorem reads_ifStatement : Reads source around lo held (ifStatement reach) (statementAt lo) := by
  refine reads_startNode fun marker hmark => (reads_discard reads_advance).then fun _ => ?_
  refine (reads_parenthesized hr).node fun test => (hr.statement _ _).bind fun consequent => ?_
  refine (reads_eatIfWord _).skip fun _ => ?_
  extract_lets close
  have hclose : ∀ alternate : Option Node, Reads source around marker.start
      (optionalStatement marker.start alternate ++
        (statementAt marker.start consequent ++ .operand marker.start test :: .token marker.start :: held))
      (close alternate) (statementAt marker.start) := by
    intro alternate
    refine reads_close hmark ⟨.token marker.start, by simp, Nat.le_refl _⟩ ?_ fun hall => ?_
    · refine List.forall_mem_cons.2 ⟨.inl (by simp), List.forall_mem_cons.2 ⟨?_, fun c hc => ?_⟩⟩
      · exact .statement (List.mem_append_right _ List.mem_cons_self) (.inr List.mem_cons_self)
      · exact .statement (List.mem_append_left _ (List.mem_map_of_mem hc)) (.inr (List.mem_cons_of_mem _ hc))
    · obtain ⟨halternate, hall⟩ := held_append.1 hall
      exact ⟨hall.tail.head.2.2, hall.head.2, halternate.optionalStatement⟩
  refine reads_ite (fun _ => ?_) fun _ => hclose none
  exact (reads_someStatement (hr.statement _ _)).bind hclose

omit hr in
/-- The statement that has been read last, and stands in another one. -/
theorem heldAs_head {marker : Marker} {kind : Kind} {c : Node} {P : (Signal → Prop) → Prop}
    (hc : c ∈ kind.substatements) : HeldAs (.statement marker.start c P :: held) marker.start kind c :=
  .statement List.mem_cons_self (.inr hc)

theorem reads_withStatement : Reads source around lo held (withStatement reach) (statementAt lo) := by
  refine reads_startNode fun marker hmark => keeps_get.reads fun p => reads_ite (fun _ => reads_fail _) fun _ => ?_
  refine (reads_discard reads_advance).then fun _ => (reads_parenthesized hr).node fun object => ?_
  refine (hr.statement _ _).bind fun body => reads_close hmark ⟨.operand marker.start object, by simp, Nat.le_refl _⟩
    (forall_mem_pair.2 ⟨.inl ?_, heldAs_head (List.mem_singleton_self _)⟩) fun hall => ?_
  · exact List.mem_append_right _ List.mem_cons_self
  · exact ⟨hall.tail.head.2.2, hall.head.2⟩

/-! ## 3. Loops -/

/-- The body of a loop is read. -/
def bodyAt : Nat → Node → List Piece :=
  nodeAt fun n Taken => n.Placed false (InLoop Taken)

theorem reads_loopBody : Reads source around lo held (loopBody reach) (bodyAt lo) := by
  intro p n p' hp haround hlo hheld h
  refine reads_inside around.inLoop h hp haround hlo hheld (hr.statement _ _)
    (fun _ => reads_pure (List.subset_append_left _ _)) (fun body q hi _ hgiven => ?_) ⟨rfl, ?_⟩ fun q hq => ⟨rfl, ?_⟩
  · obtain ⟨hbetween, hplaced⟩ := held_statement.1 hgiven
    rw [Surroundings.taken_inLoop] at hplaced
    exact held_statement.2 ⟨hbetween, hplaced⟩
  · exact congrArg Surroundings.inLoop haround
  · exact congrArg (fun around : Surroundings => { around with iterations := around.iterations - 1 }) hq

theorem reads_whileStatement : Reads source around lo held (whileStatement reach) (statementAt lo) := by
  refine reads_startNode fun marker hmark => (reads_discard reads_advance).then fun _ => ?_
  refine (reads_parenthesized hr).node fun test => (reads_loopBody hr).bind fun body => ?_
  refine reads_close hmark ⟨.operand marker.start test, by simp, Nat.le_refl _⟩
    (forall_mem_pair.2 ⟨.inl ?_, heldAs_head (List.mem_singleton_self _)⟩) fun hall => ?_
  · exact List.mem_append_right _ List.mem_cons_self
  · exact ⟨hall.tail.head.2.2, hall.head.2⟩

theorem reads_doWhileStatement : Reads source around lo held (doWhileStatement reach) (statementAt lo) := by
  refine reads_startNode fun marker hmark => (reads_discard reads_advance).then fun _ => ?_
  refine (reads_loopBody hr).bind fun body => (reads_eatWord _).then fun _ => ?_
  refine (reads_parenthesized hr).node fun test => (reads_discardIf _).skip fun _ => ?_
  refine reads_close hmark head_behind (forall_mem_pair.2 ⟨?_, .inl List.mem_cons_self⟩) fun hall => ?_
  · refine .statement (List.mem_cons_of_mem _ (List.mem_cons_of_mem _ List.mem_cons_self)) (.inr ?_)
    exact List.mem_singleton_self _
  · exact ⟨hall.head.2.2, hall.tail.tail.head.2⟩

theorem reads_forInRest {marker : Marker} (hmark : Boundary source marker.start) {left : Node}
    (hleft : .operand marker.start left ∈ held ∨ .plain marker.start left (fun _ => PlacedDeclaration left) ∈ held) :
    Reads source around marker.start held (forInRest reach marker left) (statementAt marker.start) := by
  refine (reads_discard reads_advance).then fun _ => (reads_expression hr).node fun right => ?_
  refine (reads_eat _).then fun _ => (reads_loopBody hr).bind fun body => ?_
  refine reads_close hmark ⟨.token marker.start, by simp, Nat.le_refl _⟩
    (forall_mem_triple.2 ⟨?_, .inl ?_, heldAs_head (List.mem_singleton_self _)⟩) fun hall => ⟨?_, ?_, hall.head.2⟩
  · rcases hleft with h | h
    · exact .inl (by simp [h])
    · exact .plain (P := fun _ => PlacedDeclaration left) (by simp [h])
  · simp
  · rcases hleft with h | h
    · exact (hall.tail.tail.tail.tail.operand h).item
    · exact PlacedDeclaration.placed (hall.tail.tail.tail.tail _ h).2.2 _
  · exact hall.tail.tail.head.2.2

theorem reads_forRest {marker : Marker} (hmark : Boundary source marker.start) {init : Option Node}
    (hinit : ∀ n ∈ init, .operand marker.start n ∈ held ∨
      .plain marker.start n (fun _ => PlacedDeclaration n) ∈ held) :
    Reads source around marker.start held (forRest reach marker init) (statementAt marker.start) := by
  refine (reads_eat _).then fun _ => (keeps_at _).reads fun _ => ?_
  extract_lets update
  have hupdate : ∀ test : Option Node, Reads source around marker.start
      (optional marker.start test ++ .token marker.start :: held) (update test) (statementAt marker.start) := by
    intro test
    refine (reads_eat _).then fun _ => (keeps_at _).reads fun _ => ?_
    extract_lets close
    have hclose : ∀ update : Option Node, Reads source around marker.start
        (optional marker.start update ++ .token marker.start ::
          (optional marker.start test ++ .token marker.start :: held)) (close update) (statementAt marker.start) := by
      intro update
      refine (reads_eat _).then fun _ => (reads_loopBody hr).bind fun body => ?_
      refine reads_close hmark ⟨.token marker.start, by simp, Nat.le_refl _⟩ (fun c hc => ?_) fun hall => ?_
      · simp only [Kind.children.eq_def, List.mem_append, List.mem_singleton, Option.mem_toList] at hc
        obtain ((hc | hc) | hc) | rfl := hc
        · rcases hinit c hc with h | h
          · exact .inl (by simp [h])
          · exact .plain (P := fun _ => PlacedDeclaration c) (by simp [h])
        · exact .inl (by simp [optional, hc])
        · exact .inl (by simp [optional, hc])
        · exact heldAs_head (List.mem_singleton_self _)
      · obtain ⟨hlast, hall'⟩ := held_append.1 hall.tail.tail
        obtain ⟨htest, hall''⟩ := held_append.1 hall'.tail
        refine ⟨?_, htest.optional, hlast.optional, hall.head.2⟩
        cases init with
        | none => trivial
        | some n =>
          rcases hinit n rfl with h | h
          · exact (hall''.tail.operand h).init
          · exact PlacedDeclaration.init (hall''.tail _ h).2.2
    refine reads_ite (fun _ => hclose none) fun _ => ?_
    exact (reads_some (reads_expression hr)).bind hclose
  refine reads_ite (fun _ => hupdate none) fun _ => ?_
  exact (reads_some (reads_expression hr)).bind hupdate

omit hr in
theorem keeps_checkForInHead (head : Node) : Keeps standing (checkForInHead head) := by
  unfold checkForInHead
  split
  · exact keeps_fail _
  · exact keeps_pure _
  · exact keeps_fail _
  · exact keeps_unexpected

omit hr in
theorem reads_withoutIn {α : Type} {x : Parse α} {parts : α → List Piece} (h : Reads source around lo held x parts) :
    Reads source around lo held (withoutIn x) parts := by
  refine h.between ?_ ?_
  · exact fun _ => rfl
  · exact fun _ => rfl

theorem reads_forStatement : Reads source around lo held (forStatement reach) (statementAt lo) := by
  refine reads_startNode fun marker hmark => (reads_discard reads_advance).then fun _ => ?_
  refine (reads_eat _).then fun _ => keeps_ahead.reads fun token => ?_
  extract_lets declares
  refine (keeps_at _).reads fun _ => reads_ite (fun _ => reads_forRest hr hmark nofun) fun _ => ?_
  clear_value declares
  cases declares with
  | true =>
    refine (reads_withoutIn (reads_variableDeclaration hr true)).bind fun head => keeps_atOf.reads fun _ => ?_
    refine reads_ite (fun _ => reads_unsupported _) fun _ => (keeps_atWord _).reads fun _ => reads_ite (fun _ => ?_) fun _ => ?_
    · exact (keeps_checkForInHead head).reads fun _ => reads_forInRest hr hmark (.inr List.mem_cons_self)
    · refine reads_forRest hr hmark fun n hn => .inr ?_
      cases hn
      exact List.mem_cons_self
  | false =>
    refine (reads_withoutIn (reads_expression hr)).node fun head => keeps_atOf.reads fun _ => ?_
    refine reads_ite (fun _ => reads_unsupported _) fun _ => (keeps_atWord _).reads fun _ => reads_ite (fun _ => ?_) fun _ => ?_
    · exact (reads_assignmentTarget true List.mem_cons_self).node fun left =>
        reads_forInRest hr hmark (.inl List.mem_cons_self)
    · refine reads_forRest hr hmark fun n hn => .inl ?_
      cases hn
      exact List.mem_cons_self

/-! ## 4. Jumps -/

omit hr in
/-- **What the check of a jump lets pass is taken** by a loop, a switch or a label around. -/
theorem checkJump_taken {marker : Marker} {isBreak : Bool} {label : Option String} {p p' : Parser}
    (h : checkJump marker isBreak label p = .ok () p') :
    p.surroundings.Taken (if isBreak then .out label else .on label) := by
  obtain ⟨_, _, hget, h⟩ := bind_ok h
  cases hget
  cases label with
  | some name =>
    dsimp only at h
    cases hlookup : p.labels.reverse.lookup name with
    | none =>
      rw [hlookup] at h
      cases h
    | some isLoop =>
      have hmem : (name, isLoop) ∈ p.labels := by
        obtain ⟨_, _, hlabels, _⟩ := List.lookup_eq_some_iff.1 hlookup
        exact List.mem_reverse.1 (hlabels ▸ by simp)
      rw [hlookup] at h
      cases isBreak with
      | true => exact ⟨isLoop, hmem⟩
      | false =>
        cases isLoop with
        | true => exact hmem
        | false => cases h
  | none =>
    dsimp only at h
    split at h
    · cases h
    · rename_i hpasses
      cases isBreak with
      | true =>
        simp only [Surroundings.Taken.eq_def, surroundings, if_true]
        by_cases hiterations : p.iterations = 0
        · simp [hiterations] at hpasses
          omega
        · omega
      | false =>
        simp [Surroundings.Taken.eq_def, surroundings] at hpasses ⊢
        omega

omit hr in
theorem reads_jumpStatement : Reads source around lo held jumpStatement (statementAt lo) := by
  refine reads_startNode fun marker hmark => reads_advance.then fun token => reads_optionalLabel.bind fun label => ?_
  have hlabel : ∀ c ∈ label.toList,
      .operand marker.start c ∈ optional marker.start label ++ .token marker.start :: held :=
    fun c hc => List.mem_append_left _ (List.mem_map_of_mem hc)
  have hclose : ∀ isBreak : Bool,
      around.Taken (if isBreak then .out (label.bind Node.name?) else .on (label.bind Node.name?)) →
        Reads source around marker.start (optional marker.start label ++ .token marker.start :: held)
          (do
            eatSemicolon
            finish marker (if isBreak then .breakStatement label else .continueStatement label))
          (statementAt marker.start) := by
    intro isBreak htaken
    refine reads_eatSemicolon.skip fun _ => ?_
    have hbehind : ∃ e ∈ optional marker.start label ++ .token marker.start :: held, marker.start ≤ e.lo :=
      ⟨.token marker.start, by simp, Nat.le_refl _⟩
    cases isBreak with
    | true => exact reads_close hmark hbehind (fun c hc => .inl (hlabel c hc)) fun _ => htaken
    | false => exact reads_close hmark hbehind (fun c hc => .inl (hlabel c hc)) fun _ => htaken
  -- what is around is what the check has looked at
  intro p n p' hp haround hlo hheld h
  obtain ⟨_, p₁, hcheck, h⟩ := bind_ok h
  have hstays := hp.follows (keeps_checkJump _ _ _ p _ p₁ hcheck)
  obtain ⟨hp', hmore⟩ := hclose _ (haround ▸ checkJump_taken hcheck) p₁ n p' hstays.sited (hstays.around.trans haround)
    (Nat.le_trans hlo hstays.start_le) (hheld.mono hstays.stop_le) h
  exact ⟨hstays.trans hp', hmore⟩

theorem reads_returnStatement : Reads source around lo held (returnStatement reach) (statementAt lo) := by
  refine reads_startNode fun marker hmark => keeps_get.reads fun p => reads_ite (fun _ => reads_fail _) fun _ => ?_
  refine (reads_discard reads_advance).then fun _ => keeps_get.reads fun p => ?_
  extract_lets ends close
  have hclose : ∀ argument : Option Node, Reads source around marker.start
      (optional marker.start argument ++ .token marker.start :: held) (close argument) (statementAt marker.start) :=
    fun argument => reads_eatSemicolon.skip fun _ =>
      reads_closeFree hmark ⟨.token marker.start, by simp, Nat.le_refl _⟩ (List.subset_append_left _ _) rfl
  exact reads_ite (fun _ => hclose none) fun _ => (reads_some (reads_expression hr)).bind hclose

theorem reads_throwStatement : Reads source around lo held (throwStatement reach) (statementAt lo) := by
  refine reads_startNode fun marker hmark => (reads_discard reads_advance).then fun _ => keeps_get.reads fun p => ?_
  refine reads_ite (fun _ => reads_fail _) fun _ => (reads_expression hr).node fun argument => ?_
  refine reads_eatSemicolon.skip fun _ => reads_closeFree hmark head_behind ?_ rfl
  simp [Kind.children.eq_def, operands]

/-! ## 5. Switches and faults -/

/-- A case is read. -/
def caseAt : Nat → Node → List Piece :=
  plainAt fun n => Node.CasesPlaced [n]

/-- Cases are read. -/
def casesAt (lo : Nat) : List Node → List Piece :=
  fun l => l.map fun n => .plain lo n (Node.CasesPlaced [n])

theorem reads_switchCases : ∀ (fuel : Nat) (hasDefault : Bool) (acc : List Node)
    (held : List Piece), casesAt lo acc ⊆ held →
      Reads source around lo held (switchCases reach fuel hasDefault acc) (casesAt lo)
  | 0, _, _, _, hacc => reads_pure hacc
  | fuel + 1, hasDefault, acc, held, hacc => by
    refine (keeps_at _).reads fun _ => reads_ite (fun _ => reads_pure hacc) fun _ => ?_
    refine reads_start fun marker hmark hle => reads_advance.then fun token => ?_
    extract_lets rest
    have hrest : ∀ (test : Option Node) (isDefault : Bool), Reads source around marker.start
        (optional marker.start test ++ .token marker.start :: held) (rest (test, isDefault)) (casesAt lo) := by
      intro test isDefault
      refine (reads_eat _).then fun _ => (reads_items hr keeps_caseGoesOn).bind fun consequent => ?_
      have hcase : Reads source around marker.start (itemsAt marker.start consequent ++ .token marker.start ::
          (optional marker.start test ++ .token marker.start :: held)) (finish marker (.switchCase test consequent))
          (caseAt marker.start) := by
        refine reads_finishPlain hmark ⟨.token marker.start, by simp, Nat.le_refl _⟩ (fun c hc => ?_) (fun _ => rfl)
          fun hall _ => ?_
        · rcases List.mem_append.1 hc with hc | hc
          · refine HeldAs.covers (.inl ?_)
            exact List.mem_append_right _ (List.mem_cons_of_mem _ (List.mem_append_left _ (List.mem_map_of_mem hc)))
          · exact HeldAs.covers (.statement (List.mem_append_left _ (List.mem_map_of_mem hc)) (.inl hc))
        · obtain ⟨hconsequent, hall⟩ := held_append.1 hall
          exact ⟨(held_append.1 hall.tail).1.optional, hconsequent.items (List.Subset.refl _), trivial⟩
      refine (hcase.lowerPlain hle).bind fun case =>
        Reads.weaken (reads_switchCases fuel _ (case :: acc) _ ?_) hle (List.Subset.refl _)
      refine List.cons_subset.2 ⟨List.mem_cons_self, fun e he => ?_⟩
      exact List.mem_append_right _ (List.mem_append_right _ (List.mem_cons_of_mem _
        (List.mem_append_right _ (List.mem_cons_of_mem _ (hacc he)))))
    split
    · exact (reads_expression hr).node fun test => hrest (some test) false
    · refine reads_ite (fun _ => Reads.bind ?_ fun r => hrest r.1 r.2) fun _ => hrest none true
      exact reads_failAt _ _
    · refine Reads.bind ?_ fun r => hrest r.1 r.2
      exact reads_failAt _ _

/-- The cases of a switch are read. -/
def switchAt (lo : Nat) : List Node → List Piece :=
  fun l => l.map fun n => .plain lo n fun Taken => Node.CasesPlaced [n] (InSwitch Taken)

theorem reads_switchStatement : Reads source around lo held (switchStatement reach) (statementAt lo) := by
  refine reads_startNode fun marker hmark => (reads_discard reads_advance).then fun _ => ?_
  refine (reads_parenthesized hr).node fun discriminant => (reads_eat _).then fun _ => ?_
  have hclose (cases : List Node) : Reads source around marker.start (switchAt marker.start cases ++
      .token marker.start :: .operand marker.start discriminant :: .token marker.start :: held)
      (do eat .rightBrace; finish marker (.switchStatement discriminant cases.reverse)) (statementAt marker.start) := by
    refine (reads_eat _).then fun _ => ?_
    have hmem : ∀ c ∈ cases, Piece.plain marker.start c (fun Taken => Node.CasesPlaced [c] (InSwitch Taken)) ∈
        .token marker.start :: (switchAt marker.start cases ++
          .token marker.start :: .operand marker.start discriminant :: .token marker.start :: held) := fun c hc =>
      List.mem_cons_of_mem _ (List.mem_append_left _ (List.mem_map_of_mem hc))
    refine reads_close hmark head_behind (List.forall_mem_cons.2 ⟨.inl (by simp), fun c hc => ?_⟩) fun hall => ?_
    · exact .plain (hmem c (List.mem_reverse.1 hc))
    · have hdiscriminant := (held_append.1 hall.tail).2.tail.head.2.2
      exact ⟨hdiscriminant, Node.casesPlaced_iff.2 fun c hc => (hall _ (hmem c (List.mem_reverse.1 hc))).2.2⟩
  intro p n p' hp haround hlo hheld h
  have hcases : Reads source around.inSwitch marker.start []
      (do switchCases reach ((← get).lexer.fuel + 1) false []) (casesAt marker.start) :=
    keeps_get.reads fun p => reads_switchCases hr _ _ [] _ (List.nil_subset _)
  refine reads_inside around.inSwitch h hp haround hlo hheld hcases hclose (fun cases q hi _ hgiven => ?_) ⟨rfl, ?_⟩
    fun q hq => ⟨rfl, ?_⟩
  · refine List.forall_mem_map.2 fun c hc => ?_
    obtain ⟨hbetween, hplain, hplaced⟩ := hgiven _ (List.mem_map_of_mem hc)
    rw [Surroundings.taken_inSwitch] at hplaced
    exact ⟨hbetween, hplain, hplaced⟩
  · exact congrArg Surroundings.inSwitch haround
  · exact congrArg (fun around : Surroundings => { around with switches := around.switches - 1 }) hq

/-- A node that declares no function is read where one may be. -/
def optionalPlain (P : Node → (Signal → Prop) → Prop) (lo : Nat) : Option Node → List Piece :=
  fun o => o.toList.map fun n => .plain lo n (P n)

omit hr in
theorem reads_somePlain {y : Parse Node} {P : Node → (Signal → Prop) → Prop} {lo' : Nat}
    (h : Reads source around lo held y (plainAt P lo')) :
    Reads source around lo held (some <$> y) (optionalPlain P lo') :=
  h.map fun _ => List.Subset.refl _

theorem reads_catchClause :
    Reads source around lo held (catchClause reach) (plainAt (fun n => Node.HandlerPlaced (some n)) lo) := by
  refine reads_startPlain fun marker hmark => (reads_discard reads_advance).then fun _ => ?_
  refine (reads_eatIf _).skip fun _ => ?_
  extract_lets rest
  have hrest : ∀ (param : Option Node) (held : List Piece), optional marker.start param ⊆ held →
      Reads source around marker.start held (rest param)
        (plainAt (fun n => Node.HandlerPlaced (some n)) marker.start) := by
    intro param held hparam
    refine (reads_block hr).bind fun body => reads_finishPlain hmark head_behind (fun c hc => HeldAs.covers ?_)
      (fun _ => rfl) fun hall _ => ⟨Node.placed?_iff.2 fun c hc => ?_, hall.head.2.2⟩
    · rcases List.mem_append.1 hc with hc | hc
      · exact .inl (List.mem_append_right _ (hparam (List.mem_map_of_mem hc)))
      · obtain rfl := List.mem_singleton.1 hc
        exact .plain List.mem_cons_self
    · exact hall.tail.operand (hparam (List.mem_map_of_mem hc))
  refine reads_ite (fun _ => ?_) fun _ => hrest none _ (List.nil_subset _)
  refine (hr.bindingTarget _ _).node fun param => (reads_eat _).then fun _ => hrest (some param) _ ?_
  simp [optional]

theorem reads_tryStatement : Reads source around lo held (tryStatement reach) (statementAt lo) := by
  refine reads_startNode fun marker hmark => (reads_discard reads_advance).then fun _ => ?_
  refine (reads_block hr).bind fun body => (keeps_atWord _).reads fun _ => ?_
  extract_lets rest
  have hrest : ∀ handler : Option Node, Reads source around marker.start
      (optionalPlain (fun n => Node.HandlerPlaced (some n)) marker.start handler ++
        (blockAt marker.start body ++ .token marker.start :: held)) (rest handler) (statementAt marker.start) := by
    intro handler
    refine (reads_eatIfWord _).skip fun _ => ?_
    extract_lets close
    have hclose : ∀ finalizer : Option Node, Reads source around marker.start
        (optionalPlain (fun n => n.Placed false) marker.start finalizer ++
          (optionalPlain (fun n => Node.HandlerPlaced (some n)) marker.start handler ++
            (blockAt marker.start body ++ .token marker.start :: held)))
        (close finalizer) (statementAt marker.start) := by
      intro finalizer
      refine reads_ite (fun _ => reads_fail _) fun _ => ?_
      refine reads_close hmark ⟨.token marker.start, by simp, Nat.le_refl _⟩ (fun c hc => ?_) fun hall => ?_
      · simp only [Kind.children.eq_def, List.mem_cons, List.mem_append, List.cons_append] at hc
        obtain rfl | hc | hc := hc
        · exact .plain (List.mem_append_right _ (List.mem_append_right _ List.mem_cons_self))
        · exact .plain (List.mem_append_right _ (List.mem_append_left _ (List.mem_map_of_mem hc)))
        · exact .plain (List.mem_append_left _ (List.mem_map_of_mem hc))
      · obtain ⟨hfinalizer, hall⟩ := held_append.1 hall
        obtain ⟨hhandler, hall⟩ := held_append.1 hall
        refine ⟨hall.head.2.2, ?_, Node.placed?_iff.2 fun c hc => (hfinalizer _ (List.mem_map_of_mem hc)).2.2⟩
        cases handler with
        | none => trivial
        | some handler => exact hhandler.head.2.2
    exact reads_ite (fun _ => (reads_somePlain (reads_block hr)).bind hclose) fun _ => hclose none
  exact reads_ite (fun _ => (reads_somePlain (reads_catchClause hr)).bind hrest) fun _ => hrest none

/-! ## 6. Statements and items -/

/-- **A statement is laid over the text**, and placed with what is around. -/
theorem reads_statement : Reads source around lo held (statement reach) (statementAt lo) := by
  refine reads_startNode fun marker hmark => ?_
  intro p n p' hp haround hlo hheld h
  obtain ⟨token, p₁, ht, h⟩ := bind_ok h
  cases ht
  have hrun {x : Parse Node} (hx : Reads source around marker.start held x (statementAt marker.start))
      (h : x p = .ok n p') : Follows source p p' ∧ Held source around p'.lastStop (statementAt marker.start n) :=
    hx p n p' hp haround hlo hheld h
  generalize hcurrent : p.current = token at h
  split at h
  · exact hrun ((reads_block hr).asNode fun _ h => h) h
  · refine hrun ((reads_discard reads_advance).then fun _ => ?_) h
    exact reads_closeFree hmark head_behind (List.nil_subset _) rfl
  · obtain ⟨hp', hn⟩ := reads_variableStatement hr p n p' hp haround hlo hheld h
    have hn := held_statement.1 hn
    exact ⟨hp', held_statement.2 ⟨hn.1, hn.2.placed_var (variableStatement_isVar h hcurrent) _⟩⟩
  · exact hrun (reads_ifStatement hr) h
  · exact hrun (reads_forStatement hr) h
  · exact hrun (reads_whileStatement hr) h
  · exact hrun (reads_doWhileStatement hr) h
  · exact hrun reads_jumpStatement h
  · exact hrun reads_jumpStatement h
  · exact hrun (reads_returnStatement hr) h
  · exact hrun (reads_withStatement hr) h
  · exact hrun (reads_switchStatement hr) h
  · exact hrun (reads_throwStatement hr) h
  · exact hrun (reads_tryStatement hr) h
  · refine hrun ((reads_discard reads_advance).then fun _ => reads_eatSemicolon.skip fun _ => ?_) h
    exact reads_closeFree hmark head_behind (List.nil_subset _) rfl
  · refine hrun (keeps_get.reads fun p => reads_ite (fun _ => reads_fail _) fun _ => ?_) h
    exact (reads_functionDeclaration hr hmark).also fun _ h => h _ _
  · exact hrun (reads_fail _) h
  · exact hrun (reads_fail _) h
  · exact hrun (reads_fail _) h
  · exact hrun (reads_unsupported _) h
  · exact hrun (reads_unsupported _) h
  · exact hrun (reads_fail _) h
  · exact hrun (reads_expressionOrLabeled hr) h

/-- **An item is laid over the text**, and may be a lexical declaration. -/
theorem reads_item : Reads source around lo held (item reach) (itemAt lo) := by
  refine reads_startNode fun marker hmark => keeps_ahead.reads fun token => ?_
  split
  · exact (reads_functionDeclaration hr hmark).also fun _ h => h _ _
  · exact (reads_classLike hr hmark _).asNode fun _ h => h _ _ fun _ => rfl
  · exact (reads_variableStatement hr).also fun _ h => h.placed _
  · exact (reads_variableStatement hr).also fun _ h => h.placed _
  · exact (hr.statement _ _).also fun _ h => h.item

end

/-! ## 7. Loops are what they seem -/

section

variable {p p' : Parser} {n : Node}

/-- Whether every node that a production gives is a loop. -/
def GivesLoop (x : Parse Node) : Prop :=
  Results x fun n => n.kind.isLoop = true

theorem givesLoop_finish (marker : Marker) {kind : Kind} (h : kind.isLoop = true) : GivesLoop (finish marker kind) := by
  refine results_bind fun p => ?_
  intro p n p' hr
  cases hr
  exact h

theorem results_throw {α : Type} {P : α → Prop} (e : ParseError) : Results (throw e) P := by
  intro p a p' h
  cases h

theorem results_ite {α : Type} {P : α → Prop} {c : Prop} [Decidable c] {x y : Parse α} (hx : Results x P)
    (hy : Results y P) : Results (if c then x else y) P := by
  split
  · exact hx
  · exact hy

theorem givesLoop_whileStatement : GivesLoop (whileStatement reach) :=
  results_bind fun marker => results_bind fun _ => results_bind fun _ => results_bind fun _ =>
    givesLoop_finish marker rfl

theorem givesLoop_doWhileStatement : GivesLoop (doWhileStatement reach) :=
  results_bind fun marker => results_bind fun _ => results_bind fun _ => results_bind fun _ => results_bind fun _ =>
    results_bind fun _ => givesLoop_finish marker rfl

theorem givesLoop_forInRest (marker : Marker) (left : Node) : GivesLoop (forInRest reach marker left) :=
  results_bind fun _ => results_bind fun _ => results_bind fun _ => results_bind fun _ => givesLoop_finish marker rfl

theorem givesLoop_forRest (marker : Marker) (init : Option Node) : GivesLoop (forRest reach marker init) := by
  refine results_bind fun _ => results_bind fun _ => ?_
  extract_lets update
  have hupdate (test : Option Node) : GivesLoop (update test) := by
    refine results_bind fun _ => results_bind fun _ => ?_
    extract_lets close
    have hclose (update : Option Node) : GivesLoop (close update) :=
      results_bind fun _ => results_bind fun _ => givesLoop_finish marker rfl
    exact results_ite (hclose none) (results_bind hclose)
  exact results_ite (hupdate none) (results_bind hupdate)

theorem givesLoop_forStatement : GivesLoop (forStatement reach) := by
  refine results_bind fun marker => results_bind fun _ => results_bind fun _ => results_bind fun token => ?_
  extract_lets declares
  refine results_bind fun _ => results_ite (givesLoop_forRest marker none) (results_bind fun head => ?_)
  refine results_bind fun _ => results_ite (results_bind fun _ => results_throw _) (results_bind fun _ => ?_)
  refine results_ite (results_ite ?_ ?_) (givesLoop_forRest marker _)
  · exact results_bind fun _ => givesLoop_forInRest marker head
  · exact results_bind fun target => givesLoop_forInRest marker target

/-- Where the word of a loop is ahead, a statement is a loop. -/
theorem statement_isLoop {word : Keyword} (hword : word = .forWord ∨ word = .whileWord ∨ word = .doWord)
    (hcurrent : p.current = .keyword word) (h : statement reach p = .ok n p') : n.kind.isLoop = true := by
  obtain ⟨marker, p₁, hm, h⟩ := bind_ok h
  cases hm
  refine ahead_results (c := fun token => token = .keyword word) (P := fun n => n.kind.isLoop = true) ?_ hcurrent h
  rintro _ rfl
  rcases hword with rfl | rfl | rfl
  · exact givesLoop_forStatement
  · exact givesLoop_whileStatement
  · exact givesLoop_doWhileStatement

theorem nested_isLoop {x : Parse Node} (hx : ∀ q, q.current = p.current → ∀ n q', x q = .ok n q' → n.kind.isLoop = true)
    (h : nested x p = .ok n p') :
    n.kind.isLoop = true := by
  obtain ⟨_, _, hget, h⟩ := bind_ok h
  cases hget
  split at h
  · obtain ⟨_, _, _, h⟩ := bind_ok h
    cases h
  · obtain ⟨_, p₁, hmodify, h⟩ := bind_ok h
    cases hmodify
    obtain ⟨a, p₂, ha, h⟩ := bind_ok h
    obtain ⟨_, p₃, hmodify, h⟩ := bind_ok h
    cases hmodify
    cases h
    refine hx _ ?_ _ _ ha
    rfl

end

end GuestScript.Parser

namespace GuestScript

namespace Parser

variable {source : String}

/-! ## 8. Goals -/

/-- **Every goal lays and places its nodes.** -/
theorem reach_laying : ∀ levels, Laying source (reach levels)
  | 0 =>
    { item := fun _ _ => reads_fail _
      statement := fun _ _ => reads_fail _
      loop := fun _ _ h => nomatch h
      assignment := fun _ _ => reads_fail _
      unary := fun _ _ => reads_fail _
      binaryRest := fun _ _ _ _ _ _ _ _ => reads_fail _
      newExpression := fun _ _ => reads_fail _
      leftHandSide := fun _ _ => reads_fail _
      bindingTarget := fun _ _ => reads_fail _ }
  | levels + 1 =>
    have ih := reach_laying levels
    { item := fun _ _ => reads_item ih
      statement := fun _ _ => reads_nested (reads_statement ih)
      loop := fun hword hcurrent h =>
        nested_isLoop (fun _ hq _ _ hrun => statement_isLoop hword (hq.trans hcurrent) hrun) h
      assignment := fun _ _ => reads_nested (reads_assignment ih)
      unary := fun _ _ => reads_nested (reads_unary ih)
      binaryRest := fun _ _ _ hmark _ hleft hlo least => reads_nested (reads_binaryRestFrom ih hmark hlo hleft least)
      newExpression := fun _ _ => reads_nested (reads_newExpression ih)
      leftHandSide := fun _ _ => reads_leftHandSide ih
      bindingTarget := fun _ _ => reads_bindingTarget ih }

/-! ## 9. Programs -/

theorem sited_ofText (modern allowReturn : Bool) : (ofText source modern allowReturn).Sited source where
  lexer := Lexer.at_ofText source
  stop_eq := rfl
  start := boundary_zero
  lastStop := boundary_zero
  lastStop_le := Nat.le_refl 0
  start_le := Nat.le_refl 0

/-- **A whole program is laid over the text**, and placed. It goes on to the end of the token ahead, behind its last
statement. -/
theorem program_laid {reach : Reach} (hr : Laying source reach) {p p' : Parser} {n : Node} (hp : p.Sited source)
    (haround : p.surroundings = .outermost) (h : program reach p = .ok n p') : n.LaidOver source ∧ n.PlacedProgram := by
  obtain ⟨marker, p₁, hm, h⟩ := bind_ok h
  cases hm
  obtain ⟨p₂, p₃, hget, h⟩ := bind_ok h
  cases hget
  have hend : Keeps standing (do pure (← get).current.isEof) := keeps_get.bind fun _ => keeps_pure _
  obtain ⟨body, p₄, hbody, h⟩ := bind_ok h
  obtain ⟨hfollows, hheld⟩ :=
    reads_bodyItems hr hend _ _ [] p body p₄ hp haround (Nat.le_refl _) (List.forall_mem_nil _) hbody
  obtain ⟨p₅, p₆, hget, h⟩ := bind_ok h
  cases hget
  cases h
  have hsited := hfollows.sited
  have hstop : Boundary source p'.currentStop := hsited.stop_eq ▸ hsited.lexer.boundary
  have hbetween : ∀ c ∈ body.reverse, c.Between source p.currentStart p'.currentStop := fun c hc =>
    have hc := hheld _ (List.mem_map_of_mem (List.mem_reverse.1 hc))
    hc.1.mono (Nat.le_refl _) (Nat.le_trans hsited.lastStop_le hsited.start_le)
  refine ⟨.mk hp.start hstop (Nat.le_trans hfollows.start_le hsited.start_le) (fun c hc => (hbetween c hc).laid)
    (fun c hc => ⟨(hbetween c hc).lo_le, (hbetween c hc).le_hi⟩) fun c hc _ => .inl hc, _, rfl, ?_⟩
  rw [← Surroundings.taken_outermost]
  exact hheld.items (itemsAt_reverse body)

end Parser

theorem parse_laid_placed {source : String} {options : ParseOptions} {n : Node} (h : parse source options = .ok n) :
    n.LaidOver source ∧ n.PlacedProgram := by
  unfold parse at h
  split at h
  · cases h
  rename_i modern _
  dsimp only at h
  split at h
  · rename_i hrun
    cases h
    obtain ⟨_, p, hadvance, hprogram⟩ := Parser.bind_ok hrun
    have hread : Parser.Reads source .outermost 0 [] (discard Parser.advance) fun _ => [.token 0] :=
      Parser.reads_discard Parser.reads_advance
    have hfollows := hread _ _ _ (Parser.sited_ofText modern _) rfl (Nat.le_refl 0) (List.forall_mem_nil _) hadvance
    exact Parser.program_laid (Parser.reach_laying _) hfollows.1.sited hfollows.1.around hprogram
  · cases h

/-- **Every program that is parsed is laid over its text.** -/
theorem parse_laid {source : String} {options : ParseOptions} {n : Node} (h : parse source options = .ok n) :
    n.LaidOver source :=
  (parse_laid_placed h).1

/-- **Every program that is parsed is placed.** -/
theorem parse_placed {source : String} {options : ParseOptions} {n : Node} (h : parse source options = .ok n) :
    n.PlacedProgram :=
  (parse_laid_placed h).2

/-! ## 10. The law of spans -/

/-- **Spans nest.** Every node of a parsed program starts and stops between two characters of its text, no later than
the text ends, and its children lie inside it. So it cuts the text into what stands before it, its own text and what
stands after it, and that text is what the messages and the functions of the program show of the node. -/
theorem parse_spans {source : String} {options : ParseOptions} {root : Node} (h : parse source options = .ok root)
    {n : Node} (hn : root.Contains n) :
    n.span.start ≤ n.span.stop ∧ n.span.stop ≤ source.utf8ByteSize ∧
      Boundary source n.span.start ∧ Boundary source n.span.stop ∧
      (∀ c ∈ n.kind.children, n.span.start ≤ c.span.start ∧ c.span.stop ≤ n.span.stop) ∧
      ∃ before text after : String, source = before ++ text ++ after ∧
        before.utf8ByteSize = n.span.start ∧ (before ++ text).utf8ByteSize = n.span.stop ∧
        (n.span.text? (some source) = if text = "" then none else some text) ∧
        (text ≠ "" → n.describe (some source) = text) := by
  have hlaid := (parse_laid h).contains hn
  refine ⟨hlaid.le, hlaid.stop.le_size, hlaid.start, hlaid.stop, hlaid.inside, ?_⟩
  obtain ⟨before, text, after, hsource, hbefore, htext, hslice⟩ := hlaid.text
  refine ⟨before, text, after, hsource, hbefore, htext, hslice, fun hne => ?_⟩
  obtain ⟨kind, span⟩ := n
  have hspan : span.text? (some source) = some text := by rwa [if_neg hne] at hslice
  simp [Node.describe, hspan]

/-- What stands between the parentheses starts behind the first one, and its two bytes of `é` count twice. -/
theorem parse_spans_sequence : ∃ root statement c, parse "(é, b)" {} = .ok root ∧ statement ∈ root.kind.children ∧
    c ∈ statement.kind.children ∧ c.span.start = 1 ∧ c.span.stop = 6 ∧
    Boundary "(é, b)" c.span.start ∧ Boundary "(é, b)" c.span.stop ∧
    ∃ before text after : String, "(é, b)" = before ++ text ++ after ∧
      before.utf8ByteSize = c.span.start ∧ (before ++ text).utf8ByteSize = c.span.stop ∧
      (c.span.text? (some "(é, b)") = if text = "" then none else some text) ∧
      (text ≠ "" → c.describe (some "(é, b)") = text) := by
  have hspan : ((parse "(é, b)" {}).toOption.bind fun root => root.kind.children.head?.bind fun statement =>
      statement.kind.children.head?.map fun c => (c.span.start, c.span.stop)) = some (1, 6) := by
    decide +kernel
  obtain ⟨root, hroot, hspan⟩ := Option.bind_eq_some_iff.1 hspan
  obtain ⟨statement, hstatement, hspan⟩ := Option.bind_eq_some_iff.1 hspan
  obtain ⟨c, hc, hoffsets⟩ := Option.map_eq_some_iff.1 hspan
  cases h : parse "(é, b)" {} with
  | error e => simp [h, Except.toOption] at hroot
  | ok n =>
    obtain rfl : n = root := by simpa [h, Except.toOption] using hroot
    have hmem := List.mem_of_mem_head? hstatement
    have hmem' := List.mem_of_mem_head? hc
    obtain ⟨_, _, hstart, hstop, _, htext⟩ := parse_spans h (.child (.child .self hmem) hmem')
    exact ⟨n, statement, c, rfl, hmem, hmem', (Prod.mk.inj hoffsets).1, (Prod.mk.inj hoffsets).2, hstart, hstop, htext⟩

end GuestScript
