import GuestScript.Proofs.Span.Production

/-!
# Declarations lay their nodes

The productions of property keys, patterns, functions, classes and variables give nodes that lie behind where they
start and before the end of what they take, and that are placed, given that the goals inside them do. A function is
placed wherever it stands: nothing is around where it starts.
-/

namespace GuestScript.Parser

open Signal

variable {α : Type} {x : Parse α} {parts : α → List Piece} {marker : Marker} {kind : Kind} {l : List Node}

variable {source : String} {reach : Reach} {around : Surroundings} {lo : Nat} {held : List Piece}

/-! ## 1. Property keys -/

/-- A key is read. -/
def keyAt (lo : Nat) : Node × Bool → List Piece :=
  fun k => [.operand lo k.1]

section

variable (hr : Laying source reach)

include hr

theorem reads_propertyKey : Reads source around lo held (propertyKey reach) (keyAt lo) := by
  refine reads_start fun marker hmark hlo => keeps_ahead.reads fun token => ?_
  have hliteral : ∀ value, Reads source around marker.start held (do pure (← literal value, false)) (keyAt lo) := fun value =>
    ((reads_literal value).lower hlo).node fun _ => reads_pure (List.subset_append_left _ _)
  split
  · refine (reads_discard reads_advance).then fun _ => ?_
    refine ((reads_withIn (hr.assignment _ _)).lower hlo).node fun key => (reads_eat _).then fun _ => ?_
    exact reads_pure (by simp [keyAt])
  · exact hliteral _
  · exact hliteral _
  · exact reads_unsupported _
  · refine keeps_propertyNameAhead.reads fun name => ?_
    cases name with
    | none => exact reads_unexpected
    | some name =>
      refine (reads_discard reads_advance).then fun _ => ?_
      exact ((reads_leaf hmark head_behind rfl rfl).lower hlo).bind fun _ =>
        reads_pure (List.subset_append_left _ _)

/-! ## 2. Patterns -/

theorem reads_bindingElement : Reads source around lo held (bindingElement reach) (operand lo) := by
  refine reads_startOperand fun marker hmark => (hr.bindingTarget _ _).node fun target => ?_
  refine (reads_eatIf _).skip fun _ => reads_ite (fun _ => ?_) fun _ => reads_pure (by simp [operand])
  refine (reads_withIn (hr.assignment _ _)).node fun right => ?_
  exact reads_node hmark head_behind (by simp [Kind.children.eq_def, operands]) rfl

theorem reads_restElement : Reads source around lo held (restElement reach) (operand lo) := by
  refine reads_startOperand fun marker hmark => (reads_eat _).then fun _ => ?_
  refine (hr.bindingTarget _ _).node fun argument => ?_
  refine (keeps_at _).reads fun _ => reads_ite (fun _ => reads_fail _) fun _ => ?_
  exact reads_node hmark head_behind (by simp [Kind.children.eq_def, operands]) rfl

omit hr in
theorem reads_eatSeparator (close : Punctuator) : Reads source around lo held (eatSeparator close) nothing :=
  (keeps_at _).reads fun _ => reads_ite (fun _ => reads_nothing _) fun _ => (reads_eat _).forget

omit hr in
theorem reads_restList {close : Punctuator} {rest element : Parse Node}
    (hrest : ∀ held, Reads source around lo held rest (operand lo))
    (helement : ∀ held, Reads source around lo held element (operand lo)) :
    ∀ (fuel : Nat) (acc : List Node),
      Reads source around lo (operands lo acc ++ held) (restList close rest element fuel acc) (operands lo)
  | 0, acc => reads_pure (List.subset_append_left _ _)
  | fuel + 1, acc => by
    refine (keeps_at _).reads fun _ => reads_ite (fun _ => reads_pure (List.subset_append_left _ _)) fun _ => ?_
    refine (keeps_at _).reads fun _ => reads_ite (fun _ => ?_) fun _ => ?_
    · exact (hrest _).node fun n => reads_pure (List.cons_subset_cons _ (List.subset_append_left _ _))
    · exact (helement _).node fun n => (reads_eatSeparator close).skip fun _ =>
        reads_restList hrest helement fuel (n :: acc)

/-- The elements of an array pattern or an array literal are read. -/
def elementsAt (lo : Nat) : List (Option Node) → List Piece :=
  fun l => operands lo (l.filterMap id)

theorem reads_arrayPatternElements : ∀ (fuel : Nat) (acc : List (Option Node)),
    Reads source around lo (elementsAt lo acc ++ held) (arrayPatternElements reach fuel acc) (elementsAt lo)
  | 0, acc => reads_pure (List.subset_append_left _ _)
  | fuel + 1, acc => by
    refine (keeps_at _).reads fun _ => reads_ite (fun _ => reads_pure (List.subset_append_left _ _)) fun _ => ?_
    refine (reads_eatIf _).skip fun _ => reads_ite (fun _ => ?_) fun _ => ?_
    · exact reads_arrayPatternElements fuel (none :: acc)
    refine (keeps_at _).reads fun _ => reads_ite (fun _ => ?_) fun _ => ?_
    · exact (reads_restElement hr).node fun n => reads_pure (List.cons_subset_cons _ (List.subset_append_left _ _))
    · exact (reads_bindingElement hr).node fun n => (reads_eatSeparator _).skip fun _ =>
        reads_arrayPatternElements fuel (some n :: acc)

omit hr in
/-- A list that is read in reverse is held when it is turned around. -/
theorem operands_reverse (l : List Node) : operands lo l.reverse ⊆ operands lo l :=
  List.map_subset _ (List.reverse_subset.2 (List.Subset.refl _))

omit hr in
theorem elementsAt_reverse (l : List (Option Node)) : operands lo (l.reverse.filterMap id) ⊆ elementsAt lo l := by
  rw [List.filterMap_reverse]
  exact operands_reverse _

theorem reads_arrayPattern : Reads source around lo held (arrayPattern reach) (operand lo) := by
  refine reads_startOperand fun marker hmark => (reads_eat _).then fun _ => keeps_get.reads fun p => ?_
  refine (reads_arrayPatternElements hr _ []).bind fun elements => (reads_eat _).then fun _ => ?_
  refine reads_node hmark head_behind ?_ rfl
  exact List.subset_cons_of_subset _ (List.subset_append_of_subset_left _ (elementsAt_reverse elements))

omit hr in
theorem keeps_shorthandName (key : Node) (computed : Bool) : Keeps standing (shorthandName key computed) := by
  unfold shorthandName
  split
  · exact keeps_get.bind fun _ => keeps_ite keeps_unexpected (keeps_pure _)
  · exact keeps_unexpected

omit hr in
/-- Where a key is held, so is the name that it stands for. -/
theorem Reads.renamed {lo' : Nat} {key : Node} (name : String) (hkey : .operand lo' key ∈ held)
    (h : Reads source around lo (.operand lo' (.mk (.identifier name) key.span) :: held) x parts) :
    Reads source around lo held x parts := by
  refine h.pre _ fun hi hheld => held_cons.2 ⟨?_, hheld⟩
  obtain ⟨hbetween, _⟩ : key.Between source lo' hi ∧ _ := hheld _ hkey
  exact ⟨⟨hbetween.laid.leaf rfl, hbetween.lo_le, hbetween.le_hi⟩, rfl, trivial⟩

theorem reads_patternProperty : Reads source around lo held (patternProperty reach) (operand lo) := by
  refine reads_startOperand fun marker hmark => (reads_propertyKey hr).bind fun ⟨key, computed⟩ => ?_
  have hclose : ∀ {value : Node} {shorthand computed : Bool} {held : List Piece},
      .operand marker.start key ∈ held → Reads source around marker.start (.operand marker.start value :: held)
        (finish marker (.property key value .init false shorthand computed)) (operand marker.start) := by
    intro value shorthand computed held hkey
    exact reads_node hmark head_behind (by simp [Kind.children.eq_def, operands, hkey]) rfl
  refine (reads_eatIf _).skip fun _ => reads_ite (fun _ => ?_) fun _ => ?_
  · exact (reads_bindingElement hr).node fun value => hclose List.mem_cons_self
  · refine (keeps_shorthandName key computed).reads fun name => (keeps_checkBinding name).reads fun _ => ?_
    refine Reads.renamed name List.mem_cons_self ?_
    refine (reads_eatIf _).skip fun _ => reads_ite (fun _ => ?_) fun _ => hclose List.mem_cons_self
    refine (reads_withIn (hr.assignment _ _)).node fun right => ?_
    have hvalue : Reads source around marker.start
        (.operand marker.start right :: .operand marker.start (.mk (.identifier name) key.span) ::
          .operand marker.start key :: held)
        (finish marker (.assignmentPattern (.mk (.identifier name) key.span) right)) (operand marker.start) :=
      reads_node hmark head_behind (by simp [Kind.children.eq_def, operands]) rfl
    exact hvalue.node fun value => hclose (by simp)

omit hr in
theorem reads_objectRest : Reads source around lo held objectRest (operand lo) := by
  refine reads_startOperand fun marker hmark => (reads_discard reads_advance).then fun _ => ?_
  refine reads_bindingIdentifier.node fun argument => ?_
  exact reads_node hmark head_behind (by simp [Kind.children.eq_def, operands]) rfl

omit hr in
/-- A node over a list of nodes that has been read in reverse. -/
theorem reads_reversed (hmark : Boundary source marker.start) (hchildren : kind.children = l.reverse)
    (hkind : kind.isOperand) (hheld : operands marker.start l ⊆ held)
    (hbehind : ∃ e ∈ held, marker.start ≤ e.lo) :
    Reads source around lo held (finish marker kind) (operand marker.start) :=
  reads_node hmark hbehind (hchildren ▸ List.Subset.trans (operands_reverse l) hheld) hkind

omit hr in
/-- A node over a list of nodes that has been read in reverse, up to a closing mark. -/
theorem reads_bracketed (hmark : Boundary source marker.start) (hchildren : kind.children = l.reverse)
    (hkind : kind.isOperand) :
    Reads source around lo (.token marker.start :: (operands marker.start l ++ held)) (finish marker kind)
      (operand marker.start) :=
  reads_reversed hmark hchildren hkind (List.subset_cons_of_subset _ (List.subset_append_left _ _)) head_behind

theorem reads_objectPattern : Reads source around lo held (objectPattern reach) (operand lo) := by
  refine reads_startOperand fun marker hmark => (reads_eat _).then fun _ => keeps_get.reads fun p => ?_
  refine (reads_restList (fun _ => reads_objectRest) (fun _ => reads_patternProperty hr) _ []).bind fun properties => ?_
  refine (reads_eat _).then fun _ => ?_
  exact reads_bracketed hmark rfl rfl

/-- **A name or a pattern that is bound is laid over the text.** -/
theorem reads_bindingTarget : Reads source around lo held (bindingTarget reach) (operand lo) := by
  refine (keeps_at _).reads fun _ => reads_ite (fun _ => ?_) fun _ => ?_
  · exact (keeps_requireModern _).reads fun _ => reads_arrayPattern hr
  refine (keeps_at _).reads fun _ => reads_ite (fun _ => ?_) fun _ => reads_bindingIdentifier
  exact (keeps_requireModern _).reads fun _ => reads_objectPattern hr

/-! ## 3. Variables -/

omit hr in
theorem keeps_atOf : Keeps standing atOf := by
  refine keeps_ahead.bind fun token => ?_
  split <;> exact keeps_pure _

theorem reads_initializer (kind : VariableKind) (inHead : Bool) (id : Node) :
    Reads source around lo held (initializer reach kind inHead id) (optional lo) := by
  refine (reads_eatIf _).skip fun _ => reads_ite (fun _ => ?_) fun _ => ?_
  · exact (hr.assignment _ _).node fun value => reads_pure (by simp [optional])
  refine (keeps_atWord _).reads fun _ => keeps_atOf.reads fun _ => reads_ite (fun _ => reads_none) fun _ => ?_
  exact reads_ite (fun _ => reads_fail _) fun _ => reads_ite (fun _ => reads_fail _) fun _ => reads_none

theorem reads_declarator (kind : VariableKind) (inHead : Bool) :
    Reads source around lo held (declarator reach kind inHead) (operand lo) := by
  refine reads_startOperand fun marker hmark => (hr.bindingTarget _ _).node fun id => ?_
  refine reads_ite (fun _ => reads_failAt _ _) fun _ => (reads_initializer hr kind inHead id).bind fun init => ?_
  refine reads_node hmark ⟨.operand marker.start id, by simp, Nat.le_refl _⟩ ?_ rfl
  simp [Kind.children.eq_def, operands, optional]

theorem reads_moreDeclarators (kind : VariableKind) (inHead : Bool) :
    ∀ (fuel : Nat) (acc : List Node),
      Reads source around lo (operands lo acc ++ held) (moreDeclarators reach kind inHead fuel acc) (operands lo)
  | 0, _ => reads_pure (List.subset_append_left _ _)
  | fuel + 1, acc => (reads_eatIf _).skip fun _ => reads_ite
    (fun _ => (reads_declarator hr kind inHead).node fun n => reads_moreDeclarators kind inHead fuel (n :: acc))
    fun _ => reads_pure (List.subset_append_left _ _)

/-- Whether a node declares variables that are placed. -/
def PlacedDeclaration (n : Node) : Prop :=
  ∃ ds kind, n.kind = .variableDeclaration ds kind ∧ Node.AllPlaced ds false Nowhere

/-- **A declaration of variables is laid over the text**, and its parts are placed. -/
theorem reads_variableDeclaration (inHead : Bool) :
    Reads source around lo held (variableDeclaration reach inHead) (plainAt (fun n _ => PlacedDeclaration n) lo) := by
  refine reads_startPlain fun marker hmark => keeps_ahead.reads fun token => ?_
  extract_lets rest
  have hrest : ∀ kind, Reads source around marker.start held (rest kind)
      (plainAt (fun n _ => PlacedDeclaration n) marker.start) := by
    intro kind
    unfold rest
    extract_lets declarators
    have hdeclarators : Reads source around marker.start held (declarators ())
        (plainAt (fun n _ => PlacedDeclaration n) marker.start) := by
      refine (reads_discard reads_advance).then fun _ => (reads_declarator hr kind inHead).node fun first => ?_
      refine keeps_get.reads fun p => (reads_moreDeclarators hr kind inHead _ [first]).bind fun ds => ?_
      have hmem : ∀ d ∈ ds.reverse, Piece.operand marker.start d ∈
          operands marker.start ds ++ .operand marker.start first :: .token marker.start :: held := fun d hd =>
        List.mem_append_left _ (List.mem_map_of_mem (List.mem_reverse.1 hd))
      refine reads_finishPlain hmark ⟨.token marker.start, by simp, Nat.le_refl _⟩ ?_ (fun _ => rfl) fun hall _ => ?_
      · exact fun d hd => ⟨_, hmem d hd, Nat.le_refl _, .inl rfl⟩
      · exact ⟨_, kind, rfl, Node.allPlaced_iff.2 fun d hd => hall.operand (hmem d hd)⟩
    exact reads_ite (fun _ => (keeps_requireModern _).reads fun _ => hdeclarators) fun _ => hdeclarators
  split
  · exact hrest .var
  · exact hrest .let
  · exact hrest .const
  · exact keeps_unexpected.reads hrest

/-! ## 4. Functions -/

omit hr in
/-- Where an expression statement is held, so is the directive that it is read as. -/
theorem Reads.directive {lo' : Nat} {e : Node} {text : Option String} (text' : Option String) {span : Span}
    {P : (Signal → Prop) → Prop} (h : Reads source around lo
      (.statement lo' (.mk (.expressionStatement e text') span) P :: held) x parts) :
    Reads source around lo (.statement lo' (.mk (.expressionStatement e text) span) P :: held) x parts := by
  refine h.pre _ fun hi hheld => ?_
  obtain ⟨⟨⟨hlaid, hlo, hhi⟩, hP⟩, hheld⟩ := held_cons.1 hheld
  exact held_cons.2 ⟨⟨⟨hlaid.recast rfl rfl rfl, hlo, hhi⟩, hP⟩, hheld⟩

theorem reads_bodyItems {atEnd : Parse Bool} (hend : Keeps standing atEnd) :
    ∀ (fuel : Nat) (prologue : Bool) (acc : List Node),
      Reads source around lo (itemsAt lo acc ++ held) (bodyItems reach atEnd fuel prologue acc) (itemsAt lo)
  | 0, _, _ => reads_pure (List.subset_append_left _ _)
  | fuel + 1, prologue, acc => by
    have ih := reads_bodyItems hend fuel
    refine hend.reads fun _ => reads_ite (fun _ => reads_pure (List.subset_append_left _ _)) fun _ => ?_
    refine keeps_get.reads fun before => (hr.item _ _).bind fun item => ?_
    dsimp only
    split
    · refine reads_ite (fun _ => ?_) fun _ => ih _ (_ :: acc)
      refine (keeps_sourceSlice _ _).reads fun text => Reads.directive (some text) ?_
      refine reads_ite (fun _ => (keeps_modify ?_).reads fun _ => ih _ (_ :: acc)) fun _ => ih _ (_ :: acc)
      exact fun _ => rfl
    · exact ih _ (item :: acc)

omit hr in
theorem Held.items {hi : Nat} (h : Held source around hi held) (hheld : itemsAt lo l ⊆ held) :
    Node.AllPlaced l true around.Taken :=
  Node.allPlaced_iff.2 fun n hn => h.statement (hheld (List.mem_map.2 ⟨n, hn, rfl⟩))

omit hr in
/-- Items that have been read in reverse are held when they are turned around. -/
theorem itemsAt_reverse (l : List Node) : itemsAt lo l.reverse ⊆ itemsAt lo l :=
  List.map_subset _ (List.reverse_subset.2 (List.Subset.refl _))

omit hr in
/-- **A block over items.** Where they stand, any node may. -/
theorem reads_itemBlock (hmark : Boundary source marker.start) (hbehind : ∃ e ∈ held, marker.start ≤ e.lo)
    (hheld : itemsAt marker.start l ⊆ held) :
    Reads source around lo held (finish marker (.blockStatement l)) (blockAt marker.start) := by
  refine reads_finishPlain hmark hbehind (fun c hc => ?_) (fun _ => rfl) fun hall _ => hall.items hheld
  exact ⟨.statement marker.start c (c.Placed true), hheld (List.mem_map_of_mem hc), Nat.le_refl _, rfl, .inl hc⟩

/-- The body of a function is placed as an expression: nothing is around it. -/
theorem reads_functionBody : Reads source .outermost lo held (functionBody reach) (operand lo) := by
  refine Reads.asOperand (P := fun n => n.Placed false) ?_ fun n hn => by rwa [Surroundings.taken_outermost] at hn
  refine reads_startPlain fun marker hmark => (reads_eat _).then fun _ => keeps_get.reads fun p => ?_
  refine keeps_get.reads fun p' => (reads_bodyItems hr (keeps_at _) _ _ []).bind fun items => ?_
  refine (keeps_modify ?_).reads fun _ => (reads_eat _).then fun _ => ?_
  · exact fun _ => rfl
  · refine reads_itemBlock hmark head_behind (List.Subset.trans (itemsAt_reverse items) ?_)
    exact List.subset_cons_of_subset _ (List.subset_append_left _ _)

theorem reads_parameters : Reads source around lo held (parameters reach) (operands lo) := by
  refine (reads_eat _).then fun _ => keeps_get.reads fun p => ?_
  refine (reads_restList (fun _ => reads_restElement hr) (fun _ => reads_bindingElement hr) _ []).bind fun params => ?_
  refine (reads_eat _).then fun _ => reads_pure ?_
  exact List.Subset.trans (operands_reverse params) (by simp [List.subset_cons_of_subset])

/-- The parts of a node are read. -/
def partsAt (lo : Nat) : Kind → List Piece :=
  fun kind => operands lo kind.children

/-- The parameters and the body of a function are read. -/
def functionAt (lo : Nat) : Kind → List Piece
  | .function _ _ params body _ => operands lo (params ++ [body])
  | _ => []

theorem reads_functionRest (form : FunctionForm) (id : Option Node) :
    Reads source around lo held (functionRest reach form id) (functionAt lo) := by
  refine reads_inFunction ((reads_parameters hr).bind fun params => (reads_functionBody hr).node fun body => ?_) ?_
  · refine reads_pure ?_
    simp only [functionAt, operands, List.map_append, List.append_subset]
    exact ⟨List.subset_cons_of_subset _ (List.subset_append_left _ _), by simp⟩
  · intro kind
    cases kind with
    | function _ _ _ _ _ => exact free_operands _
    | _ => exact List.forall_mem_nil _

omit hr in
theorem results_inFunction {P : α → Prop} (h : Results x P) : Results (inFunction x) P := by
  intro p a p' hrun
  obtain ⟨saved, p₁, _, hrun⟩ := bind_ok hrun
  obtain ⟨_, p₂, _, hrun⟩ := bind_ok hrun
  obtain ⟨b, p₃, hb, hrun⟩ := bind_ok hrun
  obtain ⟨_, p₄, _, hrun⟩ := bind_ok hrun
  cases hrun
  exact h p₂ a p₃ hb

omit hr in
theorem functionRest_isFunction (form : FunctionForm) (id : Option Node) :
    Results (functionRest reach form id) fun kind => ∃ params body, kind = .function form id params body {} := by
  refine results_inFunction (results_bind fun params => results_bind fun body => ?_)
  intro p kind p' h
  cases h
  exact ⟨params, body, rfl⟩

omit hr in
/-- Where a function is closed, its parts are held. -/
theorem functionAt_children {form : FunctionForm} {id : Option Node} {params : List Node} {body : Node}
    {flags : FunctionFlags} (hid : optional lo id ⊆ held) :
    operands lo (Kind.function form id params body flags).children ⊆
      functionAt lo (.function form id params body flags) ++ held := by
  simp only [functionAt, operands, Kind.children.eq_def, List.map_append, List.append_assoc, List.append_subset]
  refine ⟨?_, List.subset_append_left _ _, ?_⟩
  · exact List.subset_append_of_subset_right _ (List.subset_append_of_subset_right _ hid)
  · exact List.subset_append_of_subset_right _ (List.subset_append_left _ _)

/-- A function from its parameters on. It is placed wherever it stands. -/
theorem reads_closeFunction (hmark : Boundary source marker.start) (form : FunctionForm) {id : Option Node}
    (hid : optional marker.start id ⊆ held) (hbehind : ∃ e ∈ held, marker.start ≤ e.lo) :
    Reads source around marker.start held (functionRest reach form id >>= finish marker)
      (nodeAt (fun n _ => ∀ declares Taken, n.Placed declares Taken) marker.start) := by
  refine (reads_functionRest hr form id).known (functionRest_isFunction form id) fun kind hkind => ?_
  obtain ⟨e, he, hle⟩ := hbehind
  obtain ⟨params, body, rfl⟩ := hkind
  exact reads_freeNode hmark ⟨e, List.mem_append_right _ he, hle⟩ (functionAt_children hid) rfl

/-- A function that is no declaration, from its parameters on. -/
theorem reads_closeExpression (hmark : Boundary source marker.start) (form : FunctionForm) (hform : form ≠ .declaration)
    {id : Option Node} (hid : optional marker.start id ⊆ held) (hbehind : ∃ e ∈ held, marker.start ≤ e.lo) :
    Reads source around marker.start held (functionRest reach form id >>= finish marker) (operand marker.start) := by
  refine (reads_functionRest hr form id).known (functionRest_isFunction form id) fun kind hkind => ?_
  obtain ⟨e, he, hle⟩ := hbehind
  obtain ⟨params, body, rfl⟩ := hkind
  refine reads_node hmark ⟨e, List.mem_append_right _ he, hle⟩ (functionAt_children hid) ?_
  exact decide_eq_true hform

omit hr in
/-- A function is read as what it is closed as. -/
theorem reads_function {form : FunctionForm} {parts : Node → List Piece}
    (hclose : ∀ (id : Option Node) (held : List Piece), optional marker.start id ⊆ held →
      (∃ e ∈ held, marker.start ≤ e.lo) →
      Reads source around marker.start held (functionRest reach form id >>= finish marker) parts) :
    Reads source around marker.start held (function reach marker form) parts := by
  refine (reads_eatWord _).then fun _ => (keeps_at _).reads fun _ => reads_ite (fun _ => reads_unsupported _) fun _ => ?_
  have hnamed : ∀ named : Bool, Reads source around marker.start (.token marker.start :: held)
      (do
        let id ← if named then some <$> bindingIdentifier else pure none
        finish marker (← functionRest reach form id)) parts := by
    intro named
    refine reads_ite (fun _ => ?_) fun _ => hclose none _ (List.nil_subset _) head_behind
    refine (reads_some reads_bindingIdentifier).bind fun id => hclose id _ (List.subset_append_left _ _) ?_
    exact ⟨.token marker.start, by simp, Nat.le_refl _⟩
  exact reads_ite (fun _ => hnamed true) fun _ => (keeps_notAt _).reads hnamed

/-- **A declaration of a function is laid over the text.** -/
theorem reads_functionDeclaration (hmark : Boundary source marker.start) :
    Reads source around marker.start held (function reach marker .declaration)
      (nodeAt (fun n _ => ∀ declares Taken, n.Placed declares Taken) marker.start) :=
  reads_function fun _ _ => reads_closeFunction hr hmark .declaration

/-- **A function expression is laid over the text.** -/
theorem reads_functionExpression (hmark : Boundary source marker.start) :
    Reads source around marker.start held (function reach marker .expression) (operand marker.start) :=
  reads_function fun _ _ => reads_closeExpression hr hmark .expression (by decide)

theorem reads_method (hmark : Boundary source marker.start) (hbehind : ∃ e ∈ held, marker.start ≤ e.lo) :
    Reads source around marker.start held (method reach marker) (operand marker.start) :=
  reads_closeExpression hr hmark .expression (by decide) (List.nil_subset _) hbehind

/-- **An arrow function is laid over the text** from its parameters on. -/
theorem reads_arrowBody (hmark : Boundary source marker.start) {params : List Node}
    (hparams : operands marker.start params ⊆ held) :
    Reads source around marker.start held (arrowBody reach marker params) (operand marker.start) := by
  refine (keeps_requireModern _).reads fun _ => (reads_eat _).then fun _ => keeps_get.reads fun p => ?_
  have hbody : Reads source around marker.start (.token marker.start :: held)
      (inFunction do
        if ← at? .leftBrace then pure (← functionBody reach, false)
        else
          modify fun q => { q with noIn := p.noIn }
          pure (← reach .assignment, true))
      fun body => [.operand marker.start body.1] := by
    refine reads_inFunction ((keeps_at _).reads fun _ => reads_ite (fun _ => ?_) fun _ => ?_) fun _ => free_operand _
    · exact (reads_functionBody hr).node fun body => reads_pure (by simp)
    · refine (keeps_modify ?_).reads fun _ => (hr.assignment _ _).node fun body => reads_pure (by simp)
      exact fun _ => rfl
  refine hbody.bind fun body => reads_node hmark head_behind ?_ rfl
  simp only [Kind.children.eq_def, operands, Option.toList_none, List.nil_append, List.map_append, List.append_subset]
  refine ⟨?_, by simp⟩
  exact List.subset_append_of_subset_right _ (List.subset_cons_of_subset _ hparams)

/-! ## 5. Classes -/

/-- The start and the key of a member are read. -/
def headAt (lo : Nat) : MemberHead → List Piece :=
  fun head => [.mark lo head.keyMarker, .operand lo head.key]

omit hr in
/-- Where a key is held that starts at a marker, so is the marker. -/
theorem Reads.marked {lo' : Nat} {keyMarker : Marker} {key : Node} (hmark : Boundary source keyMarker.start)
    (hle : lo' ≤ keyMarker.start) (hkey : .operand keyMarker.start key ∈ held)
    (h : Reads source around lo (.mark lo' keyMarker :: .operand lo' key :: held) x parts) :
    Reads source around lo held x parts := by
  refine h.pre _ fun hi hheld => ?_
  obtain ⟨hbetween, hplain⟩ : key.Between source keyMarker.start hi ∧ _ := hheld _ hkey
  refine held_cons.2 ⟨⟨hmark, hle, hbetween.lo_le_hi⟩, held_cons.2 ⟨⟨hbetween.mono hle (Nat.le_refl _), hplain⟩, hheld⟩⟩

/-- A key is read from where it starts. -/
theorem reads_markedKey {f : Marker → Node × Bool → Parse α}
    (hf : ∀ keyMarker key, Reads source around lo (.mark lo keyMarker :: .operand lo key.1 :: held) (f keyMarker key) parts) :
    Reads source around lo held (start >>= fun keyMarker => propertyKey reach >>= f keyMarker) parts := by
  refine reads_start fun keyMarker hmark hlo => (reads_propertyKey hr).bind fun key => ?_
  refine Reads.marked hmark hlo List.mem_cons_self ((hf keyMarker key).weaken hlo ?_)
  exact List.cons_subset_cons _ (List.cons_subset_cons _ (List.subset_append_right _ _))

theorem reads_memberHead : Reads source around lo held (memberHead reach) (headAt lo) := by
  refine reads_markedKey hr fun keyMarker key => ?_
  obtain ⟨key, computed⟩ := key
  dsimp -zeta only
  refine keeps_afterModifier.reads fun _ => ?_
  extract_lets isStatic rest
  have hrest : ∀ (head : MemberHead) (held : List Piece), headAt lo head ⊆ held →
      Reads source around lo held (rest head) (headAt lo) := by
    intro head held hhead
    refine reads_ite (fun _ => ?_) fun _ => reads_pure hhead
    refine keeps_afterModifier.reads fun _ => reads_ite (fun _ => ?_) fun _ => reads_pure hhead
    refine reads_ite (fun _ => reads_unsupported _) fun _ => ?_
    exact reads_markedKey hr fun keyMarker key => reads_pure (by simp [headAt])
  refine reads_ite (fun _ => ?_) fun _ => hrest _ _ (by simp [headAt])
  refine (keeps_at _).reads fun _ => reads_ite (fun _ => ?_) fun _ => ?_
  · refine Reads.bind ?_ fun head => hrest head _ (List.subset_append_left _ _)
    exact reads_fail _
  · exact reads_markedKey hr fun keyMarker key => hrest _ _ (by simp [headAt])

theorem reads_classMethod (hmark : Boundary source marker.start) {head : MemberHead}
    (hhead : headAt marker.start head ⊆ held) :
    Reads source around marker.start held (classMethod reach marker head) (operand marker.start) := by
  have hkey : Piece.mark marker.start head.keyMarker ∈ held := hhead (by simp [headAt])
  have hvalue : Reads source around marker.start held (method reach head.keyMarker) (operand marker.start) := by
    refine Reads.of_mark hkey fun hstart hle => Reads.raise ⟨_, hkey, Nat.le_refl _⟩ ?_
    exact (reads_method hr hstart ⟨_, hkey, Nat.le_refl _⟩).lower hle
  refine hvalue.node fun value => ?_
  have hclose : ∀ kind : MethodKind, Reads source around marker.start (.operand marker.start value :: held)
      (finish marker (.methodDefinition head.key value kind head.computed head.isStatic)) (operand marker.start) := by
    intro kind
    have hkey : Piece.operand marker.start head.key ∈ held := hhead (by simp [headAt])
    exact reads_node hmark head_behind (by simp [Kind.children.eq_def, operands, hkey]) rfl
  dsimp only
  split
  · refine reads_ite (fun _ => ?_) fun _ => (keeps_checkAccessor _ _).reads fun _ => hclose _
    exact (keeps_failAt _ _).reads hclose
  · exact hclose _

theorem reads_classField (hmark : Boundary source marker.start) {head : MemberHead}
    (hhead : headAt marker.start head ⊆ held) :
    Reads source around marker.start held (classField reach marker head) (operand marker.start) := by
  have hkey : Piece.operand marker.start head.key ∈ held := hhead (by simp [headAt])
  refine reads_ite (fun _ => reads_failAt _ _) fun _ => (reads_eatIf _).skip fun _ => ?_
  extract_lets close
  have hclose : ∀ value : Option Node,
      Reads source around marker.start (optional marker.start value ++ held) (close value) (operand marker.start) := by
    intro value
    refine reads_eatSemicolon.skip fun _ => reads_node hmark ?_ ?_ rfl
    · exact ⟨_, List.mem_append_right _ hkey, Nat.le_refl _⟩
    · simp [Kind.children.eq_def, operands, optional, hkey]
  refine reads_ite (fun _ => ?_) fun _ => hclose none
  exact (reads_some (reads_inFunction (hr.assignment _ _) free_operand)).bind hclose

theorem reads_classMember : Reads source around lo held (classMember reach) (operand lo) := by
  refine reads_startOperand fun marker hmark => (keeps_at _).reads fun _ => reads_ite (fun _ => reads_unsupported _) ?_
  refine fun _ => (reads_memberHead hr).bind fun head => (keeps_at _).reads fun _ => reads_ite (fun _ => ?_) fun _ => ?_
  · exact reads_classMethod hr hmark (List.subset_append_left _ _)
  · exact reads_ite (fun _ => reads_unexpected) fun _ => reads_classField hr hmark (List.subset_append_left _ _)

theorem reads_classMembers : ∀ (fuel : Nat) (hasConstructor : Bool) (acc : List Node),
    Reads source around lo (operands lo acc ++ held) (classMembers reach fuel hasConstructor acc) (operands lo)
  | 0, _, _ => reads_pure (List.subset_append_left _ _)
  | fuel + 1, hasConstructor, acc => by
    have ih := reads_classMembers fuel
    refine (keeps_at _).reads fun _ => reads_ite (fun _ => reads_pure (List.subset_append_left _ _)) fun _ => ?_
    refine (reads_eatIf _).skip fun _ => reads_ite (fun _ => ih _ _) fun _ => ?_
    refine (reads_classMember hr).node fun member => ?_
    exact reads_ite (fun _ => reads_failAt _ _) fun _ => ih _ (member :: acc)

/-- Whether a class is placed: a declaration where lexical declarations may stand, an expression anywhere. -/
def PlacedClass (form : ClassForm) (n : Node) : Prop :=
  ∀ declares Taken, (form = .declaration → declares = true) → n.Placed declares Taken

omit hr in
/-- A class is closed over its name, what it extends and its body. -/
theorem reads_closeClass (hmark : Boundary source marker.start) (form : ClassForm) {id superClass : Option Node}
    {body : Node} (hid : optional marker.start id ⊆ held) (hsuper : optional marker.start superClass ⊆ held)
    (hbody : .operand marker.start body ∈ held) :
    Reads source around lo held (finish marker (.classLike form id superClass body))
      (plainAt (fun n _ => PlacedClass form n) marker.start) := by
  refine reads_finishPlain hmark ⟨_, hbody, Nat.le_refl _⟩ (fun c hc => ?_) (fun _ => rfl)
    fun hall _ declares Taken hdeclares => ⟨hdeclares, Node.placed?_iff.2 fun c hc => ?_, hall.operand hbody⟩
  · refine ⟨.operand marker.start c, ?_, Nat.le_refl _, .inl rfl⟩
    obtain hc | hc := List.mem_append.1 hc
    · exact (List.mem_append.1 hc).elim (fun h => hid (List.mem_map_of_mem h)) fun h => hsuper (List.mem_map_of_mem h)
    · exact List.mem_singleton.1 hc ▸ hbody
  · exact hall.operand (hsuper (List.mem_map_of_mem hc))

/-- **A class is laid over the text**, and placed. -/
theorem reads_classLike (hmark : Boundary source marker.start) (form : ClassForm) :
    Reads source around marker.start held (classLike reach marker form)
      (plainAt (fun n _ => PlacedClass form n) marker.start) := by
  refine (keeps_requireModern _).reads fun _ => (reads_eatWord _).then fun _ => keeps_get.reads fun p => ?_
  refine (keeps_modify ?_).reads fun _ => ?_
  · exact fun _ => rfl
  refine keeps_identifierAhead.reads fun _ => ?_
  extract_lets heritage
  have hheritage : ∀ id, Reads source around marker.start (optional marker.start id ++ .token marker.start :: held)
      (heritage id) (plainAt (fun n _ => PlacedClass form n) marker.start) := by
    intro id
    refine (reads_eatIfWord _).skip fun _ => ?_
    extract_lets members
    have hmembers : ∀ superClass : Option Node, Reads source around marker.start
        (optional marker.start superClass ++ (optional marker.start id ++ .token marker.start :: held))
        (members superClass) (plainAt (fun n _ => PlacedClass form n) marker.start) := by
      intro superClass
      refine reads_start fun bodyMarker hbody hle => (reads_eat _).then fun _ => keeps_get.reads fun _ => ?_
      refine (reads_classMembers hr _ _ []).bind fun list => (reads_eat _).then fun _ => ?_
      refine Reads.lowered (reads_bracketed hbody rfl rfl) hle fun body => ?_
      refine (keeps_modify ?_).reads fun _ => ?_
      · exact fun _ => rfl
      · exact reads_closeClass hmark form (fun e he => by simp [he]) (fun e he => by simp [he]) List.mem_cons_self
    refine reads_ite (fun _ => ?_) fun _ => hmembers none
    exact (reads_some (hr.leftHandSide _ _)).bind hmembers
  refine reads_ite (fun _ => ?_) fun _ => reads_ite (fun _ => ?_) fun _ => hheritage none
  · exact (reads_some reads_bindingIdentifier).bind hheritage
  · refine Reads.bind ?_ hheritage
    exact reads_unexpected

end

end GuestScript.Parser
