import GuestScript.Proofs.Grammar.Declaration

/-!
# Expressions fit

Given that the goals inside a production are reached soundly, the productions of expressions give code that fits at
the depth at which they run. An operand with its accesses and calls is read at one depth however long it is; what
costs a level is a list, a function, an operator before an operand, or the right side of an operation.
-/

namespace GuestScript.Parser

variable {token : Token} {operator : UnaryOperator} {computed : Bool} {argument : Node} {reach : Reach} {depth : Nat}

/-! ## 1. Operators -/

theorem assignmentOperator_ne_other {operator : AssignmentOperator} (h : assignmentOperator? token = some operator)
    (word : Stray AssignmentOperator.spellings) : operator ≠ .other word := by
  rintro rfl
  unfold assignmentOperator? at h
  split at h <;> cases h

theorem unaryOperator_ne_other (h : unaryOperator? token = some operator) (word : Stray UnaryOperator.spellings) :
    operator ≠ .other word := by
  rintro rfl
  unfold unaryOperator? at h
  split at h <;> cases h

theorem updateOperator_ne_other {operator : UpdateOperator} (h : updateOperator? token = some operator)
    (word : Stray UpdateOperator.spellings) : operator ≠ .other word := by
  rintro rfl
  unfold updateOperator? at h
  split at h <;> cases h

/-- The node of an operator that a token stands for is code, and its operands are its parts. -/
theorem infix_isCode {noIn : Bool} {operator : Infix} {precedence : Nat}
    (h : infix? noIn token = some (operator, precedence)) (left right : Node) :
    (operator.kind left right).isCode ∧ (operator.kind left right).codeParts = [.first left, .first right] := by
  unfold infix? at h
  split at h
  case h_16 =>
    split at h
    · cases h
    · cases h
      exact ⟨rfl, rfl⟩
  all_goals
    cases h
    try exact ⟨rfl, rfl⟩

/-! ## 2. Lists of expressions -/

section

variable (hr : Sound reach) (hdepth : depth ≤ maxNesting)

include hr hdepth

theorem gives_moreExpressions :
    ∀ (fuel : Nat) (acc : List Node), (∀ n ∈ acc, (Part.operand n).Fits depth) →
      Gives depth (moreExpressions reach fuel acc) fun l => ∀ n ∈ l, (Part.operand n).Fits depth
  | 0, _, hacc => gives_pure hacc
  | fuel + 1, acc, hacc => by
    refine (keeps_eatIf _).then fun _ => gives_ite (fun _ => ?_) fun _ => gives_pure hacc
    exact (hr.assignment hdepth).bind fun n hn =>
      gives_moreExpressions fuel (n :: acc) (List.forall_mem_cons.2 ⟨hn, hacc⟩)

/-- **Expressions that commas may join fit.** -/
theorem gives_expression : Gives depth (expression reach) fun n => (Part.expression n).Fits depth := by
  refine keeps_start.then fun marker => (hr.assignment hdepth).bind fun first hfirst => (keeps_at _).then fun _ => ?_
  refine gives_ite (fun _ => keeps_get.then fun p => ?_) fun _ => gives_pure (fits_expression hfirst)
  refine (gives_moreExpressions hr hdepth _ _ (List.forall_mem_singleton.2 hfirst)).bind fun l hl => ?_
  refine gives_finish marker (Node.Fits.of_codeParts hdepth rfl (List.forall_mem_map.2 fun n hn => ?_))
  exact hl n (List.mem_reverse.1 hn)

/-- Whether a node fits in a list of arguments or elements. -/
def FitsElement (depth : Nat) (n : Node) : Prop :=
  n.Fits .argument (depth + 1) ∧ n.Fits .element (depth + 1)

theorem gives_spread :
    Gives depth (do
      let marker ← start
      discard advance
      finish marker (.spreadElement (← reach .assignment))) fun n => FitsElement depth n ∧ n.Fits .property depth := by
  refine keeps_start.then fun marker => (keeps_discard keeps_advance).then fun _ => ?_
  refine (hr.assignment hdepth).bind fun argument h => gives_finish marker fun _ => ?_
  have hdepth' : depth + 1 ≤ maxNesting := h.depth_le
  exact ⟨⟨⟨hdepth', .inl rfl, List.forall_mem_singleton.2 h⟩, ⟨hdepth', .inl rfl, List.forall_mem_singleton.2 h⟩⟩,
    ⟨hdepth, .inl rfl, List.forall_mem_singleton.2 h⟩⟩

theorem gives_spreadOrAssignment : Gives depth (spreadOrAssignment reach) (FitsElement depth) := by
  refine (keeps_at _).then fun _ => gives_ite (fun _ => ?_) fun _ => ?_
  · exact (gives_spread hr hdepth).mono fun _ h => h.1
  · exact (hr.assignment hdepth).mono fun n hn => ⟨Node.Fits.argument hn, Node.Fits.element hn⟩

theorem gives_argumentItems :
    ∀ (fuel : Nat) (acc : List Node), (∀ n ∈ acc, FitsElement depth n) →
      Gives depth (argumentItems reach fuel acc) fun l => ∀ n ∈ l, FitsElement depth n
  | 0, _, hacc => gives_pure hacc
  | fuel + 1, acc, hacc => by
    refine (keeps_at _).then fun _ => gives_ite (fun _ => gives_pure hacc) fun _ => ?_
    refine (gives_spreadOrAssignment hr hdepth).bind fun item hitem => (keeps_eatIf _).then fun _ => ?_
    have hacc' := List.forall_mem_cons.2 ⟨hitem, hacc⟩
    exact gives_ite (fun _ => gives_argumentItems fuel _ hacc') fun _ => gives_pure hacc'

theorem gives_arguments : Gives depth (arguments reach) fun l => ∀ n ∈ l, FitsElement depth n := by
  refine (keeps_eat _).then fun _ => gives_withIn (keeps_get.then fun p => ?_)
  refine (gives_argumentItems hr hdepth _ [] nofun).bind fun l hl => (keeps_eat _).then fun _ => ?_
  exact gives_pure fun n hn => hl n (List.mem_reverse.1 hn)

/-! ## 3. Templates -/

theorem gives_templateParts (tagged : Bool) :
    ∀ (fuel : Nat) (quasis expressions : List Node), (∀ n ∈ expressions, (Part.expression n).Fits depth) →
      Gives depth (templateParts reach tagged fuel quasis expressions) fun parts =>
        ∀ n ∈ parts.2, (Part.expression n).Fits depth
  | 0, _, _, _ => gives_unexpected
  | fuel + 1, quasis, expressions, hacc => by
    refine keeps_start.then fun marker => keeps_advance.then fun token => ?_
    split
    · refine gives_ite (fun _ => gives_failAt _ _) fun _ => ?_
      extract_lets isTail
      refine (keeps_finish marker _).then fun quasi => ?_
      refine gives_ite (fun _ => gives_pure hacc) fun _ => (gives_withIn (gives_expression hr hdepth)).bind fun e he => ?_
      refine (keeps_at _).then fun _ => gives_ite (fun _ => ?_) fun _ => gives_unexpected
      refine (keeps_lex _).then fun token => (keeps_rescan token).then fun _ => ?_
      exact gives_templateParts tagged fuel _ _ (List.forall_mem_cons.2 ⟨he, hacc⟩)
    · exact gives_unexpected

theorem gives_template (tagged : Bool) :
    Gives depth (template reach tagged) fun n => n.Fits .code depth ∧ n.Fits .quasi depth := by
  refine (keeps_requireModern _).then fun _ => keeps_start.then fun marker => keeps_get.then fun p => ?_
  refine (gives_templateParts hr hdepth tagged _ [] [] nofun).bind fun parts h => ?_
  have hparts : ∀ p ∈ parts.2.reverse.map Part.expression, p.Fits depth :=
    List.forall_mem_map.2 fun n hn => h n (List.mem_reverse.1 hn)
  exact gives_finish marker fun _ => ⟨⟨hdepth, .inl rfl, hparts⟩, ⟨hdepth, .inl rfl, hparts⟩⟩

/-! ## 4. Literals of arrays and objects -/

theorem gives_arrayElements :
    ∀ (fuel : Nat) (acc : List (Option Node)), (∀ n, some n ∈ acc → FitsElement depth n) →
      Gives depth (arrayElements reach fuel acc) fun l => ∀ n, some n ∈ l → FitsElement depth n
  | 0, _, hacc => gives_pure hacc
  | fuel + 1, acc, hacc => by
    refine (keeps_at _).then fun _ => gives_ite (fun _ => gives_pure hacc) fun _ => ?_
    refine (keeps_eatIf _).then fun _ => gives_ite (fun _ => ?_) fun _ => ?_
    · exact gives_arrayElements fuel (none :: acc) fun n hn => hacc n (by simpa using hn)
    refine (gives_spreadOrAssignment hr hdepth).bind fun e he => (keeps_eatSeparator _).then fun _ => ?_
    refine gives_arrayElements fuel (some e :: acc) fun n hn => ?_
    cases hn with
    | head => exact he
    | tail _ hn => exact hacc n hn

theorem gives_arrayLiteral : Gives depth (arrayLiteral reach) fun n => n.Fits .code depth := by
  refine keeps_start.then fun marker => (keeps_eat _).then fun _ => ?_
  have helements : Gives depth
      (do
        let elements ← arrayElements reach ((← get).lexer.fuel + 1) []
        eat .rightBracket
        pure elements)
      fun l => ∀ n, some n ∈ l → FitsElement depth n :=
    keeps_get.then fun p => (gives_arrayElements hr hdepth _ [] nofun).bind fun l hl =>
      (keeps_eat _).then fun _ => gives_pure hl
  refine (gives_withIn helements).bind fun l hl => gives_code marker hdepth rfl (List.forall_mem_map.2 fun n hn => ?_)
  exact (hl n (List.mem_reverse.1 (List.reduceOption_mem_iff.1 hn))).2

omit hr hdepth in
/-- A property whose key and value fit, fits; only a value that is written out is charged for. -/
theorem fits_property {key value : Node} {kind : PropertyKind} {method shorthand : Bool}
    (hkey : (Part.key computed key).Fits depth)
    (hvalue : value.Fits (if kind = .init then .named else .code) (depth + if kind = .init ∧ ¬ method ∧ ¬ shorthand then 1 else 0))
    (hdepth : depth ≤ maxNesting) (span : Span) :
    (Node.mk (.property key value kind method shorthand computed) span).Fits .property depth :=
  ⟨hdepth, .inl rfl, forall_mem_pair.2 ⟨hkey, hvalue⟩⟩

theorem gives_plainProperty (marker : Marker) {key : Node} (hkey : (Part.key computed key).Fits depth) :
    Gives depth (plainProperty reach marker key computed) fun n => n.Fits .property depth := by
  refine (keeps_eatIf _).then fun _ => gives_ite (fun _ => ?_) fun _ => ?_
  · refine (hr.assignment hdepth).bind fun value hvalue => gives_finish marker (fits_property hkey ?_ hdepth)
    have hnamed : value.Fits .named (depth + 1) := Node.Fits.code hvalue rfl
    simpa using hnamed
  refine (gives_shorthandName key computed).bind fun name hname => (keeps_eatIf _).then fun _ => ?_
  extract_lets close
  have hclose : ∀ value : Node, value.Fits .named depth → Gives depth (close value) fun n => n.Fits .property depth :=
    fun value hvalue => gives_finish marker (fits_property hkey (by simpa using hvalue) hdepth)
  obtain ⟨kind, span⟩ := key
  obtain ⟨rfl, rfl⟩ := hname
  refine gives_ite (fun _ => ?_) fun _ => hclose _ ⟨hdepth, .inl rfl, nofun⟩
  -- the default value is what is left over, unless the literal turns out to be a pattern
  refine (hr.assignment hdepth).bind fun right hright => ?_
  have hleftover : Gives depth (finish marker (.assignmentPattern (.mk (.identifier name) span) right)) fun n =>
      n.Fits .named depth :=
    gives_finish marker fun _ => ⟨hdepth, .inr rfl,
      forall_mem_pair.2 ⟨fits_name hdepth name span .assign, fits_value hright⟩⟩
  exact hleftover.bind hclose

/-- Where a spread is ahead, it is what is read. -/
theorem gives_spreadProperty {other : Parse Node} (hother : Gives depth other fun n => n.Fits .property depth) :
    Gives depth (do if ← at? .ellipsis then spreadOrAssignment reach else other) fun n => n.Fits .property depth := by
  intro p n p' hp h
  obtain ⟨c, p₁, hc, h⟩ := bind_ok h
  cases hc
  split at h
  · rename_i hmark
    obtain ⟨c, p₂, hc, h⟩ := bind_ok h
    cases hc
    rw [if_pos hmark] at h
    exact ((gives_spread hr hdepth).mono fun _ h => h.2) p n p' hp h
  · exact hother p n p' hp h

theorem gives_objectProperty : Gives depth (objectProperty reach) fun n => n.Fits .property depth := by
  refine keeps_start.then fun marker => gives_spreadProperty hr hdepth ?_
  refine (keeps_at _).then fun _ => gives_ite (fun _ => gives_unsupported _) fun _ => ?_
  refine (gives_propertyKey hr hdepth).bind fun ⟨key, computed⟩ hkey => keeps_afterModifier.then fun _ => ?_
  dsimp -zeta only at hkey ⊢
  extract_lets isModifier close
  refine gives_ite (fun _ => gives_unsupported _) fun _ => ?_
  have hclose : ∀ (kind : PropertyKind) (key : Node) (computed : Bool), (Part.key computed key).Fits depth →
      Gives depth (close (kind, key, computed)) fun n => n.Fits .property depth := by
    intro kind key computed hkey
    refine (keeps_at _).then fun _ => gives_ite (fun _ => ?_) fun _ => gives_plainProperty hr hdepth marker hkey
    refine (gives_method hr hdepth marker).bind fun value hvalue => (keeps_checkAccessor kind value).then fun _ => ?_
    refine gives_finish marker (fits_property hkey ?_ hdepth)
    cases kind with
    | init => exact hvalue.1.code rfl
    | _ => exact hvalue.1
  refine gives_ite (fun _ => ?_) fun _ => hclose _ _ _ hkey
  exact (gives_propertyKey hr hdepth).bind fun ⟨key, computed⟩ hkey => hclose _ _ _ hkey

theorem gives_objectProperties :
    ∀ (fuel : Nat) (acc : List Node), (∀ n ∈ acc, n.Fits .property depth) →
      Gives depth (objectProperties reach fuel acc) fun l => ∀ n ∈ l, n.Fits .property depth
  | 0, _, hacc => gives_pure hacc
  | fuel + 1, acc, hacc => by
    refine (keeps_at _).then fun _ => gives_ite (fun _ => gives_pure hacc) fun _ => ?_
    refine (gives_objectProperty hr hdepth).bind fun n hn => (keeps_eatSeparator _).then fun _ => ?_
    exact gives_objectProperties fuel (n :: acc) (List.forall_mem_cons.2 ⟨hn, hacc⟩)

theorem gives_objectLiteral : Gives depth (objectLiteral reach) fun n => n.Fits .code depth := by
  refine keeps_start.then fun marker => (keeps_eat _).then fun _ => ?_
  have hproperties : Gives depth
      (do
        let properties ← objectProperties reach ((← get).lexer.fuel + 1) []
        eat .rightBrace
        pure properties)
      fun l => ∀ n ∈ l, n.Fits .property depth :=
    keeps_get.then fun p => (gives_objectProperties hr hdepth _ [] nofun).bind fun l hl =>
      (keeps_eat _).then fun _ => gives_pure hl
  refine (gives_withIn hproperties).bind fun l hl => gives_code marker hdepth rfl (List.forall_mem_map.2 fun n hn => ?_)
  exact hl n (List.mem_reverse.1 hn)

/-! ## 5. Parentheses -/

omit hr hdepth in
theorem gives_pattern {n : Node} (h : n.Fits .code depth) :
    Gives depth (pattern n) fun p => p.Fits (.pattern .assign) depth := by
  unfold pattern
  split
  · rename_i p hp
    exact gives_pure (h.toPattern hp)
  · exact gives_throw _

omit hr hdepth in
/-- A literal gives a pattern that takes a value apart. -/
theorem gives_literalPattern {n : Node} (h : n.Fits .code depth)
    (hliteral : (∃ elements, n.kind = .arrayExpression elements) ∨ ∃ properties, n.kind = .objectExpression properties) :
    Gives depth (pattern n) fun p => p.Fits (.pattern .assign) depth ∧ p.kind.isPattern := by
  unfold pattern
  split
  · rename_i p hp
    exact gives_pure ⟨h.toPattern hp, Node.toPattern_isPattern hliteral hp⟩
  · exact gives_throw _

omit hr hdepth in
theorem keeps_forM {α γ : Type} {view : Parser → γ} {f : α → Parse PUnit} (hf : ∀ a, Keeps view (f a)) :
    ∀ l : List α, Keeps view (l.forM f)
  | [] => keeps_pure _
  | a :: l => (hf a).bind fun _ => keeps_forM hf l

omit hr hdepth in
/-- Expressions become parameters, in which the members are left over. -/
theorem gives_parameterPatterns : ∀ {items : List Node}, (∀ n ∈ items, n.Fits .code depth) →
    Gives depth (items.mapM pattern) fun params => ∀ n ∈ params, n.Fits .parameter depth
  | [], _ => gives_pure nofun
  | item :: items, h => by
    obtain ⟨hitem, hitems⟩ := List.forall_mem_cons.1 h
    rw [List.mapM_cons]
    refine (gives_pattern hitem).bind fun p hp => (gives_parameterPatterns hitems).bind fun params hparams => ?_
    exact gives_pure (List.forall_mem_cons.2 ⟨hp.asParameter.parameter, hparams⟩)

/-- Whether what stands between parentheses fits. -/
def FitsParenthesized (depth : Nat) (inner : Parenthesized) : Prop :=
  (∀ n ∈ inner.items, (Part.operand n).Fits depth) ∧ ∀ n ∈ inner.rest, FitsRest depth n

theorem gives_parenthesizedItems :
    ∀ (fuel : Nat) (acc : Parenthesized), FitsParenthesized depth acc →
      Gives depth (parenthesizedItems reach fuel acc) (FitsParenthesized depth)
  | 0, _, hacc => gives_pure hacc
  | fuel + 1, acc, hacc => by
    refine (keeps_at _).then fun _ => gives_ite (fun _ => gives_pure hacc) fun _ => ?_
    refine (keeps_at _).then fun _ => gives_ite (fun _ => ?_) fun _ => ?_
    · refine (gives_restElement hr hdepth).bind fun rest hrest => gives_pure ⟨hacc.1, ?_⟩
      rintro _ ⟨⟩
      exact hrest
    · refine (hr.assignment hdepth).bind fun item hitem => ?_
      have hitems : ∀ n ∈ item :: acc.items, (Part.operand n).Fits depth := List.forall_mem_cons.2 ⟨hitem, hacc.1⟩
      refine (keeps_eatIf _).then fun _ => gives_ite (fun _ => ?_) fun _ => gives_pure ⟨hitems, hacc.2⟩
      exact (keeps_at _).then fun _ => gives_parenthesizedItems fuel _ ⟨hitems, hacc.2⟩

omit hr hdepth in
/-- Expressions that were between parentheses fit as one. -/
theorem fits_sequenceOf (hdepth : depth ≤ maxNesting) {items : List Node} {e : Node}
    (hitems : ∀ n ∈ items, (Part.operand n).Fits depth) (h : sequenceOf items = some e) : e.Fits .code depth := by
  match items with
  | [] => cases h
  | [item] =>
    cases h
    exact Node.Fits.mono (List.forall_mem_singleton.1 hitems) (Nat.le_succ depth)
  | first :: second :: more =>
    cases h
    exact Node.Fits.of_codeParts hdepth rfl (List.forall_mem_map.2 hitems) _

/-- **A parenthesized expression fits, and so does an arrow function.** -/
theorem gives_parenOrArrow : Gives depth (parenOrArrow reach) fun n => n.Fits .code depth := by
  refine keeps_start.then fun marker => (keeps_eat _).then fun _ => ?_
  have hempty : FitsParenthesized depth { items := [], rest := none, trailingComma := false } := ⟨nofun, nofun⟩
  have hinner : Gives depth
      (do
        let inner ←
          parenthesizedItems reach ((← get).lexer.fuel + 1) { items := [], rest := none, trailingComma := false }
        eat .rightParen
        pure inner)
      (FitsParenthesized depth) :=
    keeps_get.then fun p => (gives_parenthesizedItems hr hdepth _ _ hempty).bind fun inner hinner =>
      (keeps_eat _).then fun _ => gives_pure hinner
  refine (gives_withIn hinner).bind fun inner hinner => keeps_get.then fun p => gives_ite (fun _ => ?_) fun _ => ?_
  · have hitems : ∀ n ∈ inner.items.reverse, n.Fits .code depth := fun n hn =>
      Node.Fits.mono (hinner.1 n (List.mem_reverse.1 hn)) (Nat.le_succ depth)
    refine (gives_parameterPatterns hitems).bind fun params hparams => (keeps_forM keeps_checkBinding _).then fun _ => ?_
    refine gives_arrowBody hr hdepth marker (List.forall_mem_append.2 ⟨hparams, fun n hn => ?_⟩)
    exact (hinner.2 n (Option.mem_toList.1 hn)).1
  · refine gives_ite (fun _ => gives_unexpected) fun _ => ?_
    split
    · rename_i e he
      exact gives_pure (fits_sequenceOf hdepth (fun n hn => hinner.1 n (List.mem_reverse.1 hn)) he)
    · exact gives_unexpected

/-! ## 6. Primary expressions -/

omit hr hdepth in
/-- A name is code. -/
theorem gives_name (marker : Marker) (hdepth : depth ≤ maxNesting) (name : String) :
    Gives depth (finish marker (.identifier name)) fun n => n.Fits .code depth :=
  gives_leaf marker hdepth rfl rfl

omit hr hdepth in
theorem gives_literalCode (hdepth : depth ≤ maxNesting) (value : Json) :
    Gives depth (literal value) fun n => n.Fits .code depth := by
  refine (gives_literal value).mono fun n hn => ?_
  obtain ⟨kind, span⟩ := n
  obtain ⟨raw, rfl⟩ := hn
  exact Node.Fits.leaf hdepth rfl rfl span

omit hr hdepth in
theorem gives_regexLiteral (marker : Marker) (hdepth : depth ≤ maxNesting) (taken : String) :
    Gives depth (regexLiteral marker taken) fun n => n.Fits .code depth := by
  refine (keeps_lex _).then fun token => (keeps_rescan token).then fun _ => keeps_advance.then fun token => ?_
  split
  · exact gives_leaf marker hdepth rfl rfl
  · exact gives_unexpected

theorem gives_nameOrArrow (marker : Marker) : Gives depth (nameOrArrow reach marker) fun n => n.Fits .code depth := by
  refine gives_identifier.bind fun id hid => keeps_get.then fun p => ?_
  obtain ⟨kind, span⟩ := id
  obtain ⟨name, rfl⟩ := hid
  extract_lets functionAhead
  refine gives_ite (fun _ => gives_unsupported _) fun _ => gives_ite (fun _ => ?_) fun _ => ?_
  · refine (keeps_checkBinding name).then fun _ => gives_arrowBody hr hdepth marker ?_
    exact List.forall_mem_singleton.2 (fits_name hdepth name span .parameter).parameter
  · exact gives_pure (Node.Fits.leaf hdepth rfl rfl span)

omit hr hdepth in
theorem gives_superWord (marker : Marker) (hdepth : depth ≤ maxNesting) :
    Gives depth (superWord marker) fun n => n.Fits .code depth :=
  (keeps_discard keeps_advance).then fun _ => keeps_get.then fun _ =>
    gives_ite (fun _ => gives_failAt _ _) fun _ => gives_leaf marker hdepth rfl rfl

/-- **A primary expression fits.** -/
theorem gives_primary : Gives depth (primary reach) fun n => n.Fits .code depth := by
  refine keeps_start.then fun marker => keeps_ahead.then fun token => ?_
  have htemplate := (gives_template hr hdepth false).mono fun _ h => h.1
  split
  · exact (keeps_discard keeps_advance).then fun _ => gives_leaf marker hdepth rfl rfl
  · exact gives_superWord marker hdepth
  · exact gives_nameOrArrow hr hdepth marker
  · exact gives_nameOrArrow hr hdepth marker
  · refine gives_ite (fun _ => ?_) fun _ => gives_literalCode hdepth _
    exact (keeps_discard keeps_advance).then fun _ => gives_name marker hdepth _
  · exact gives_literalCode hdepth _
  · exact gives_literalCode hdepth _
  · exact gives_literalCode hdepth _
  · exact gives_regexLiteral marker hdepth _
  · exact gives_regexLiteral marker hdepth _
  · exact htemplate
  · exact htemplate
  · exact gives_parenOrArrow hr hdepth
  · exact gives_arrayLiteral hr hdepth
  · exact gives_objectLiteral hr hdepth
  · exact (gives_function hr hdepth marker _).mono fun _ h => h.1
  · exact (gives_classLike hr hdepth marker _).mono fun _ h => h.1
  · exact gives_unsupported _
  · exact gives_unsupported _
  · exact gives_unexpected

/-! ## 7. Accesses and calls -/

omit hr hdepth in
theorem gives_memberName (hdepth : depth ≤ maxNesting) :
    Gives depth memberName fun n => (Part.key false n).Fits depth := by
  refine (keeps_at _).then fun _ => gives_ite (fun _ => gives_unsupported _) fun _ => keeps_start.then fun marker => ?_
  refine keeps_propertyNameAhead.then fun name => ?_
  cases name with
  | none => exact gives_unexpected
  | some name =>
    refine (keeps_discard keeps_advance).then fun _ => gives_finish marker fun span => ?_
    exact fits_plainKey hdepth (.inl ⟨name, rfl⟩)

omit hr hdepth in
/-- A member fits when its object and its key do. -/
theorem gives_member (marker : Marker) {object key : Node} (hobject : object.Fits .code depth)
    (hkey : (Part.key computed key).Fits depth) (optional : Bool) :
    Gives depth (finish marker (.memberExpression object key computed optional)) fun n => n.Fits .code depth :=
  gives_code marker hobject.depth_le rfl (forall_mem_pair.2 ⟨hobject.code rfl, hkey⟩)

omit hr hdepth in
/-- What stands behind a tag is a template. -/
theorem tagged_isCode {tag quasi : Node} (h : quasi.Fits .quasi depth) :
    (Kind.taggedTemplateExpression tag quasi).isCode := by
  obtain ⟨_, hsuits, _⟩ := h
  obtain ⟨kind, span⟩ := quasi
  cases kind with
  | templateLiteral quasis expressions => rfl
  | _ => exact absurd hsuits nofun

omit hr hdepth in
theorem gives_subscripts (hr : Sound reach) (marker : Marker) (noCalls : Bool) :
    ∀ (fuel : Nat) (e : Node) (chained : Bool), e.Fits .code depth →
      Gives depth (subscripts reach marker noCalls fuel e chained) fun result => result.1.Fits .code depth
  | 0, _, _, he => gives_pure he
  | fuel + 1, e, chained, he => by
    have ih := gives_subscripts hr marker noCalls fuel
    have hdepth := he.depth_le
    refine (keeps_at _).then fun optional => gives_ite (fun _ => gives_fail _) fun _ => ?_
    extract_lets chained' byName otherwise tagged rest
    have hbyName : Gives depth byName fun result => result.1.Fits .code depth :=
      (gives_memberName hdepth).bind fun name hname => (gives_member marker he hname optional).bind fun e' he' =>
        ih e' chained' he'
    have hotherwise : Gives depth otherwise fun result => result.1.Fits .code depth :=
      gives_ite (fun _ => hbyName) fun _ => gives_pure he
    have htagged : Gives depth tagged fun result => result.1.Fits .code depth := by
      refine gives_ite (fun _ => gives_fail _) fun _ => (gives_template hr hdepth true).bind fun quasi hquasi => ?_
      have hparts : ∀ p ∈ (Kind.taggedTemplateExpression e quasi).codeParts, p.Fits depth :=
        forall_mem_pair.2 ⟨he, hquasi.2⟩
      exact (gives_code marker hdepth (tagged_isCode hquasi.2) hparts).bind fun e' he' => ih e' chained' he'
    have hrest : Gives depth (rest ()) fun result => result.1.Fits .code depth := by
      refine keeps_ahead.then fun token => ?_
      split
      · exact gives_ite (fun _ => hotherwise) fun _ => (keeps_discard keeps_advance).then fun _ => hbyName
      · refine (keeps_discard keeps_advance).then fun _ => (gives_withIn (gives_expression hr hdepth)).bind fun key hkey => ?_
        refine (keeps_eat _).then fun _ => (gives_member marker he ?_ optional).bind fun e' he' => ih e' chained' he'
        exact Node.Fits.computedKey hkey
      · refine gives_ite (fun _ => hotherwise) fun _ => (gives_arguments hr hdepth).bind fun args hargs => ?_
        have hparts : ∀ p ∈ (Kind.callExpression e args optional).codeParts, p.Fits depth :=
          List.forall_mem_cons.2 ⟨he.code rfl, List.forall_mem_map.2 fun n hn => (hargs n hn).1⟩
        exact (gives_code marker hdepth rfl hparts).bind fun e' he' => ih e' chained' he'
      · exact gives_ite (fun _ => hotherwise) fun _ => htagged
      · exact gives_ite (fun _ => hotherwise) fun _ => htagged
      · exact hotherwise
    exact gives_ite (fun _ => (keeps_discard keeps_advance).then fun _ => hrest) fun _ => hrest

omit hr hdepth in
theorem gives_withSubscripts (hr : Sound reach) (marker : Marker) {e : Node} (he : e.Fits .code depth)
    (noCalls : Bool) : Gives depth (withSubscripts reach marker e noCalls) fun n => n.Fits .code depth := by
  refine keeps_get.then fun p => (gives_subscripts hr marker noCalls _ e false he).bind fun ⟨e', chained⟩ he' => ?_
  refine gives_ite (fun _ => ?_) fun _ => gives_pure he'
  exact gives_code marker he.depth_le rfl (List.forall_mem_singleton.2 he')

theorem gives_newExpression : Gives depth (newExpression reach) fun n => n.Fits .code depth := by
  refine keeps_start.then fun marker => (keeps_discard keeps_advance).then fun _ => (keeps_at _).then fun _ => ?_
  refine gives_ite (fun _ => gives_fail _) fun _ => keeps_start.then fun calleeMarker => (keeps_atWord _).then fun _ => ?_
  extract_lets rest
  have hrest : ∀ callee : Node, callee.Fits .code depth → Gives depth (rest callee) fun n => n.Fits .code depth := by
    intro callee hcallee
    refine (gives_withSubscripts hr calleeMarker hcallee true).bind fun callee hcallee => (keeps_at _).then fun _ => ?_
    extract_lets close
    have hclose : ∀ args : List Node, (∀ n ∈ args, FitsElement depth n) →
        Gives depth (close args) fun n => n.Fits .code depth := fun args hargs =>
      gives_code marker hdepth rfl
        (List.forall_mem_cons.2 ⟨hcallee, List.forall_mem_map.2 fun n hn => (hargs n hn).1⟩)
    exact gives_ite (fun _ => (gives_arguments hr hdepth).bind hclose) fun _ => hclose [] nofun
  refine gives_ite (fun _ => ?_) fun _ => (gives_primary hr hdepth).bind hrest
  exact (hr.newExpression hdepth).bind fun callee h => hrest callee (Node.Fits.mono h (Nat.le_succ depth))

/-- **A primary expression with its accesses and calls fits.** -/
theorem gives_leftHandSide : Gives depth (leftHandSide reach) fun n => n.Fits .code depth := by
  refine keeps_start.then fun marker => (keeps_atWord _).then fun _ => gives_ite (fun _ => ?_) fun _ => ?_
  · exact (gives_newExpression hr hdepth).bind fun base h => gives_withSubscripts hr marker h false
  · exact (gives_primary hr hdepth).bind fun base h => gives_withSubscripts hr marker h false

/-! ## 8. Operations -/

omit hr hdepth in
/-- What passes the check can be assigned to as a whole. -/
theorem gives_checkSimpleTarget (n : Node) : Gives depth (checkSimpleTarget n) fun _ => n.kind.isSimpleTarget := by
  unfold checkSimpleTarget
  split
  · rename_i name hname
    have htarget : n.kind.isSimpleTarget := hname ▸ rfl
    exact keeps_get.then fun p => gives_ite (fun _ => gives_failAt _ _) fun _ => gives_pure htarget
  · rename_i hmember
    exact gives_pure (hmember ▸ rfl)
  · exact gives_failAt _ _

omit hr hdepth in
/-- The operand of an operator is its part, but for a name that is not read. -/
theorem fits_unary (h : (Part.operand argument).Fits depth) :
    ∀ p ∈ Kind.unaryParts operator argument, p.Fits depth := by
  unfold Kind.unaryParts
  split
  · exact nofun
  · exact nofun
  · rename_i hmember
    exact List.forall_mem_singleton.2 (Node.Fits.simpleTarget h (hmember ▸ rfl))
  · exact List.forall_mem_singleton.2 h

omit hr hdepth in
theorem gives_unaryOperation (marker : Marker) (hdepth : depth ≤ maxNesting)
    (hoperator : unaryOperator? token = some operator) (h : (Part.operand argument).Fits depth) :
    Gives depth (finish marker (.unaryExpression operator true argument)) fun n => n.Fits .code depth := by
  have hcode : (Kind.unaryExpression operator true argument).isCode := by
    cases operator with
    | other name => exact absurd rfl (unaryOperator_ne_other hoperator name)
    | _ => rfl
  exact gives_code marker hdepth hcode (fits_unary h)

omit hr hdepth in
theorem gives_update (marker : Marker) {operator : UpdateOperator} (hoperator : updateOperator? token = some operator)
    (isPrefix : Bool) (h : argument.Fits .code depth) (htarget : argument.kind.isSimpleTarget) :
    Gives depth (finish marker (.updateExpression operator isPrefix argument)) fun n => n.Fits .code depth := by
  have hcode : (Kind.updateExpression operator isPrefix argument).isCode := by
    cases operator with
    | other name => exact absurd rfl (updateOperator_ne_other hoperator name)
    | _ => exact htarget
  exact gives_code marker h.depth_le hcode (List.forall_mem_singleton.2 (h.simpleTarget htarget))

/-- **An operand with its operators fits.** -/
theorem gives_unary : Gives depth (unary reach) fun n => n.Fits .code depth := by
  refine keeps_start.then fun marker => keeps_ahead.then fun token => ?_
  split
  · rename_i operator hoperator
    refine (keeps_discard keeps_advance).then fun _ => (hr.unary hdepth).bind fun argument h => keeps_get.then fun p => ?_
    exact gives_ite (fun _ => gives_failAt _ _) fun _ => gives_unaryOperation marker hdepth hoperator h
  · split
    · rename_i operator hoperator
      refine (keeps_discard keeps_advance).then fun _ => (hr.unary hdepth).bind fun argument h => ?_
      refine (gives_checkSimpleTarget argument).bind fun _ htarget => ?_
      exact gives_update marker hoperator true (Node.Fits.mono h (Nat.le_succ depth)) htarget
    · refine (gives_leftHandSide hr hdepth).bind fun e he => keeps_get.then fun p => ?_
      split
      · rename_i operator hoperator
        refine (gives_checkSimpleTarget e).bind fun _ htarget => (keeps_discard keeps_advance).then fun _ => ?_
        split at hoperator
        · cases hoperator
        · exact gives_update marker hoperator false he htarget
      · exact gives_pure he

/-- **The operators after a left side fit where the left side does.** The right sides are read one level deeper or
at the same depth. -/
theorem gives_binaryRest {depth' : Nat} (hle : depth' ≤ depth) (marker : Marker) :
    ∀ (fuel : Nat) (left : Node) (least : Nat), left.Fits .code depth' →
      Gives depth (binaryRest reach marker fuel left least) fun n => n.Fits .code depth'
  | 0, _, _, hleft => gives_pure hleft
  | fuel + 1, left, least, hleft => by
    refine keeps_get.then fun p => ?_
    split
    · exact gives_pure hleft
    · rename_i operator precedence hinfix
      refine gives_ite (fun _ => gives_pure hleft) fun _ => (keeps_discard keeps_advance).then fun _ => ?_
      refine keeps_start.then fun rightMarker => (gives_unary hr hdepth).bind fun operand hoperand => ?_
      refine (hr.binaryRest hdepth hle rightMarker (hoperand.mono hle) _).bind fun right hright => ?_
      have hnode : Gives depth (finish marker (operator.kind left right)) fun n => n.Fits .code depth' := by
        obtain ⟨hcode, hparts⟩ := infix_isCode hinfix left right
        refine gives_finish marker (Node.Fits.of_codeParts hleft.depth_le hcode ?_)
        exact hparts ▸ forall_mem_pair.2 ⟨hleft, hright⟩
      exact hnode.bind fun left hleft => gives_binaryRest hle marker fuel left least hleft

theorem gives_binaryRestFrom {depth' : Nat} (hle : depth' ≤ depth) (marker : Marker) {left : Node}
    (hleft : left.Fits .code depth') (least : Nat) :
    Gives depth (binaryRestFrom reach marker left least) fun n => n.Fits .code depth' :=
  keeps_get.then fun _ => gives_binaryRest hr hdepth hle marker _ left least hleft

theorem gives_conditional : Gives depth (conditional reach) fun n => n.Fits .code depth := by
  refine keeps_start.then fun marker => (gives_unary hr hdepth).bind fun operand hoperand => ?_
  refine (gives_binaryRestFrom hr hdepth (Nat.le_refl depth) marker hoperand 0).bind fun test htest => ?_
  refine (keeps_eatIf _).then fun _ => gives_ite (fun _ => ?_) fun _ => gives_pure htest
  refine (gives_withIn (hr.assignment hdepth)).bind fun consequent hconsequent => (keeps_eat _).then fun _ => ?_
  refine (hr.assignment hdepth).bind fun alternate halternate => ?_
  exact gives_code marker hdepth rfl (forall_mem_triple.2 ⟨htest, hconsequent, halternate⟩)

omit hr hdepth in
/-- The target of an assignment fits as one; only a plain assignment takes a value apart. -/
theorem gives_assignmentTarget {n : Node} (h : n.Fits .code depth) (allowPattern : Bool) :
    Gives depth (assignmentTarget allowPattern n) fun t =>
      t.Fits (.pattern .assign) depth ∧ (t.kind.isSimpleTarget || (allowPattern && t.kind.isPattern)) := by
  have hsimple : Gives depth (do checkSimpleTarget n; pure n) fun t =>
      t.Fits (.pattern .assign) depth ∧ (t.kind.isSimpleTarget || (allowPattern && t.kind.isPattern)) :=
    (gives_checkSimpleTarget n).bind fun _ htarget => gives_pure ⟨h.simpleTarget htarget, by simp [htarget]⟩
  unfold assignmentTarget
  split
  · rename_i elements hkind
    refine gives_ite (fun hallow => ?_) fun _ => hsimple
    exact (gives_literalPattern h (.inl ⟨elements, hkind⟩)).mono fun t ht => ⟨ht.1, by simp [hallow, ht.2]⟩
  · rename_i properties hkind
    refine gives_ite (fun hallow => ?_) fun _ => hsimple
    exact (gives_literalPattern h (.inr ⟨properties, hkind⟩)).mono fun t ht => ⟨ht.1, by simp [hallow, ht.2]⟩
  · exact hsimple

/-- **An assignment fits, and so does an expression without one.** -/
theorem gives_assignment : Gives depth (assignment reach) fun n => n.Fits .code depth := by
  refine keeps_start.then fun marker => (gives_conditional hr hdepth).bind fun left hleft => (keeps_at _).then fun _ => ?_
  refine gives_ite (fun _ => ?_) fun _ => keeps_ahead.then fun token => ?_
  · split
    · exact gives_ite (fun _ => gives_unsupported _) fun _ => gives_unexpected
    · exact gives_unexpected
  split
  · exact gives_pure hleft
  · rename_i operator hoperator
    refine (gives_assignmentTarget hleft _).bind fun target htarget => (keeps_discard keeps_advance).then fun _ => ?_
    refine (hr.assignment hdepth).bind fun right hright => ?_
    have hcode : (Kind.assignmentExpression operator target right).isCode := by
      cases operator with
      | other name => exact absurd rfl (assignmentOperator_ne_other hoperator name)
      | _ => exact htarget.2
    exact gives_code marker hdepth hcode (forall_mem_pair.2 ⟨htarget.1, fits_value hright⟩)

end

end GuestScript.Parser
