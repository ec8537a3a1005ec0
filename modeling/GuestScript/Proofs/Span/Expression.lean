import GuestScript.Proofs.Span.Declaration

/-!
# Expressions lay their nodes

What is made of an expression that turns out to be a pattern stays where the expression is. Given that the goals
inside a production lay and place their nodes, the productions of expressions do, and all of them give operands.
-/

namespace GuestScript.Parser

variable {marker : Marker} {l : List Node}

/-! ## 1. Patterns made of expressions -/

section

variable {source : String} {around : Surroundings} {lo hi : Nat} {kind kind' : Kind} {span : Span}

/-- The children of a node lie inside it; they are operands if no statements stand in the node and they are placed. -/
theorem held_parts (h : (Piece.operand lo (.mk kind span)).Before source around hi) (hitems : kind.items = [])
    (hsubstatements : kind.substatements = []) (hplaced : ∀ c ∈ kind.children, c.IsPlaced) :
    Held source around span.stop (partsAt span.start kind) := by
  refine List.forall_mem_map.2 fun c hc => ?_
  have hinside := h.1.laid.inside c hc
  refine ⟨⟨h.1.laid.children c hc, hinside.1, hinside.2⟩, Bool.eq_false_iff.2 fun hf => ?_, hplaced c hc⟩
  have hplace := h.1.laid.functions c hc hf
  simp [Node.kind, hitems, hsubstatements] at hplace

/-- A node over other parts that lie inside it. -/
theorem before_of_parts (h : (Piece.operand lo (.mk kind span)).Before source around hi)
    (hparts : Held source around span.stop (partsAt span.start kind')) (hkind : kind'.isOperand) :
    (Piece.operand lo (.mk kind' span)).Before source around hi := by
  have hheld : ∀ c ∈ kind'.children, (Piece.operand span.start c).Before source around span.stop := fun c hc =>
    hparts _ (List.mem_map_of_mem hc)
  refine ⟨Node.between_of_children h.1.laid.start h.1.laid.stop h.1.laid.le h.1.lo_le h.1.le_hi ?_ ?_, Kind.plain_of_isOperand hkind _, ?_⟩
  · exact fun c hc => (hheld c hc).1
  · exact fun c hc hf => absurd hf (by simp [(hheld c hc).2.1])
  · exact Kind.placed_of_children (Kind.isFree_of_isOperand hkind) (fun c hc => (hheld c hc).2.2) _ _

end

mutual

/-- **The pattern that is made of an expression lies where the expression does.** -/
theorem toPattern_before {source : String} {around : Surroundings} {hi : Nat} : ∀ {n p : Node} {lo : Nat},
    (Piece.operand lo n).Before source around hi → n.toPattern = .ok p → (Piece.operand lo p).Before source around hi
  | .mk kind span, p, lo, h, hp => by
    cases kind with
    | assignmentExpression operator left right =>
      cases operator with
      | plain =>
        obtain ⟨left', hl, rfl⟩ := except_map_ok hp
        obtain ⟨hleft, hright⟩ := held_cons.1 (held_parts h rfl rfl (forall_mem_pair.2 h.2.2))
        exact before_of_parts h (held_cons.2 ⟨toPattern_before hleft hl, hright⟩) rfl
      | _ => cases hp
    | arrayExpression elements =>
      obtain ⟨elements', he, rfl⟩ := except_map_ok hp
      exact before_of_parts h (elementsToPattern_held (held_parts h rfl rfl (Node.elementsPlaced_iff_filterMap.1 h.2.2)) he) rfl
    | objectExpression properties =>
      obtain ⟨properties', hps, rfl⟩ := except_map_ok hp
      exact before_of_parts h (propertiesToPattern_held (held_parts h rfl rfl (Node.allPlaced_iff.1 h.2.2)) hps) rfl
    | memberExpression object property computed optional =>
      cases optional with
      | false =>
        cases hp
        exact h
      | true => cases hp
    | identifier _ | objectPattern _ | arrayPattern _ | assignmentPattern _ _ | restElement _ =>
      cases hp
      exact h
    | _ => cases hp

theorem elementsToPattern_held {source : String} {around : Surroundings} {hi : Nat} : ∀ {elements elements' : List (Option Node)} {lo : Nat},
    Held source around hi (elementsAt lo elements) → elementsToPattern elements = .ok elements' →
      Held source around hi (elementsAt lo elements')
  | [], _, _, h, hp => by
    cases hp
    exact h
  | none :: rest, _, lo, h, hp => by
    obtain ⟨rest', hr, rfl⟩ := except_map_ok hp
    have hheld : Held source around hi (elementsAt lo rest) := h
    have hrest : Held source around hi (elementsAt lo rest') := elementsToPattern_held hheld hr
    exact hrest
  | some (.mk kind span) :: rest, elements', lo, h, hp => by
    obtain ⟨helement, hrest⟩ := held_cons.1 h
    cases hspread : kind.isSpread with
    | true =>
      cases kind with
      | spreadElement argument =>
        cases rest with
        | nil =>
          obtain ⟨argument', ha, rfl⟩ := except_map_ok hp
          have hargument := (held_parts helement rfl rfl (List.forall_mem_singleton.2 helement.2.2)).head
          have hargument' := toPattern_before (n := argument) hargument ha
          exact held_cons.2 ⟨before_of_parts helement (held_operand.2 hargument') rfl, hrest⟩
        | cons _ _ => cases hp
      | _ => cases hspread
    | false =>
      have hp' : (do pure (some (← (Node.mk kind span).toPattern) :: (← elementsToPattern rest))) = .ok elements' := by
        cases kind with
        | spreadElement argument => cases hspread
        | _ => exact hp
      obtain ⟨element', he, hp'⟩ := except_bind_ok hp'
      obtain ⟨rest', hr, rfl⟩ := except_map_ok hp'
      exact held_cons.2 ⟨toPattern_before helement he, elementsToPattern_held hrest hr⟩

theorem propertiesToPattern_held {source : String} {around : Surroundings} {hi : Nat} : ∀ {properties properties' : List Node} {lo : Nat},
    Held source around hi (operands lo properties) → propertiesToPattern properties = .ok properties' →
      Held source around hi (operands lo properties')
  | [], _, _, h, hp => by
    cases hp
    exact h
  | .mk kind span :: rest, _, lo, h, hp => by
    obtain ⟨hproperty, hrest⟩ := held_cons.1 h
    cases kind with
    | spreadElement argument =>
      cases rest with
      | nil =>
        obtain ⟨argument', ha, rfl⟩ := except_map_ok hp
        have hargument := (held_parts hproperty rfl rfl (List.forall_mem_singleton.2 hproperty.2.2)).head
        have hargument' := toPattern_before (n := argument) hargument ha
        exact held_cons.2 ⟨before_of_parts hproperty (held_operand.2 hargument') rfl, hrest⟩
      | cons _ _ => cases hp
    | property key value kind method shorthand computed =>
      cases kind with
      | init =>
        cases method with
        | false =>
          obtain ⟨value', hv, hp⟩ := except_bind_ok hp
          obtain ⟨rest', hr, rfl⟩ := except_map_ok hp
          obtain ⟨hkey, hvalue⟩ := held_cons.1 (held_parts hproperty rfl rfl (forall_mem_pair.2 hproperty.2.2))
          have hvalue' := toPattern_before (n := value) hvalue.head hv
          refine held_cons.2 ⟨before_of_parts hproperty ?_ rfl, propertiesToPattern_held hrest hr⟩
          exact held_cons.2 ⟨hkey, held_operand.2 hvalue'⟩
        | true => cases hp
      | _ => cases hp
    | _ => cases hp

end

variable {source : String} {reach : Reach} {around : Surroundings} {lo : Nat} {held : List Piece}

theorem reads_pattern {n : Node} {lo' : Nat} (h : .operand lo' n ∈ held) :
    Reads source around lo held (pattern n) (operand lo') := by
  unfold pattern
  split
  · rename_i p hp
    refine Reads.pre [.operand lo' p] (reads_pure (List.Subset.refl _)) fun hi hheld => ?_
    exact held_operand.2 (toPattern_before (hheld _ h) hp)
  · exact reads_throw _

theorem keeps_checkSimpleTarget (n : Node) : Keeps standing (checkSimpleTarget n) := by
  unfold checkSimpleTarget
  split
  · exact keeps_get.bind fun _ => keeps_ite (keeps_failAt _ _) (keeps_pure _)
  · exact keeps_pure _
  · exact keeps_failAt _ _

theorem reads_assignmentTarget {n : Node} {lo' : Nat} (allowPattern : Bool) (h : .operand lo' n ∈ held) :
    Reads source around lo held (assignmentTarget allowPattern n) (operand lo') := by
  have hsimple : Reads source around lo held (do checkSimpleTarget n; pure n) (operand lo') :=
    (keeps_checkSimpleTarget n).reads fun _ => reads_pure (by simpa [operand] using h)
  unfold assignmentTarget
  split
  · exact reads_ite (fun _ => reads_pattern h) fun _ => hsimple
  · exact reads_ite (fun _ => reads_pattern h) fun _ => hsimple
  · exact hsimple

/-! ## 2. Lists of expressions -/

section

variable (hr : Laying source reach)

include hr

theorem reads_moreExpressions : ∀ (fuel : Nat) (acc : List Node),
    Reads source around lo (operands lo acc ++ held) (moreExpressions reach fuel acc) (operands lo)
  | 0, _ => reads_pure (List.subset_append_left _ _)
  | fuel + 1, acc => (reads_eatIf _).skip fun _ => reads_ite
    (fun _ => (hr.assignment _ _).node fun n => reads_moreExpressions fuel (n :: acc))
    fun _ => reads_pure (List.subset_append_left _ _)

/-- **Expressions that commas may join are laid over the text.** -/
theorem reads_expression : Reads source around lo held (expression reach) (operand lo) := by
  refine reads_startOperand fun marker hmark => (hr.assignment _ _).node fun first => (keeps_at _).reads fun _ => ?_
  refine reads_ite (fun _ => keeps_get.reads fun p => ?_) fun _ => reads_pure (by simp [operand])
  refine (reads_moreExpressions hr _ [first]).bind fun l => ?_
  refine reads_reversed hmark rfl rfl (List.subset_append_left _ _) ?_
  exact ⟨.operand marker.start first, by simp [operands], Nat.le_refl _⟩

/-- **A spread, or an expression without a comma, is laid over the text.** -/
theorem reads_spreadOrAssignment : Reads source around lo held (spreadOrAssignment reach) (operand lo) := by
  refine (keeps_at _).reads fun _ => reads_ite (fun _ => ?_) fun _ => hr.assignment _ _
  refine reads_startOperand fun marker hmark => (reads_discard reads_advance).then fun _ => ?_
  refine (hr.assignment _ _).node fun argument => ?_
  exact reads_node hmark head_behind (by simp [Kind.children.eq_def, operands]) rfl

theorem reads_argumentItems : ∀ (fuel : Nat) (acc : List Node),
    Reads source around lo (operands lo acc ++ held) (argumentItems reach fuel acc) (operands lo)
  | 0, _ => reads_pure (List.subset_append_left _ _)
  | fuel + 1, acc => by
    refine (keeps_at _).reads fun _ => reads_ite (fun _ => reads_pure (List.subset_append_left _ _)) fun _ => ?_
    refine (reads_spreadOrAssignment hr).node fun item => (reads_eatIf _).skip fun _ => ?_
    refine reads_ite (fun _ => reads_argumentItems fuel (item :: acc)) fun _ => reads_pure ?_
    exact List.cons_subset_cons _ (List.subset_append_left _ _)

theorem reads_arguments : Reads source around lo held (arguments reach) (operands lo) := by
  refine (reads_eat _).then fun _ => reads_withIn (keeps_get.reads fun p => ?_)
  refine (reads_argumentItems hr _ []).bind fun items => (reads_eat _).then fun _ => reads_pure ?_
  exact List.Subset.trans (operands_reverse items) (List.subset_cons_of_subset _ (List.subset_append_left _ _))

/-! ## 3. Templates -/

/-- The pieces and the substitutions of a template are read, and so is at least one token. -/
def templateAt (lo : Nat) : List Node × List Node → List Piece :=
  fun r => .token lo :: (operands lo r.1 ++ operands lo r.2)

theorem reads_templateParts (tagged : Bool) :
    ∀ (fuel : Nat) (quasis expressions : List Node) (held : List Piece),
      operands lo quasis ⊆ held → operands lo expressions ⊆ held →
        Reads source around lo held (templateParts reach tagged fuel quasis expressions) (templateAt lo)
  | 0, _, _, _, _, _ => reads_unexpected
  | fuel + 1, quasis, expressions, held, hquasis, hexpressions => by
    refine reads_start fun marker hmark hle => reads_advance.then fun token => ?_
    split
    · refine reads_ite (fun _ => reads_failAt _ _) fun _ => ?_
      extract_lets isTail
      refine Reads.lowered (reads_leaf hmark head_behind rfl rfl) hle fun quasi => ?_
      have hquasis : operands lo (quasi :: quasis) ⊆ .operand lo quasi :: .token marker.start :: held :=
        List.cons_subset_cons _ (List.subset_cons_of_subset _ hquasis)
      have hexpressions : operands lo expressions ⊆ .operand lo quasi :: .token marker.start :: held :=
        List.subset_cons_of_subset _ (List.subset_cons_of_subset _ hexpressions)
      refine reads_ite (fun _ => ?_) fun _ => ?_
      · exact Reads.counted head_behind
          (reads_pure (List.cons_subset_cons _ (List.append_subset.2 ⟨hquasis, hexpressions⟩)))
      refine Reads.lowered (reads_withIn (reads_expression hr)) hle fun e => ?_
      refine (keeps_at _).reads fun _ => reads_ite (fun _ => ?_) fun _ => reads_unexpected
      refine reads_rescan (Lexer.moves_templatePiece _ _) fun _ => Reads.weaken ?_ hle (List.Subset.refl _)
      refine reads_templateParts tagged fuel _ _ _ (List.subset_cons_of_subset _ hquasis) ?_
      exact List.cons_subset_cons _ hexpressions
    · exact reads_unexpected

/-- **A template is laid over the text.** -/
theorem reads_template (tagged : Bool) : Reads source around lo held (template reach tagged) (operand lo) := by
  refine (keeps_requireModern _).reads fun _ => reads_startOperand fun marker hmark => keeps_get.reads fun p => ?_
  refine (reads_templateParts hr tagged _ [] [] _ (List.nil_subset _) (List.nil_subset _)).bind fun r => ?_
  refine reads_node hmark head_behind (List.subset_cons_of_subset _ ?_) rfl
  refine List.subset_append_of_subset_left _ ?_
  simp only [Kind.children.eq_def, operands, List.map_append]
  exact List.append_subset.2 ⟨List.subset_append_of_subset_left _ (operands_reverse _),
    List.subset_append_of_subset_right _ (operands_reverse _)⟩

/-! ## 4. Literals of arrays and objects -/

theorem reads_arrayElements : ∀ (fuel : Nat) (acc : List (Option Node)),
    Reads source around lo (elementsAt lo acc ++ held) (arrayElements reach fuel acc) (elementsAt lo)
  | 0, acc => reads_pure (List.subset_append_left _ _)
  | fuel + 1, acc => by
    refine (keeps_at _).reads fun _ => reads_ite (fun _ => reads_pure (List.subset_append_left _ _)) fun _ => ?_
    refine (reads_eatIf _).skip fun _ => reads_ite (fun _ => ?_) fun _ => ?_
    · exact reads_arrayElements fuel (none :: acc)
    · exact (reads_spreadOrAssignment hr).node fun e => (reads_eatSeparator _).skip fun _ =>
        reads_arrayElements fuel (some e :: acc)

theorem reads_arrayLiteral : Reads source around lo held (arrayLiteral reach) (operand lo) := by
  refine reads_startOperand fun marker hmark => (reads_eat _).then fun _ => ?_
  have helements : Reads source around marker.start (.token marker.start :: held)
      (do
        let elements ← arrayElements reach ((← get).lexer.fuel + 1) []
        eat .rightBracket
        pure elements)
      (elementsAt marker.start) :=
    keeps_get.reads fun p => (reads_arrayElements hr _ []).bind fun elements => (reads_eat _).then fun _ =>
      reads_pure (List.subset_cons_of_subset _ (List.subset_append_left _ _))
  refine (reads_withIn helements).bind fun elements => ?_
  refine reads_node hmark ⟨.token marker.start, by simp, Nat.le_refl _⟩ ?_ rfl
  exact List.subset_append_of_subset_left _ (elementsAt_reverse elements)

theorem reads_plainProperty (hmark : Boundary source marker.start) {key : Node} {computed : Bool}
    (hkey : .operand marker.start key ∈ held) :
    Reads source around marker.start held (plainProperty reach marker key computed) (operand marker.start) := by
  have hclose : ∀ {value : Node} {shorthand : Bool} {held : List Piece},
      .operand marker.start key ∈ held → Reads source around marker.start (.operand marker.start value :: held)
        (finish marker (.property key value .init false shorthand computed)) (operand marker.start) := by
    intro value shorthand held hkey
    exact reads_node hmark head_behind (by simp [Kind.children.eq_def, operands, hkey]) rfl
  refine (reads_eatIf _).skip fun _ => reads_ite (fun _ => ?_) fun _ => ?_
  · exact (hr.assignment _ _).node fun value => hclose hkey
  refine (keeps_shorthandName key computed).reads fun name => (reads_eatIf _).skip fun _ => reads_ite (fun _ => ?_) ?_
  · refine (hr.assignment _ _).node fun right => ?_
    refine (reads_node hmark head_behind ?_ rfl).node fun value => hclose ?_
    · simp [Kind.children.eq_def, operands, hkey]
    · exact List.mem_cons_of_mem _ hkey
  · exact fun _ => Reads.renamed name hkey (hclose hkey)

theorem reads_objectProperty : Reads source around lo held (objectProperty reach) (operand lo) := by
  refine reads_startOperand fun marker hmark => (keeps_at _).reads fun _ => reads_ite (fun _ => ?_) fun _ => ?_
  · exact reads_spreadOrAssignment hr
  refine (keeps_at _).reads fun _ => reads_ite (fun _ => reads_unsupported _) fun _ => ?_
  refine (reads_propertyKey hr).bind fun ⟨key, computed⟩ => keeps_afterModifier.reads fun _ => ?_
  dsimp -zeta only
  extract_lets isModifier rest
  refine reads_ite (fun _ => reads_unsupported _) fun _ => ?_
  have hrest : ∀ (kind : PropertyKind) (key : Node) (computed : Bool) (held : List Piece),
      .operand marker.start key ∈ held →
        Reads source around marker.start held (rest (kind, key, computed)) (operand marker.start) := by
    intro kind key computed held hkey
    refine (keeps_at _).reads fun isMethod => reads_ite (fun _ => ?_) fun _ => reads_plainProperty hr hmark hkey
    refine (reads_method hr hmark ⟨_, hkey, Nat.le_refl _⟩).node fun value => (keeps_checkAccessor _ _).reads fun _ => ?_
    exact reads_node hmark head_behind (by simp [Kind.children.eq_def, operands, hkey]) rfl
  refine reads_ite (fun _ => ?_) fun _ => ?_
  · exact (reads_propertyKey hr).bind fun ⟨key, computed⟩ => hrest _ _ _ _ List.mem_cons_self
  · exact hrest _ _ _ _ List.mem_cons_self

theorem reads_objectProperties : ∀ (fuel : Nat) (acc : List Node),
    Reads source around lo (operands lo acc ++ held) (objectProperties reach fuel acc) (operands lo)
  | 0, _ => reads_pure (List.subset_append_left _ _)
  | fuel + 1, acc => by
    refine (keeps_at _).reads fun _ => reads_ite (fun _ => reads_pure (List.subset_append_left _ _)) fun _ => ?_
    exact (reads_objectProperty hr).node fun n => (reads_eatSeparator _).skip fun _ =>
      reads_objectProperties fuel (n :: acc)

theorem reads_objectLiteral : Reads source around lo held (objectLiteral reach) (operand lo) := by
  refine reads_startOperand fun marker hmark => (reads_eat _).then fun _ => ?_
  have hproperties : Reads source around marker.start (.token marker.start :: held)
      (do
        let properties ← objectProperties reach ((← get).lexer.fuel + 1) []
        eat .rightBrace
        pure properties)
      (operands marker.start) :=
    keeps_get.reads fun p => (reads_objectProperties hr _ []).bind fun properties => (reads_eat _).then fun _ =>
      reads_pure (List.subset_cons_of_subset _ (List.subset_append_left _ _))
  refine (reads_withIn hproperties).bind fun properties => ?_
  refine reads_reversed hmark rfl rfl (List.subset_append_left _ _) ?_
  exact ⟨.token marker.start, by simp, Nat.le_refl _⟩

/-! ## 5. Parentheses -/

/-- Where the next of some nodes lies that are read one behind the other. -/
def nextStart (lo : Nat) : List Node → Nat
  | [] => lo
  | prev :: _ => prev.span.stop

/-- Nodes are read one behind the other, and held in reverse. -/
def chain (lo : Nat) : List Node → List Piece
  | [] => []
  | item :: rest => .operand (nextStart lo rest) item :: chain lo rest

omit hr in
/-- What is read next lies behind what has been read. -/
theorem Reads.chained {α : Type} {x : Parse α} {parts : α → List Piece} (hl : chain lo l ⊆ held)
    (h : Reads source around (nextStart lo l) held x parts) : Reads source around lo held x parts := by
  cases l with
  | nil => exact h
  | cons item rest => exact Reads.behind (hl List.mem_cons_self) h

omit hr in
/-- Nodes that are read one behind the other lie from the start of the first to the end of the last. -/
theorem held_chain {hi : Nat} : ∀ {item : Node} {rest : List Node}, Held source around hi (chain lo (item :: rest)) →
    Held source around item.span.stop (operands ((item :: rest).getLast (List.cons_ne_nil _ _)).span.start (item :: rest)) ∧
      lo ≤ ((item :: rest).getLast (List.cons_ne_nil _ _)).span.start ∧ item.span.stop ≤ hi
  | item, [], h => by
    obtain ⟨hbetween, hplain⟩ := held_operand.1 h
    exact ⟨held_operand.2 ⟨⟨hbetween.laid, Nat.le_refl _, Nat.le_refl _⟩, hplain⟩, hbetween.lo_le, hbetween.le_hi⟩
  | item, prev :: rest, h => by
    obtain ⟨⟨hbetween, hplain⟩, hrest⟩ := held_cons.1 h
    obtain ⟨hheld, hlo, _⟩ := held_chain hrest
    have hprev : prev.Between source _ prev.span.stop := (held_cons.1 hheld).1.1
    have hnext : prev.span.stop ≤ item.span.start := hbetween.lo_le
    refine ⟨held_cons.2 ⟨⟨⟨hbetween.laid, ?_, Nat.le_refl _⟩, hplain⟩, ?_⟩, hlo, hbetween.le_hi⟩
    · exact Nat.le_trans hprev.lo_le_hi hnext
    · exact hheld.mono (Nat.le_trans hnext hbetween.laid.le)

omit hr in
theorem held_operands_of_chain {hi : Nat} (h : Held source around hi (chain lo l)) : Held source around hi (operands lo l) := by
  cases l with
  | nil => exact h
  | cons item rest =>
    obtain ⟨hheld, hlo, hhi⟩ := held_chain h
    refine List.forall_mem_map.2 fun n hn => ?_
    obtain ⟨hbetween, hplain⟩ : n.Between source _ _ ∧ _ := hheld _ (List.mem_map_of_mem hn)
    exact ⟨hbetween.mono hlo hhi, hplain⟩

omit hr in
/-- Several expressions become one from the start of the first to the end of the last. -/
theorem sequenceOf_some {items : List Node} {e : Node} (h : sequenceOf items = some e) :
    items = [e] ∨ ∃ first last loc, items.head? = some first ∧ items.getLast? = some last ∧
      e = .mk (.sequenceExpression items) { start := first.span.start, stop := last.span.stop, loc := loc } := by
  cases items with
  | nil => cases h
  | cons first more =>
    cases more with
    | nil =>
      cases h
      exact .inl rfl
    | cons second more =>
      cases h
      refine .inr ⟨first, _, _, rfl, ?_, rfl⟩
      rw [List.getLast?_cons]

omit hr in
/-- What stood between parentheses, as one expression, lies where its parts do. -/
theorem sequenceOf_before {hi : Nat} {e : Node} (h : Held source around hi (chain lo l)) (he : sequenceOf l.reverse = some e) :
    (Piece.operand lo e).Before source around hi := by
  rcases sequenceOf_some he with hone | ⟨first, last, loc, hfirst, hlast, rfl⟩
  · obtain rfl : l = [e] := by simpa using congrArg List.reverse hone
    exact held_operand.1 h
  · cases l with
    | nil => cases hfirst
    | cons item rest =>
      obtain ⟨hheld, hlo, hhi⟩ := held_chain h
      rw [List.head?_reverse, List.getLast?_eq_getLast_of_ne_nil (List.cons_ne_nil _ _)] at hfirst
      rw [List.getLast?_reverse] at hlast
      cases hfirst
      obtain rfl : item = last := Option.some.inj hlast
      have hparts : ∀ c ∈ item :: rest, (Piece.operand _ c).Before source around item.span.stop := fun c hc =>
        hheld _ (List.mem_map_of_mem hc)
      have hfirst := (hparts _ (List.getLast_mem (List.cons_ne_nil item rest))).1
      have hlast := (hparts item List.mem_cons_self).1
      refine ⟨Node.between_of_children hfirst.laid.start hlast.laid.stop hlast.lo_le_hi hlo hhi ?_ ?_, rfl, ?_⟩
      · exact fun c hc => (hparts c (List.mem_reverse.1 hc)).1
      · exact fun c hc hf => absurd hf (by simp [(hparts c (List.mem_reverse.1 hc)).2.1])
      · exact Node.allPlaced_iff.2 fun c hc => (hparts c (List.mem_reverse.1 hc)).2.2

/-- The items between parentheses are read one behind the other. -/
def parenthesizedAt (lo : Nat) : Parenthesized → List Piece :=
  fun inner => chain lo inner.items ++ optional lo inner.rest

theorem reads_parenthesizedItems :
    ∀ (fuel : Nat) (acc : Parenthesized) (held : List Piece), parenthesizedAt lo acc ⊆ held →
      Reads source around lo held (parenthesizedItems reach fuel acc) (parenthesizedAt lo)
  | 0, _, _, hacc => reads_pure hacc
  | fuel + 1, acc, held, hacc => by
    obtain ⟨hitems, hrest⟩ := List.append_subset.1 hacc
    refine (keeps_at _).reads fun _ => reads_ite (fun _ => reads_pure hacc) fun _ => ?_
    refine (keeps_at _).reads fun _ => reads_ite (fun _ => ?_) fun _ => ?_
    · refine (reads_restElement hr).node fun rest => reads_pure (List.append_subset.2 ⟨?_, ?_⟩)
      · exact List.subset_cons_of_subset _ hitems
      · exact List.cons_subset_cons _ (List.nil_subset _)
    · have hitem : Reads source around lo held (reach .assignment) (operand (nextStart lo acc.items)) :=
        Reads.chained hitems (hr.assignment _ _)
      refine hitem.node fun item => ?_
      have hacc' : ∀ trailing, parenthesizedAt lo { acc with items := item :: acc.items, trailingComma := trailing } ⊆
          .operand (nextStart lo acc.items) item :: held := fun _ => List.cons_subset_cons _ hacc
      refine (reads_eatIf _).skip fun _ => reads_ite (fun _ => ?_) fun _ => reads_pure (hacc' _)
      exact (keeps_at _).reads fun trailing => reads_parenthesizedItems fuel _ _ (hacc' trailing)

omit hr in
/-- Expressions become parameters where they are. -/
theorem reads_parameterPatterns {lo' : Nat} : ∀ {items : List Node} {held : List Piece}, operands lo' items ⊆ held →
    Reads source around lo held (items.mapM pattern) (operands lo')
  | [], _, _ => reads_pure (List.nil_subset _)
  | item :: items, held, h => by
    obtain ⟨hitem, hitems⟩ := List.cons_subset.1 h
    rw [List.mapM_cons]
    refine (reads_pattern hitem).node fun p => ?_
    refine (reads_parameterPatterns (List.subset_cons_of_subset _ hitems)).bind fun params => reads_pure ?_
    exact List.cons_subset.2 ⟨by simp, List.subset_append_left _ _⟩

/-- **A parenthesized expression is laid over the text, and so is an arrow function.** -/
theorem reads_parenOrArrow : Reads source around lo held (parenOrArrow reach) (operand lo) := by
  refine reads_startOperand fun marker hmark => (reads_eat _).then fun _ => ?_
  have hinner : Reads source around marker.start (.token marker.start :: held)
      (do
        let inner ←
          parenthesizedItems reach ((← get).lexer.fuel + 1) { items := [], rest := none, trailingComma := false }
        eat .rightParen
        pure inner)
      (parenthesizedAt marker.start) :=
    keeps_get.reads fun p => (reads_parenthesizedItems hr _ _ _ (List.nil_subset _)).bind fun inner =>
      (reads_eat _).then fun _ => reads_pure (List.subset_cons_of_subset _ (List.subset_append_left _ _))
  refine (reads_withIn hinner).bind fun inner => keeps_get.reads fun p => reads_ite (fun _ => ?_) fun _ => ?_
  · refine Reads.pre (operands marker.start inner.items.reverse ++ optional marker.start inner.rest) ?_
      fun hi hheld => ?_
    · refine (reads_parameterPatterns (List.subset_append_left _ _)).bind fun params => ?_
      refine (keeps_forM keeps_checkBinding _).reads fun _ => reads_arrowBody hr hmark ?_
      simp only [operands, List.map_append]
      exact List.append_subset.2 ⟨List.subset_append_left _ _, by simp [optional]⟩
    · obtain ⟨hitems, hrest⟩ := held_append.1 (held_append.1 hheld).1
      refine held_append.2 ⟨fun e he => held_operands_of_chain hitems e (operands_reverse _ he), hrest⟩
  · refine reads_ite (fun _ => reads_unexpected) fun _ => ?_
    split
    · rename_i e he
      refine Reads.pre [.operand marker.start e] (reads_pure (List.Subset.refl _)) fun hi hheld => ?_
      exact held_operand.2 (sequenceOf_before (held_append.1 (held_append.1 hheld).1).1 he)
    · exact reads_unexpected

/-! ## 6. Primary expressions -/

omit hr in
theorem reads_regexLiteral (hmark : Boundary source marker.start) (taken : String) :
    Reads source around marker.start held (regexLiteral marker taken) (operand marker.start) := by
  refine reads_rescan (Lexer.moves_regex taken) fun _ => reads_advance.then fun token => ?_
  split
  · exact reads_leaf hmark head_behind rfl rfl
  · exact reads_unexpected

theorem reads_nameOrArrow (hmark : Boundary source marker.start) :
    Reads source around marker.start held (nameOrArrow reach marker) (operand marker.start) := by
  refine reads_identifier.node fun id => keeps_get.reads fun p => ?_
  extract_lets functionAhead
  refine reads_ite (fun _ => reads_unsupported _) fun _ => reads_ite (fun _ => ?_) fun _ => ?_
  · have harrow : Reads source around marker.start (.operand marker.start id :: held) (arrowBody reach marker [id])
        (operand marker.start) := reads_arrowBody hr hmark (by simp [operands])
    split
    · exact (keeps_checkBinding _).reads fun _ => harrow
    · exact harrow
  · exact reads_pure (by simp [operand])

omit hr in
theorem reads_superWord (hmark : Boundary source marker.start) :
    Reads source around marker.start held (superWord marker) (operand marker.start) :=
  (reads_discard reads_advance).then fun _ => keeps_get.reads fun _ =>
    reads_ite (fun _ => reads_failAt _ _) fun _ => reads_leaf hmark head_behind rfl rfl

/-- **A primary expression is laid over the text.** -/
theorem reads_primary : Reads source around lo held (primary reach) (operand lo) := by
  refine reads_startOperand fun marker hmark => keeps_ahead.reads fun token => ?_
  split
  · exact (reads_discard reads_advance).then fun _ => reads_leaf hmark head_behind rfl rfl
  · exact reads_superWord hmark
  · exact reads_nameOrArrow hr hmark
  · exact reads_nameOrArrow hr hmark
  · refine reads_ite (fun _ => ?_) fun _ => reads_literal _
    exact (reads_discard reads_advance).then fun _ => reads_leaf hmark head_behind rfl rfl
  · exact reads_literal _
  · exact reads_literal _
  · exact reads_literal _
  · exact reads_regexLiteral hmark _
  · exact reads_regexLiteral hmark _
  · exact reads_template hr false
  · exact reads_template hr false
  · exact reads_parenOrArrow hr
  · exact reads_arrayLiteral hr
  · exact reads_objectLiteral hr
  · exact reads_functionExpression hr hmark
  · exact (reads_classLike hr hmark _).asOperand fun _ h => h _ _ nofun
  · exact reads_unsupported _
  · exact reads_unsupported _
  · exact reads_unexpected

/-! ## 7. Accesses and calls -/

omit hr in
theorem reads_memberName : Reads source around lo held memberName (operand lo) := by
  refine (keeps_at _).reads fun _ => reads_ite (fun _ => reads_unsupported _) fun _ => ?_
  refine reads_startOperand fun marker hmark => keeps_propertyNameAhead.reads fun name => ?_
  cases name with
  | none => exact reads_unexpected
  | some name => exact (reads_discard reads_advance).then fun _ => reads_leaf hmark head_behind rfl rfl

/-- An expression with its accesses is read. -/
def subscriptsAt (lo : Nat) : Node × Bool → List Piece :=
  fun r => [.operand lo r.1]

theorem reads_subscripts {marker : Marker} (hmark : Boundary source marker.start) (noCalls : Bool) :
    ∀ (fuel : Nat) (e : Node) (chained : Bool) (held : List Piece), .operand marker.start e ∈ held →
      Reads source around marker.start held (subscripts reach marker noCalls fuel e chained) (subscriptsAt marker.start)
  | 0, e, chained, _, he => reads_pure (by simpa [subscriptsAt] using he)
  | fuel + 1, e, chained, held, he => by
    have ih := reads_subscripts hmark noCalls fuel
    -- what is read after the expression is closed with it
    have hclose : ∀ {kind : Kind} {chained : Bool} {held : List Piece}, .operand marker.start e ∈ held →
        operands marker.start kind.children ⊆ held → kind.isOperand →
        Reads source around marker.start held (do subscripts reach marker noCalls fuel (← finish marker kind) chained)
          (subscriptsAt marker.start) := by
      intro kind chained held he hchildren hkind
      refine (reads_node hmark ⟨_, he, Nat.le_refl _⟩ hchildren hkind).node fun e' => ?_
      exact ih e' chained _ List.mem_cons_self
    refine (keeps_at _).reads fun optional => reads_ite (fun _ => reads_fail _) fun _ => ?_
    extract_lets chained' byName otherwise tagged rest
    have hbyName : ∀ {held : List Piece}, .operand marker.start e ∈ held →
        Reads source around marker.start held byName (subscriptsAt marker.start) := fun he =>
      reads_memberName.node fun name =>
        hclose (List.mem_cons_of_mem _ he) (by simp [Kind.children.eq_def, operands, he]) rfl
    have hotherwise : ∀ {held : List Piece}, .operand marker.start e ∈ held →
        Reads source around marker.start held otherwise (subscriptsAt marker.start) := fun he =>
      reads_ite (fun _ => hbyName he) fun _ => reads_pure (by simpa [subscriptsAt] using he)
    have htagged : ∀ {held : List Piece}, .operand marker.start e ∈ held →
        Reads source around marker.start held tagged (subscriptsAt marker.start) := fun he =>
      reads_ite (fun _ => reads_fail _) fun _ => (reads_template hr true).node fun quasi =>
        hclose (List.mem_cons_of_mem _ he) (by simp [Kind.children.eq_def, operands, he]) rfl
    have hrest : ∀ {held : List Piece}, .operand marker.start e ∈ held →
        Reads source around marker.start held (rest ()) (subscriptsAt marker.start) := by
      intro held he
      refine keeps_ahead.reads fun token => ?_
      split
      · refine reads_ite (fun _ => hotherwise he) fun _ => (reads_discard reads_advance).then fun _ => ?_
        exact hbyName (List.mem_cons_of_mem _ he)
      · refine (reads_discard reads_advance).then fun _ => (reads_withIn (reads_expression hr)).node fun key => ?_
        refine (reads_eat _).then fun _ => hclose ?_ (by simp [Kind.children.eq_def, operands, he]) rfl
        simp [he]
      · refine reads_ite (fun _ => hotherwise he) fun _ => (reads_arguments hr).bind fun args => ?_
        refine hclose (List.mem_append_right _ he) (List.cons_subset.2 ⟨?_, ?_⟩) rfl
        · exact List.mem_append_right _ he
        · exact List.subset_append_left _ _
      · exact reads_ite (fun _ => hotherwise he) fun _ => htagged he
      · exact reads_ite (fun _ => hotherwise he) fun _ => htagged he
      · exact hotherwise he
    refine reads_ite (fun _ => (reads_discard reads_advance).then fun _ => hrest ?_) fun _ => hrest he
    exact List.mem_cons_of_mem _ he

theorem reads_withSubscripts (hmark : Boundary source marker.start) {e : Node} (he : .operand marker.start e ∈ held)
    (noCalls : Bool) :
    Reads source around marker.start held (withSubscripts reach marker e noCalls) (operand marker.start) := by
  refine keeps_get.reads fun p => (reads_subscripts hr hmark noCalls _ e false _ he).bind fun ⟨e', chained⟩ => ?_
  refine reads_ite (fun _ => ?_) fun _ => reads_pure (List.subset_append_left _ _)
  exact reads_node hmark head_behind (by simp [Kind.children.eq_def, operands, subscriptsAt]) rfl

theorem reads_newExpression : Reads source around lo held (newExpression reach) (operand lo) := by
  refine reads_startOperand fun marker hmark => (reads_discard reads_advance).then fun _ => ?_
  refine (keeps_at _).reads fun _ => reads_ite (fun _ => reads_fail _) fun _ => reads_start fun calleeMarker hcallee hle => ?_
  refine (keeps_atWord _).reads fun _ => ?_
  extract_lets rest
  have hrest : ∀ callee : Node,
      Reads source around calleeMarker.start (.operand calleeMarker.start callee :: .token marker.start :: held) (rest callee)
        (operand marker.start) := by
    intro callee
    refine (reads_withSubscripts hr hcallee List.mem_cons_self true).lowered hle fun callee => (keeps_at _).reads ?_
    intro _
    extract_lets close
    have hclose : ∀ (args : List Node) (held : List Piece), .operand marker.start callee ∈ held →
        operands marker.start args ⊆ held → Reads source around calleeMarker.start held (close args) (operand marker.start) :=
      fun args held hcallee hargs =>
        reads_node hmark ⟨_, hcallee, Nat.le_refl _⟩ (List.cons_subset.2 ⟨hcallee, hargs⟩) rfl
    refine reads_ite (fun _ => ?_) fun _ => hclose [] _ List.mem_cons_self (List.nil_subset _)
    have hargs (held : List Piece) : Reads source around marker.start held (arguments reach) (operands marker.start) :=
      reads_arguments hr
    refine ((hargs _).weaken hle (List.Subset.refl _)).bind fun args => hclose args _ ?_ (List.subset_append_left _ _)
    exact List.mem_append_right _ List.mem_cons_self
  exact reads_ite (fun _ => (hr.newExpression _ _).node hrest) fun _ => (reads_primary hr).node hrest

/-- **A primary expression with its accesses and calls is laid over the text.** -/
theorem reads_leftHandSide : Reads source around lo held (leftHandSide reach) (operand lo) := by
  refine reads_startOperand fun marker hmark => (keeps_atWord _).reads fun _ => reads_ite (fun _ => ?_) fun _ => ?_
  · exact (reads_newExpression hr).node fun base => reads_withSubscripts hr hmark List.mem_cons_self false
  · exact (reads_primary hr).node fun base => reads_withSubscripts hr hmark List.mem_cons_self false

/-! ## 8. Operations -/

theorem reads_unary : Reads source around lo held (unary reach) (operand lo) := by
  refine reads_startOperand fun marker hmark => keeps_ahead.reads fun token => ?_
  split
  · refine (reads_discard reads_advance).then fun _ => (hr.unary _ _).node fun argument => keeps_get.reads fun p => ?_
    refine reads_ite (fun _ => reads_failAt _ _) fun _ => ?_
    exact reads_node hmark head_behind (by simp [Kind.children.eq_def, operands]) rfl
  · split
    · refine (reads_discard reads_advance).then fun _ => (hr.unary _ _).node fun argument => ?_
      refine (keeps_checkSimpleTarget _).reads fun _ => ?_
      exact reads_node hmark head_behind (by simp [Kind.children.eq_def, operands]) rfl
    · refine (reads_leftHandSide hr).node fun e => keeps_get.reads fun p => ?_
      split
      · refine (keeps_checkSimpleTarget _).reads fun _ => (reads_discard reads_advance).then fun _ => ?_
        exact reads_node hmark head_behind (by simp [Kind.children.eq_def, operands]) rfl
      · exact reads_pure (by simp [operand])

/-- **The operators after a left side lay their nodes from where the left side starts.** -/
theorem reads_binaryRest {marker : Marker} (hmark : Boundary source marker.start) :
    ∀ (fuel : Nat) (left : Node) (least lo : Nat) (held : List Piece), marker.start ≤ lo →
      .operand marker.start left ∈ held →
      Reads source around lo held (binaryRest reach marker fuel left least) (operand marker.start)
  | 0, _, _, _, _, _, hleft => reads_pure (by simpa [operand] using hleft)
  | fuel + 1, left, least, lo, held, hlo, hleft => by
    have hdone : Reads source around lo held (pure left) (operand marker.start) := reads_pure (by simpa [operand] using hleft)
    refine keeps_get.reads fun p => ?_
    split
    · exact hdone
    · rename_i operator precedence _
      refine reads_ite (fun _ => hdone) fun _ => (reads_discard reads_advance).then fun _ => ?_
      refine reads_start fun rightMarker hright hle => (reads_unary hr).node fun e => ?_
      have hstart : marker.start ≤ rightMarker.start := Nat.le_trans hlo hle
      refine Reads.lowered (hr.binaryRest _ hright List.mem_cons_self (Nat.le_refl _) _) hstart fun right => ?_
      have hchildren : ∀ {held : List Piece}, .operand marker.start left ∈ held → .operand marker.start right ∈ held →
          operands marker.start (operator.kind left right).children ⊆ held := by
        intro held hleft hright
        cases operator <;> simp [Infix.kind, Kind.children.eq_def, operands, hleft, hright]
      have hkind : (operator.kind left right).isOperand := by
        cases operator <;> rfl
      refine (reads_node hmark head_behind (hchildren (by simp [hleft]) (by simp)) hkind).node fun left' => ?_
      exact reads_binaryRest hmark fuel left' least _ _ hstart List.mem_cons_self

theorem reads_binaryRestFrom (hmark : Boundary source marker.start) {left : Node} (hlo : marker.start ≤ lo)
    (hleft : .operand marker.start left ∈ held) (least : Nat) :
    Reads source around lo held (binaryRestFrom reach marker left least) (operand marker.start) :=
  keeps_get.reads fun _ => reads_binaryRest hr hmark _ left least lo held hlo hleft

theorem reads_conditional : Reads source around lo held (conditional reach) (operand lo) := by
  refine reads_startOperand fun marker hmark => (reads_unary hr).node fun e => ?_
  refine (reads_binaryRestFrom hr hmark (Nat.le_refl _) List.mem_cons_self 0).node fun test => ?_
  refine (reads_eatIf _).skip fun _ => reads_ite (fun _ => ?_) fun _ => reads_pure (by simp [operand])
  refine (reads_withIn (hr.assignment _ _)).node fun consequent => (reads_eat _).then fun _ => ?_
  refine (hr.assignment _ _).node fun alternate => ?_
  exact reads_node hmark head_behind (by simp [Kind.children.eq_def, operands]) rfl

/-- **An assignment is laid over the text, and so is an expression without one.** -/
theorem reads_assignment : Reads source around lo held (assignment reach) (operand lo) := by
  refine reads_startOperand fun marker hmark => (reads_conditional hr).node fun left => (keeps_at _).reads fun _ => ?_
  refine reads_ite (fun _ => ?_) fun _ => keeps_ahead.reads fun token => ?_
  · split
    · exact reads_ite (fun _ => reads_unsupported _) fun _ => reads_unexpected
    · exact reads_unexpected
  split
  · exact reads_pure (by simp [operand])
  · refine (reads_assignmentTarget _ List.mem_cons_self).node fun target => ?_
    refine (reads_discard reads_advance).then fun _ => (hr.assignment _ _).node fun right => ?_
    exact reads_node hmark head_behind (by simp [Kind.children.eq_def, operands]) rfl

end

end GuestScript.Parser
