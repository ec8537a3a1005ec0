import GuestScript.Proofs.Progress.Declaration
import GuestScript.Tree.Parser.Expression

/-!
# Expressions take tokens

An expression takes a token, and so does every round of the chains and lists in it. Only the operators behind an
operand may be missing.
-/

namespace GuestScript.Parser

open Stage

variable {deeper : Prop} {k : Nat} {before : Stage} {r r' : Reach}

/-! ## 1. Loops -/

/-- The loop over the expressions that commas join. -/
def commaLoop (reach : Reach) : Loop ParseError Parser (List Node) (List Node) where
  run := moreExpressions reach
  round acc := do
    if ← eatIf .comma then pure (.inl ((← reach .assignment) :: acc)) else pure (.inr acc)
  unroll bound acc := by
    simp only [moreExpressions, bind_assoc]
    refine bind_congr fun more => ?_
    simp only [ite_bind, bind_assoc, pure_bind, Sum.elim_inl, Sum.elim_inr]

/-- The loop over the arguments of a call. -/
def argumentLoop (reach : Reach) : Loop ParseError Parser (List Node) (List Node) where
  run := argumentItems reach
  round acc := do
    if ← at? .rightParen then pure (.inr acc)
    else
      let item ← spreadOrAssignment reach
      if ← eatIf .comma then pure (.inl (item :: acc)) else pure (.inr (item :: acc))
  unroll bound acc := by
    simp only [argumentItems, bind_assoc]
    refine bind_congr fun closed => ?_
    simp only [ite_bind, bind_assoc, pure_bind, Sum.elim_inl, Sum.elim_inr]

/-- The loop over the pieces of a template. -/
def partLoop (reach : Reach) (tagged : Bool) :
    Loop ParseError Parser (List Node × List Node) (List Node × List Node) where
  run bound c := templateParts reach tagged bound c.1 c.2
  round := fun (quasis, expressions) => do
    let marker ← start
    match ← advance with
    | .template place cooked raw =>
      if cooked.isNone && !tagged then
        failAt "Bad escape sequence in untagged template literal" (some marker.position)
      else
        let isTail := place = .whole || place = .tail
        let quasi ← finish marker (.templateElement raw cooked isTail)
        if isTail then pure (.inr (quasi :: quasis, expressions))
        else
          let e ← withIn (expression reach)
          if ← at? .rightBrace then
            rescan (← lex Lexer.templateRest)
            pure (.inl (quasi :: quasis, e :: expressions))
          else unexpected
    | _ => unexpected
  unroll bound c := by
    obtain ⟨quasis, expressions⟩ := c
    simp only [templateParts, bind_assoc]
    refine bind_congr fun marker => bind_congr fun t => ?_
    split
    · simp only [ite_bind, bind_assoc, pure_bind, failAt_bind, unexpected_bind, Sum.elim_inl, Sum.elim_inr]
    · simp only [unexpected_bind]

/-- The loop over the elements of an array literal. -/
def arrayLoop (reach : Reach) : Loop ParseError Parser (List (Option Node)) (List (Option Node)) where
  run := arrayElements reach
  round acc := do
    if ← at? .rightBracket then pure (.inr acc)
    else if ← eatIf .comma then pure (.inl (none :: acc))
    else
      let element ← spreadOrAssignment reach
      eatSeparator .rightBracket
      pure (.inl (some element :: acc))
  unroll bound acc := by
    simp only [arrayElements, bind_assoc]
    refine bind_congr fun closed => ?_
    simp only [ite_bind, bind_assoc, pure_bind, Sum.elim_inl, Sum.elim_inr]

/-- The loop over the properties of an object literal. -/
def propertyLoop (reach : Reach) : Loop ParseError Parser (List Node) (List Node) where
  run := objectProperties reach
  round acc := do
    if ← at? .rightBrace then pure (.inr acc)
    else
      let property ← objectProperty reach
      eatSeparator .rightBrace
      pure (.inl (property :: acc))
  unroll bound acc := by
    simp only [objectProperties, bind_assoc]
    refine bind_congr fun closed => ?_
    simp only [ite_bind, bind_assoc, pure_bind, Sum.elim_inl, Sum.elim_inr]

/-- The loop over what stands between parentheses. -/
def parenLoop (reach : Reach) : Loop ParseError Parser Parenthesized Parenthesized where
  run := parenthesizedItems reach
  round acc := do
    if ← at? .rightParen then pure (.inr acc)
    else if ← at? .ellipsis then pure (.inr { acc with rest := some (← restElement reach) })
    else
      let item ← reach .assignment
      let acc := { acc with items := item :: acc.items }
      if ← eatIf .comma then
        let trailing ← at? .rightParen
        pure (.inl { acc with trailingComma := trailing })
      else pure (.inr acc)
  unroll bound acc := by
    simp only [parenthesizedItems, bind_assoc]
    refine bind_congr fun closed => ?_
    simp only [ite_bind, bind_assoc, pure_bind, Sum.elim_inl, Sum.elim_inr]

/-- The loop over accesses, calls and tagged templates. -/
def subscriptLoop (reach : Reach) (marker : Marker) (noCalls : Bool) :
    Loop ParseError Parser (Node × Bool) (Node × Bool) where
  run bound c := subscripts reach marker noCalls bound c.1 c.2
  round := fun (e, chained) => do
    let optional ← at? .optionalChain
    if optional && noCalls then fail "Invalid optional chain from new expression"
    else
      if optional then discard advance
      let chained := chained || optional
      let byName : Parse ((Node × Bool) ⊕ (Node × Bool)) := do
        let name ← memberName
        let e ← finish marker (.memberExpression e name false optional)
        pure (.inl (e, chained))
      let otherwise : Parse ((Node × Bool) ⊕ (Node × Bool)) := if optional then byName else pure (.inr (e, chained))
      let tagged : Parse ((Node × Bool) ⊕ (Node × Bool)) := do
        if chained then
          fail "Optional chaining cannot appear in the tag of tagged template expressions"
        else
          let quasi ← template reach true
          let e ← finish marker (.taggedTemplateExpression e quasi)
          pure (.inl (e, chained))
      match ← ahead with
      | .punctuator .dot =>
        if optional then otherwise
        else
          discard advance
          byName
      | .punctuator .leftBracket =>
        discard advance
        let property ← withIn (expression reach)
        eat .rightBracket
        let e ← finish marker (.memberExpression e property true optional)
        pure (.inl (e, chained))
      | .punctuator .leftParen =>
        if noCalls then otherwise
        else
          let args ← arguments reach
          let e ← finish marker (.callExpression e args optional)
          pure (.inl (e, chained))
      | .template .whole _ _ => if optional then otherwise else tagged
      | .template .head _ _ => if optional then otherwise else tagged
      | _ => otherwise
  unroll bound c := by
    obtain ⟨e, chained⟩ := c
    simp only [subscripts, bind_assoc]
    refine bind_congr fun optional => ?_
    simp only [ite_bind, bind_assoc, fail_bind]
    congr 1
    refine if_congr Iff.rfl (bind_congr fun _ => bind_congr fun t => ?_) (bind_congr fun t => ?_)
    all_goals
      split <;> simp only [ite_bind, bind_assoc, pure_bind, fail_bind, Sum.elim_inl, Sum.elim_inr]

/-- The loop over operators above a precedence. -/
def operatorLoop (reach : Reach) (marker : Marker) (least : Nat) : Loop ParseError Parser Node Node where
  run bound left := binaryRest reach marker bound left least
  round left := do
    let p ← get
    match infix? p.noIn p.current with
    | none => pure (.inr left)
    | some (operator, precedence) =>
      if precedence ≤ least then pure (.inr left)
      else
        discard advance
        let rightMarker ← start
        let operand ← unary reach
        let right ← reach (.binaryRest rightMarker operand (operator.rightPrecedence precedence))
        let left ← finish marker (operator.kind left right)
        pure (.inl left)
  unroll bound left := by
    simp only [binaryRest, bind_assoc]
    refine bind_congr fun p => ?_
    cases infix? p.noIn p.current with
    | none => rfl
    | some found => simp only [ite_bind, bind_assoc, pure_bind, Sum.elim_inl, Sum.elim_inr]

/-! ## 2. Lists of expressions -/

section

variable (hk : Alike (rooms deeper) k fresh (fun _ => moved) (r .assignment) (r' .assignment)) (h : Reaches deeper k r r')

include h

theorem alike_commaRound (acc : List Node) :
    Alike (rooms deeper) k fresh (afterRound fun _ => fresh) ((commaLoop r).round acc) ((commaLoop r').round acc) :=
  alike_if (alike_eatIf _) ((h.goal rfl).bind fun _ => alike_pure trivial) (alike_pure trivial)

include hk

theorem alike_expression : Alike (rooms deeper) k fresh (fun _ => moved) (expression r) (expression r') := by
  refine alike_start.bind fun _ => hk.bind fun first => alike_if (alike_at _) ?_ (alike_return _)
  exact alike_laterLoop (A := commaLoop r) (B := commaLoop r')
    (fun k' hk => alike_commaRound (h.mono (Nat.le_of_lt hk))) fun _ => alike_finish _ _

theorem alike_spreadOrAssignment :
    Alike (rooms deeper) k fresh (fun _ => moved) (spreadOrAssignment r) (spreadOrAssignment r') := by
  refine alike_if (alike_at _) ?_ hk
  exact alike_start.bind fun _ => (alike_discard alike_take).bind fun _ => (h.goal rfl).bind fun _ => alike_finish _ _

end

section

variable (h : Reaches deeper k r r')

include h

theorem Reaches.expression : Alike (rooms deeper) k moved (fun _ => moved) (expression r) (expression r') :=
  Alike.later fun k' hk => alike_expression (h k' hk .assignment) (h.mono (Nat.le_of_lt hk))

omit h in
theorem alike_argumentRound (h : Reaches deeper (k + 1) r r') (acc : List Node) :
    Alike (rooms deeper) k fresh (afterRound fun _ => fresh) ((argumentLoop r).round acc)
      ((argumentLoop r').round acc) := by
  refine alike_if (alike_at _) (alike_pure trivial) ?_
  refine (alike_spreadOrAssignment (h k (Nat.lt_succ_self k) .assignment) (h.mono (Nat.le_succ k))).bind fun item => ?_
  exact alike_if (alike_eatIf _) (alike_pure trivial) (alike_pure trivial)

theorem alike_arguments : Alike (rooms deeper) k before (fun _ => moved) (arguments r) (arguments r') := by
  refine (alike_eat _).bind fun _ => alike_withIn ?_
  exact alike_laterLoop (A := argumentLoop r) (B := argumentLoop r')
    (fun k' hk => alike_argumentRound (h.mono hk)) fun _ => (alike_eat _).bind fun _ => alike_return _

/-! ## 3. Templates and literals -/

theorem alike_partRound (tagged : Bool) (c : List Node × List Node) :
    Alike (rooms deeper) k fresh (afterRound fun _ => moved) ((partLoop r tagged).round c)
      ((partLoop r' tagged).round c) := by
  refine alike_start.bind fun _ => alike_advance.bind fun t => ?_
  split
  · refine alike_ite (fun _ => alike_failAt _ _) fun _ => (alike_finish _ _).bind fun _ => ?_
    refine alike_ite (fun _ => alike_pure trivial) fun _ => (alike_withIn h.expression).bind fun _ => ?_
    exact alike_continueTemplate (alike_pure trivial)
  · exact alike_unexpected

theorem alike_template (tagged : Bool) :
    Alike (rooms deeper) k fresh (fun _ => moved) (template r tagged) (template r' tagged) := by
  refine (alike_requireModern _).bind fun _ => alike_start.bind fun _ => ?_
  exact alike_loop (A := partLoop r tagged) (B := partLoop r' tagged) (c := ([], []))
    (fun k' hk => alike_partRound (h.mono hk) tagged) fun _ => alike_finish _ _

omit h in
theorem alike_arrayRound (h : Reaches deeper (k + 1) r r') (acc : List (Option Node)) :
    Alike (rooms deeper) k fresh (afterRound fun _ => fresh) ((arrayLoop r).round acc) ((arrayLoop r').round acc) := by
  refine alike_if (alike_at _) (alike_pure trivial) <| alike_if (alike_eatIf _) (alike_pure trivial) ?_
  refine (alike_spreadOrAssignment (h k (Nat.lt_succ_self k) .assignment) (h.mono (Nat.le_succ k))).bind fun element => ?_
  exact (alike_eatSeparator _).bind fun _ => alike_pure trivial

theorem alike_arrayLiteral : Alike (rooms deeper) k before (fun _ => moved) (arrayLiteral r) (arrayLiteral r') := by
  refine alike_start.bind fun _ => (alike_eat _).bind fun _ => Alike.bind (alike_withIn ?_) fun _ => alike_finish _ _
  exact alike_laterLoop (A := arrayLoop r) (B := arrayLoop r') (fun k' hk => alike_arrayRound (h.mono hk)) fun _ =>
    (alike_eat _).bind fun _ => alike_return _

theorem alike_plainProperty (marker : Marker) (key : Node) (computed : Bool) :
    Alike (rooms deeper) k moved (fun _ => moved) (plainProperty r marker key computed)
      (plainProperty r' marker key computed) := by
  refine alike_if (alike_eatIf _) ((h.goal rfl).bind fun _ => alike_finish _ _) ?_
  refine (alike_shorthandName _ _).bind fun _ => alike_if (alike_eatIf _) ?_ (alike_finish _ _)
  exact (h.goal rfl).bind fun _ => (alike_finish _ _).bind fun _ => alike_finish _ _

omit h in
theorem alike_objectProperty (hk : Alike (rooms deeper) k fresh (fun _ => moved) (r .assignment) (r' .assignment))
    (h : Reaches deeper k r r') :
    Alike (rooms deeper) k fresh (fun _ => moved) (objectProperty r) (objectProperty r') := by
  have hrest (marker : Marker) (kind : PropertyKind) (key : Node) (computed : Bool) :
      Alike (rooms deeper) k moved (fun _ => moved)
        (do
          let isMethod ← at? .leftParen
          if kind ≠ .init || isMethod then
            let value ← method r marker
            checkAccessor kind value
            finish marker (.property key value kind (kind = .init) false computed)
          else plainProperty r marker key computed)
        (do
          let isMethod ← at? .leftParen
          if kind ≠ .init || isMethod then
            let value ← method r' marker
            checkAccessor kind value
            finish marker (.property key value kind (kind = .init) false computed)
          else plainProperty r' marker key computed) := by
    refine (alike_atPlain _).bind fun _ => alike_ite (fun _ => ?_) fun _ => alike_plainProperty h _ _ _
    exact (alike_method h _).bind fun _ => (alike_checkAccessor _ _).bind fun _ => alike_finish _ _
  refine alike_start.bind fun marker => alike_if (alike_at _) (alike_spreadOrAssignment hk h).anywhere <|
    alike_if (alike_at _) (alike_unsupported _) ?_
  refine (alike_propertyKey h).bind fun key => alike_afterModifier.bind fun _ => ?_
  refine alike_ite (fun _ => alike_unsupported _) fun _ => alike_ite (fun _ => ?_) fun _ => ?_
  · exact (alike_propertyKey h).bind fun _ => (alike_return _).bind fun _ => hrest _ _ _ _
  · exact (alike_return _).bind fun _ => hrest _ _ _ _

omit h in
theorem alike_propertyRound (h : Reaches deeper (k + 1) r r') (acc : List Node) :
    Alike (rooms deeper) k fresh (afterRound fun _ => fresh) ((propertyLoop r).round acc)
      ((propertyLoop r').round acc) := by
  refine alike_if (alike_at _) (alike_pure trivial) ?_
  refine (alike_objectProperty (h k (Nat.lt_succ_self k) .assignment) (h.mono (Nat.le_succ k))).bind fun _ => ?_
  exact (alike_eatSeparator _).bind fun _ => alike_pure trivial

theorem alike_objectLiteral : Alike (rooms deeper) k before (fun _ => moved) (objectLiteral r) (objectLiteral r') := by
  refine alike_start.bind fun _ => (alike_eat _).bind fun _ => Alike.bind (alike_withIn ?_) fun _ => alike_finish _ _
  exact alike_laterLoop (A := propertyLoop r) (B := propertyLoop r') (fun k' hk => alike_propertyRound (h.mono hk))
    fun _ => (alike_eat _).bind fun _ => alike_return _

/-! ## 4. Parentheses -/

omit h in
theorem alike_parenRound (h : Reaches deeper (k + 1) r r') (acc : Parenthesized) :
    Alike (rooms deeper) k fresh (afterRound fun _ => fresh) ((parenLoop r).round acc) ((parenLoop r').round acc) := by
  refine alike_if (alike_at _) (alike_pure trivial) <| alike_if (alike_at _)
    ((alike_restElement (h.mono (Nat.le_succ k))).bind fun _ => alike_pure trivial) ?_
  refine Alike.bind (h k (Nat.lt_succ_self k) .assignment) fun item => alike_if (alike_eatIf _) ?_ (alike_pure trivial)
  exact (alike_atPlain _).bind fun _ => alike_pure trivial

omit h in
theorem alike_pattern (n : Node) : Alike (rooms deeper) k before (fun _ => before) (pattern n) (pattern n) := by
  unfold pattern
  split
  · exact alike_return _
  · exact alike_throw _

omit h in
theorem alike_patterns : ∀ l : List Node,
    Alike (rooms deeper) k before (fun _ => before) (l.mapM pattern) (l.mapM pattern)
  | [] => by
    rw [List.mapM_nil]
    exact alike_return _
  | n :: l => by
    rw [List.mapM_cons]
    exact (alike_pattern n).bind fun _ => (alike_patterns l).bind fun _ => alike_return _

omit h in
theorem alike_checkBindings : ∀ names : List String,
    Alike (rooms deeper) k before (fun _ => before) (names.forM checkBinding) (names.forM checkBinding)
  | [] => alike_return _
  | name :: names => (alike_checkBinding name).bind fun _ => alike_checkBindings names

theorem alike_parenOrArrow : Alike (rooms deeper) k before (fun _ => moved) (parenOrArrow r) (parenOrArrow r') := by
  have hinner : Alike (rooms deeper) k moved (fun _ => moved)
      (do
        let inner ← parenthesizedItems r ((← get).lexer.fuel + 1) { items := [], rest := none, trailingComma := false }
        eat .rightParen
        pure inner)
      (do
        let inner ← parenthesizedItems r' ((← get).lexer.fuel + 1) { items := [], rest := none, trailingComma := false }
        eat .rightParen
        pure inner) :=
    alike_laterLoop (A := parenLoop r) (B := parenLoop r') (fun k' hk => alike_parenRound (h.mono hk)) fun _ =>
      (alike_eat _).bind fun _ => alike_return _
  refine alike_start.bind fun marker => (alike_eat _).bind fun _ => (alike_withIn hinner).bind fun inner => ?_
  refine alike_read (fun _ _ _ => rfl) fun p => alike_ite (fun _ => ?_) fun _ =>
    alike_ite (fun _ => alike_unexpected) fun _ => ?_
  · exact (alike_patterns _).bind fun _ => (alike_checkBindings _).bind fun _ => alike_arrowBody h _ _
  · split
    · exact alike_return _
    · exact alike_unexpected

/-! ## 5. Primary expressions -/

omit h in
theorem alike_regexLiteral (marker : Marker) (taken : String) :
    Alike (rooms deeper) k ready (fun _ => moved) (regexLiteral marker taken) (regexLiteral marker taken) := by
  have hcut {α : Type} (z : Parse α) : (do rescan (← lex (Lexer.regex taken)); z) =
      (do rescan (← lex (Lexer.regex taken))) >>= fun _ => z := by
    rw [bind_assoc]
  unfold regexLiteral
  rw [hcut]
  refine (alike_rescan (Lexer.steady_regex taken)).bind fun _ => alike_advance.bind fun t => ?_
  split
  · exact alike_finish _ _
  · exact alike_unexpected

theorem alike_nameOrArrow (marker : Marker) :
    Alike (rooms deeper) k before (fun _ => moved) (nameOrArrow r marker) (nameOrArrow r' marker) := by
  refine alike_identifier.bind fun id => alike_read (fun _ _ _ => rfl) fun p => ?_
  refine alike_ite (fun _ => alike_unsupported _) fun _ => alike_ite (fun _ => ?_) fun _ => alike_return _
  split
  · exact (alike_checkBinding _).bind fun _ => alike_arrowBody h _ _
  · exact alike_arrowBody h _ _

omit h in
theorem alike_superWord (marker : Marker) :
    Alike (rooms deeper) k ready (fun _ => moved) (superWord marker) (superWord marker) :=
  (alike_discard alike_take).bind fun _ => alike_read (fun _ _ _ => rfl) fun _ =>
    alike_ite (fun _ => alike_failAt _ _) fun _ => alike_finish _ _

theorem alike_primary : Alike (rooms deeper) k fresh (fun _ => moved) (primary r) (primary r') := by
  refine alike_start.bind fun marker => alike_ahead.bind fun t => ?_
  split
  case h_1 => exact (alike_discard alike_take).bind fun _ => alike_finish _ _
  case h_2 => exact alike_superWord _
  case h_3 | h_4 => exact alike_nameOrArrow h _
  case h_5 =>
    refine alike_ite (fun _ => ?_) fun _ => alike_literal _
    exact (alike_discard alike_take).bind fun _ => alike_finish _ _
  case h_6 | h_7 | h_8 => exact alike_literal _
  case h_9 | h_10 => exact alike_regexLiteral _ _
  case h_11 | h_12 => exact (alike_template h _).anywhere
  case h_13 => exact alike_parenOrArrow h
  case h_14 => exact alike_arrayLiteral h
  case h_15 => exact alike_objectLiteral h
  case h_16 => exact alike_function h _ _
  case h_17 => exact alike_classLike h _ _
  case h_18 | h_19 => exact alike_unsupported _
  case h_20 => exact alike_unexpected

/-! ## 6. Accesses and calls -/

omit h in
theorem alike_memberName : Alike (rooms deeper) k before (fun _ => moved) memberName memberName := by
  refine alike_if (alike_at _) (alike_unsupported _) <| alike_start.bind fun _ => alike_propertyNameAhead.bind fun name => ?_
  cases name with
  | none => exact alike_unexpected
  | some name => exact alike_takeSeen.bind fun _ => alike_finish _ _

theorem alike_subscriptRound (marker : Marker) (noCalls : Bool) (c : Node × Bool) :
    Alike (rooms deeper) k fresh (afterRound fun _ => fresh) ((subscriptLoop r marker noCalls).round c)
      ((subscriptLoop r' marker noCalls).round c) := by
  obtain ⟨e, chained⟩ := c
  have hrest {before : Stage} (optional chained : Bool) : Alike (rooms deeper) k before (afterRound fun _ => fresh)
      (if optional then do
        let name ← memberName
        let e ← finish marker (.memberExpression e name false optional)
        (pure (.inl (e, chained)) : Parse ((Node × Bool) ⊕ (Node × Bool)))
      else pure (.inr (e, chained)))
      (if optional then do
        let name ← memberName
        let e ← finish marker (.memberExpression e name false optional)
        pure (.inl (e, chained))
      else pure (.inr (e, chained))) :=
    alike_ite (fun _ => alike_memberName.bind fun _ => (alike_finish _ _).bind fun _ => alike_pure trivial)
      fun _ => alike_pure trivial
  refine (alike_at _).bind fun optional => alike_ite (fun _ => alike_fail _) fun _ => ?_
  refine alike_ite (fun hoptional => ?_) fun hoptional => ?_
  · subst hoptional
    refine (alike_discard alike_take).bind fun _ => alike_ahead.bind fun t => ?_
    split
    · exact alike_ite (fun _ => hrest _ _) fun h => absurd rfl h
    · refine alike_takeSeen.bind fun _ => (alike_withIn h.expression).bind fun _ => (alike_eat _).bind fun _ => ?_
      exact (alike_finish _ _).bind fun _ => alike_pure trivial
    · refine alike_ite (fun _ => hrest _ _) fun _ => (alike_arguments h).bind fun _ => ?_
      exact (alike_finish _ _).bind fun _ => alike_pure trivial
    · exact alike_ite (fun _ => hrest _ _) fun h => absurd rfl h
    · exact alike_ite (fun _ => hrest _ _) fun h => absurd rfl h
    · exact hrest _ _
  · rw [Bool.not_eq_true] at hoptional
    subst hoptional
    refine alike_ahead.bind fun t => ?_
    have htagged (chained : Bool) : Alike (rooms deeper) k ready (afterRound fun _ => fresh)
        (do
          if chained then
            fail "Optional chaining cannot appear in the tag of tagged template expressions"
          else
            let quasi ← template r true
            let e ← finish marker (.taggedTemplateExpression e quasi)
            (pure (.inl (e, chained)) : Parse ((Node × Bool) ⊕ (Node × Bool))))
        (do
          if chained then
            fail "Optional chaining cannot appear in the tag of tagged template expressions"
          else
            let quasi ← template r' true
            let e ← finish marker (.taggedTemplateExpression e quasi)
            pure (.inl (e, chained))) :=
      alike_ite (fun _ => alike_fail _) fun _ => (alike_template h _).anywhere.bind fun _ => (alike_finish _ _).bind fun _ =>
        alike_pure trivial
    split
    · exact alike_takeSeen.bind fun _ => alike_memberName.bind fun _ => (alike_finish _ _).bind fun _ => alike_pure trivial
    · refine alike_takeSeen.bind fun _ => (alike_withIn h.expression).bind fun _ => (alike_eat _).bind fun _ => ?_
      exact (alike_finish _ _).bind fun _ => alike_pure trivial
    · refine alike_ite (fun _ => hrest _ _) fun _ => (alike_arguments h).bind fun _ => ?_
      exact (alike_finish _ _).bind fun _ => alike_pure trivial
    · exact htagged _
    · exact htagged _
    · exact hrest _ _

theorem alike_withSubscripts (marker : Marker) (e : Node) (noCalls : Bool) :
    Alike (rooms deeper) k moved (fun _ => moved) (withSubscripts r marker e noCalls)
      (withSubscripts r' marker e noCalls) := by
  refine alike_laterLoop (A := subscriptLoop r marker noCalls) (B := subscriptLoop r' marker noCalls) (c := (e, false))
    (fun _ hk => alike_subscriptRound (h.mono (Nat.le_of_lt hk)) marker noCalls) fun c => ?_
  exact alike_ite (fun _ => alike_finish _ _) fun _ => alike_return _

theorem Reaches.primary : Alike (rooms deeper) k moved (fun _ => moved) (primary r) (primary r') :=
  Alike.later fun _ hk => alike_primary (h.mono (Nat.le_of_lt hk))

theorem alike_newExpression : Alike (rooms deeper) k ready (fun _ => moved) (newExpression r) (newExpression r') := by
  have hargs (marker : Marker) (callee : Node) : Alike (rooms deeper) k moved (fun _ => moved)
      (do
        let args ← if ← at? .leftParen then arguments r else pure []
        finish marker (.newExpression callee args))
      (do
        let args ← if ← at? .leftParen then arguments r' else pure []
        finish marker (.newExpression callee args)) :=
    alike_if (alike_at _) ((alike_arguments h).bind fun _ => alike_finish _ _) (alike_finish _ _)
  refine alike_start.bind fun marker => (alike_discard alike_take).bind fun _ => alike_if (alike_at _) (alike_fail _) ?_
  refine alike_start.bind fun _ => alike_ifWord (fun k' hk => h k' hk .newExpression) h.primary fun callee => ?_
  exact (alike_withSubscripts h _ _ _).bind fun _ => hargs _ _

theorem alike_leftHandSide : Alike (rooms deeper) k fresh (fun _ => moved) (leftHandSide r) (leftHandSide r') := by
  refine alike_start.bind fun _ => alike_if (alike_atWord _) ?_ ?_
  · exact (alike_newExpression h).bind fun _ => alike_withSubscripts h _ _ _
  · exact (alike_primary h).bind fun _ => alike_withSubscripts h _ _ _

/-! ## 7. Operations -/

omit h in
theorem alike_checkSimpleTarget (n : Node) :
    Alike (rooms deeper) k before (fun _ => before) (checkSimpleTarget n) (checkSimpleTarget n) := by
  unfold checkSimpleTarget
  split
  · refine alike_read (fun _ _ _ => rfl) fun _ => ?_
    exact alike_ite (fun _ => alike_failAt _ _) fun _ => alike_return _
  · exact alike_return _
  · exact alike_failAt _ _

omit h in
theorem alike_assignmentTarget (allowPattern : Bool) (n : Node) :
    Alike (rooms deeper) k before (fun _ => before) (assignmentTarget allowPattern n) (assignmentTarget allowPattern n) := by
  have hsimple : Alike (rooms deeper) k before (fun _ => before) (do checkSimpleTarget n; pure n)
      (do checkSimpleTarget n; pure n) :=
    (alike_checkSimpleTarget n).bind fun _ => alike_return _
  unfold assignmentTarget
  split
  · exact alike_ite (fun _ => alike_pattern n) fun _ => hsimple
  · exact alike_ite (fun _ => alike_pattern n) fun _ => hsimple
  · exact hsimple

theorem alike_unary : Alike (rooms deeper) k fresh (fun _ => moved) (unary r) (unary r') := by
  refine alike_start.bind fun marker => alike_ahead.bind fun t => ?_
  cases hunary : unaryOperator? t with
  | some operator =>
    have hseen : t.isEof = false := by cases t <;> first | rfl | cases hunary
    rw [hseen]
    refine (alike_discard alike_take).bind fun _ => (h.goal rfl).bind fun _ => alike_read (fun _ _ _ => rfl) fun _ => ?_
    exact alike_ite (fun _ => alike_failAt _ _) fun _ => alike_finish _ _
  | none =>
    cases hupdate : updateOperator? t with
    | some operator =>
      have hseen : t.isEof = false := by cases t <;> first | rfl | cases hupdate
      rw [hseen]
      refine (alike_discard alike_take).bind fun _ => (h.goal rfl).bind fun _ => ?_
      exact (alike_checkSimpleTarget _).bind fun _ => alike_finish _ _
    | none =>
      refine (alike_leftHandSide h).anywhere.bind fun e => alike_read (fun _ _ _ => rfl) fun p => ?_
      split
      · refine (alike_checkSimpleTarget _).bind fun _ => Alike.bind alike_takeMore fun _ => alike_finish _ _
      · exact alike_return _

theorem Reaches.unary : Alike (rooms deeper) k moved (fun _ => moved) (unary r) (unary r') :=
  Alike.later fun _ hk => alike_unary (h.mono (Nat.le_of_lt hk))

omit h in
theorem not_isEof_of_operator {noIn : Bool} {t : Token} {found : Infix × Nat} (h : infix? noIn t = some found) :
    t.isEof = false := by
  cases t <;> first | rfl | cases h

theorem alike_operatorRound (marker : Marker) (least : Nat) (left : Node) :
    Alike (rooms deeper) k fresh (afterRound fun _ => fresh) ((operatorLoop r marker least).round left)
      ((operatorLoop r' marker least).round left) := by
  refine alike_get (fun _ _ _ => rfl) fun p => ?_
  cases hinfix : infix? p.noIn p.current with
  | none => exact alike_pure trivial
  | some found =>
    rw [not_isEof_of_operator hinfix]
    refine alike_ite (fun _ => alike_pure trivial) fun _ => (alike_discard alike_take).bind fun _ => ?_
    exact alike_start.bind fun _ => h.unary.bind fun _ => (h.goal rfl).bind fun _ => (alike_finish _ _).bind fun _ =>
      alike_pure trivial

theorem alike_binaryRestFrom (marker : Marker) (left : Node) (least : Nat) :
    Alike (rooms deeper) k fresh (fun _ => fresh) (binaryRestFrom r marker left least)
      (binaryRestFrom r' marker left least) :=
  alike_runLoop (A := operatorLoop r marker least) (B := operatorLoop r' marker least) (c := left)
    fun _ hk => alike_operatorRound (h.mono hk) marker least

theorem Reaches.binaryRestFrom (marker : Marker) (left : Node) (least : Nat) :
    Alike (rooms deeper) k moved (fun _ => moved) (binaryRestFrom r marker left least)
      (binaryRestFrom r' marker left least) :=
  Alike.later fun _ hk => alike_binaryRestFrom (h.mono (Nat.le_of_lt hk)) marker left least

theorem alike_conditional : Alike (rooms deeper) k fresh (fun _ => moved) (conditional r) (conditional r') := by
  refine alike_start.bind fun _ => (alike_unary h).bind fun _ => (h.binaryRestFrom _ _ _).bind fun _ => ?_
  refine alike_if (alike_eatIf _) ?_ (alike_return _)
  exact (alike_withIn (h.goal rfl)).bind fun _ => (alike_eat _).bind fun _ => (h.goal rfl).bind fun _ => alike_finish _ _

theorem alike_assignment : Alike (rooms deeper) k fresh (fun _ => moved) (assignment r) (assignment r') := by
  refine alike_start.bind fun _ => (alike_conditional h).bind fun left => alike_if (alike_at _) ?_ ?_
  · split
    · exact alike_ite (fun _ => alike_unsupported _) fun _ => alike_unexpected
    · exact alike_unexpected
  · refine alike_ahead.bind fun t => ?_
    split
    · exact alike_return _
    · exact (alike_assignmentTarget _ _).bind fun _ => Alike.bind alike_takeMore fun _ => (h.goal rfl).bind fun _ =>
        alike_finish _ _

end

end GuestScript.Parser
