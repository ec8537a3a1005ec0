import GuestScript.Proofs.Progress.Production
import GuestScript.Tree.Parser.Declaration

/-!
# Declarations take tokens

Patterns, variables, functions and classes take tokens, and every round of the lists in them does.
-/

namespace GuestScript.Parser

open Stage

variable {α : Type} {deeper : Prop} {k : Nat} {before : Stage} {r r' : Reach}

/-! ## 1. Loops -/

/-- The loop over the elements of a list that may end in a rest element. -/
def listing (close : Punctuator) (rest element : Parse α) : Loop ParseError Parser (List α) (List α) where
  run := restList close rest element
  round acc := do
    if ← at? close then pure (.inr acc)
    else if ← at? .ellipsis then pure (.inr ((← rest) :: acc))
    else
      let e ← element
      eatSeparator close
      pure (.inl (e :: acc))
  unroll bound acc := by
    simp only [restList, bind_assoc]
    refine bind_congr fun closed => ?_
    simp only [ite_bind, bind_assoc, pure_bind, Sum.elim_inl, Sum.elim_inr]

/-- The loop over the elements of an array pattern. -/
def arrayPatternLoop (reach : Reach) : Loop ParseError Parser (List (Option Node)) (List (Option Node)) where
  run := arrayPatternElements reach
  round acc := do
    if ← at? .rightBracket then pure (.inr acc)
    else if ← eatIf .comma then pure (.inl (none :: acc))
    else if ← at? .ellipsis then pure (.inr (some (← restElement reach) :: acc))
    else
      let e ← bindingElement reach
      eatSeparator .rightBracket
      pure (.inl (some e :: acc))
  unroll bound acc := by
    simp only [arrayPatternElements, bind_assoc]
    refine bind_congr fun closed => ?_
    simp only [ite_bind, bind_assoc, pure_bind, Sum.elim_inl, Sum.elim_inr]

/-- The loop over the variables of a declaration. -/
def declaratorLoop (reach : Reach) (kind : VariableKind) (inHead : Bool) :
    Loop ParseError Parser (List Node) (List Node) where
  run := moreDeclarators reach kind inHead
  round acc := do
    if ← eatIf .comma then pure (.inl ((← declarator reach kind inHead) :: acc)) else pure (.inr acc)
  unroll bound acc := by
    simp only [moreDeclarators, bind_assoc]
    refine bind_congr fun more => ?_
    simp only [ite_bind, bind_assoc, pure_bind, Sum.elim_inl, Sum.elim_inr]

/-- The loop over the statements of a body, the directives first. -/
def bodyLoop (reach : Reach) (atEnd : Parse Bool) : Loop ParseError Parser (Bool × List Node) (List Node) where
  run bound c := bodyItems reach atEnd bound c.1 c.2
  round c := do
    if ← atEnd then pure (.inr c.2)
    else
      let before ← get
      let isString := match before.current with | .string _ => true | _ => false
      let item ← reach .item
      match c.1, item with
      | true, .mk (.expressionStatement (.mk (.literal v raw regex) inner) _) span =>
        if isString then
          let text ← sourceSlice (before.currentStart + 1) (inner.stop - 1)
          if text = "use strict" then modify fun p => { p with strict := true }
          pure (.inl (true, .mk (.expressionStatement (.mk (.literal v raw regex) inner) (some text)) span :: c.2))
        else pure (.inl (false, item :: c.2))
      | _, _ => pure (.inl (false, item :: c.2))
  unroll bound c := by
    obtain ⟨prologue, acc⟩ := c
    simp only [bodyItems, bind_assoc]
    refine bind_congr fun closed => ?_
    simp only [ite_bind, bind_assoc, pure_bind, Sum.elim_inr]
    congr 1
    refine bind_congr fun before => bind_congr fun item => ?_
    split
    · rw [ite_bind, bind_assoc]
      refine if_congr Iff.rfl (bind_congr fun text => ?_) rfl
      simp only [ite_bind, bind_assoc, pure_bind, Sum.elim_inl]
    · simp only [pure_bind, Sum.elim_inl]

/-- The loop over the members of a class. -/
def memberLoop (reach : Reach) : Loop ParseError Parser (Bool × List Node) (List Node) where
  run bound c := classMembers reach bound c.1 c.2
  round c := do
    if ← at? .rightBrace then pure (.inr c.2)
    else if ← eatIf .semicolon then pure (.inl c)
    else
      let member ← classMember reach
      let isConstructor := isConstructorMember member
      if isConstructor && c.1 then failAt "A class may only have one constructor" member.position
      else pure (.inl (c.1 || isConstructor, member :: c.2))
  unroll bound c := by
    simp only [classMembers, bind_assoc]
    refine bind_congr fun closed => ?_
    simp only [ite_bind, bind_assoc, pure_bind, Sum.elim_inl, Sum.elim_inr]
    rfl

/-! ## 2. Property keys -/

section

variable (h : Reaches deeper k r r')

include h

theorem alike_propertyKey : Alike (rooms deeper) k before (fun _ => moved) (propertyKey r) (propertyKey r') := by
  refine alike_start.bind fun marker => alike_ahead.bind fun t => ?_
  split
  · refine alike_takeSeen.bind fun _ => (alike_withIn (h.goal rfl)).bind fun key => ?_
    exact (alike_eat _).bind fun _ => alike_pure trivial
  · exact (alike_literal _).bind fun _ => alike_pure trivial
  · exact (alike_literal _).bind fun _ => alike_pure trivial
  · exact alike_unsupported _
  · refine alike_propertyNameAhead.bind fun name => ?_
    cases name with
    | none => exact alike_unexpected
    | some name => exact alike_takeSeen.bind fun _ => (alike_finish _ _).bind fun _ => alike_pure trivial

omit h in
theorem alike_afterModifier :
    Alike (rooms deeper) k before (fun _ => before) afterModifier afterModifier := by
  refine alike_ahead.bind fun t => ?_
  split <;> exact alike_pure (below_ifSeen _ _)

/-! ## 3. Patterns -/

omit h in
theorem alike_eatSeparator (close : Punctuator) :
    Alike (rooms deeper) k moved (fun _ => moved) (eatSeparator close) (eatSeparator close) :=
  alike_if (alike_at close) (alike_pure trivial) (alike_eat _)

omit h in
theorem alike_bindingElement (hk : Alike (rooms deeper) k fresh (fun _ => moved) (r .bindingTarget) (r' .bindingTarget))
    (h : Reaches deeper k r r') :
    Alike (rooms deeper) k fresh (fun _ => moved) (bindingElement r) (bindingElement r') := by
  refine alike_start.bind fun _ => hk.bind fun target => alike_if (alike_eatIf _) ?_ (alike_pure trivial)
  exact (alike_withIn (h.goal rfl)).bind fun _ => alike_finish _ _

theorem alike_laterElement : Alike (rooms deeper) k moved (fun _ => moved) (bindingElement r) (bindingElement r') :=
  Alike.later fun k' hk => alike_bindingElement (h k' hk .bindingTarget) (h.mono (Nat.le_of_lt hk))

theorem alike_restElement : Alike (rooms deeper) k before (fun _ => moved) (restElement r) (restElement r') := by
  refine alike_start.bind fun _ => (alike_eat _).bind fun _ => (h.goal rfl).bind fun _ => ?_
  exact alike_if (alike_at _) (alike_fail _) (alike_finish _ _)

omit h in
theorem alike_listRound {close : Punctuator} {rest rest' element element' : Parse α}
    (hrest : Alike (rooms deeper) k ready (fun _ => moved) rest rest')
    (helement : Alike (rooms deeper) k fresh (fun _ => moved) element element') (acc : List α) :
    Alike (rooms deeper) k fresh (afterRound fun _ => fresh) ((listing close rest element).round acc)
      ((listing close rest' element').round acc) := by
  refine alike_if (alike_at _) (alike_pure trivial) <| alike_if (alike_at _) (hrest.bind fun _ => alike_pure trivial) ?_
  exact helement.bind fun e => (alike_eatSeparator _).bind fun _ => alike_pure trivial

omit h in
theorem alike_arrayPatternRound (h : Reaches deeper (k + 1) r r') (acc : List (Option Node)) :
    Alike (rooms deeper) k fresh (afterRound fun _ => fresh) ((arrayPatternLoop r).round acc)
      ((arrayPatternLoop r').round acc) := by
  have hinner : Reaches deeper k r r' := h.mono (Nat.le_succ k)
  refine alike_if (alike_at _) (alike_pure trivial) <| alike_if (alike_eatIf _) (alike_pure trivial) <|
    alike_if (alike_at _) ((alike_restElement hinner).bind fun _ => alike_pure trivial) ?_
  exact (alike_bindingElement (h k (Nat.lt_succ_self k) .bindingTarget) hinner).bind fun e =>
    (alike_eatSeparator _).bind fun _ => alike_pure trivial

theorem alike_arrayPattern : Alike (rooms deeper) k before (fun _ => moved) (arrayPattern r) (arrayPattern r') := by
  refine alike_start.bind fun _ => (alike_eat _).bind fun _ => ?_
  refine alike_laterLoop (A := arrayPatternLoop r) (B := arrayPatternLoop r')
    (fun k' hk => alike_arrayPatternRound (h.mono hk)) fun elements => ?_
  exact (alike_eat _).bind fun _ => alike_finish _ _

omit h in
theorem alike_shorthandName (key : Node) (computed : Bool) :
    Alike (rooms deeper) k before (fun _ => before) (shorthandName key computed) (shorthandName key computed) := by
  unfold shorthandName
  split
  · refine alike_read (fun _ _ _ => rfl) fun _ => ?_
    exact alike_ite (fun _ => alike_unexpected) fun _ => alike_pure (below_refl _)
  · exact alike_unexpected

theorem alike_patternProperty :
    Alike (rooms deeper) k before (fun _ => moved) (patternProperty r) (patternProperty r') := by
  refine alike_start.bind fun _ => (alike_propertyKey h).bind fun key => alike_if (alike_eatIf _) ?_ ?_
  · exact (alike_laterElement h).bind fun _ => alike_finish _ _
  · refine (alike_shorthandName _ _).bind fun name => (alike_checkBinding _).bind fun _ => ?_
    refine alike_if (alike_eatIf _) ?_ (alike_finish _ _)
    exact (alike_withIn (h.goal rfl)).bind fun _ => (alike_finish _ _).bind fun _ => alike_finish _ _

omit h in
theorem alike_objectRest : Alike (rooms deeper) k ready (fun _ => moved) objectRest objectRest :=
  alike_start.bind fun _ => (alike_discard alike_take).bind fun _ => alike_bindingIdentifier.bind fun _ =>
    alike_finish _ _

theorem alike_objectPattern : Alike (rooms deeper) k before (fun _ => moved) (objectPattern r) (objectPattern r') := by
  refine alike_start.bind fun _ => (alike_eat _).bind fun _ => ?_
  refine alike_laterLoop (A := listing _ _ (patternProperty r)) (B := listing _ _ (patternProperty r'))
    (fun k' hk => alike_listRound alike_objectRest (alike_patternProperty (h.mono (Nat.le_of_lt hk)))) fun _ => ?_
  exact (alike_eat _).bind fun _ => alike_finish _ _

theorem alike_bindingTarget : Alike (rooms deeper) k before (fun _ => moved) (bindingTarget r) (bindingTarget r') :=
  alike_if (alike_at _) ((alike_requireModern _).bind fun _ => alike_arrayPattern h) <|
    alike_if (alike_at _) ((alike_requireModern _).bind fun _ => alike_objectPattern h) alike_bindingIdentifier

/-! ## 4. Variables -/

omit h in
theorem alike_atOf : Alike (rooms deeper) k before (fun _ => before) atOf atOf := by
  refine alike_ahead.bind fun t => ?_
  split <;> exact alike_pure (below_ifSeen _ _)

theorem alike_initializer (kind : VariableKind) (inHead : Bool) (id : Node) :
    Alike (rooms deeper) k moved (fun _ => moved) (initializer r kind inHead id) (initializer r' kind inHead id) := by
  refine alike_if (alike_eatIf _) ((h.goal rfl).bind fun _ => alike_pure trivial) ?_
  refine (alike_atWord _).bind fun isIn => alike_atOf.bind fun isOf => ?_
  exact alike_ite (fun _ => alike_pure trivial) fun _ => alike_ite (fun _ => alike_fail _) fun _ =>
    alike_ite (fun _ => alike_fail _) fun _ => alike_pure trivial

theorem alike_declarator (kind : VariableKind) (inHead : Bool) :
    Alike (rooms deeper) k moved (fun _ => moved) (declarator r kind inHead) (declarator r' kind inHead) := by
  refine alike_start.bind fun _ => (h.goal rfl).bind fun id => alike_ite (fun _ => alike_failAt _ _) fun _ => ?_
  exact (alike_initializer h kind inHead id).bind fun _ => alike_finish _ _

theorem alike_declaratorRound (kind : VariableKind) (inHead : Bool) (acc : List Node) :
    Alike (rooms deeper) k fresh (afterRound fun _ => fresh) ((declaratorLoop r kind inHead).round acc)
      ((declaratorLoop r' kind inHead).round acc) :=
  alike_if (alike_eatIf _) ((alike_declarator h kind inHead).bind fun _ => alike_pure trivial) (alike_pure trivial)

theorem alike_variableDeclaration (inHead : Bool) :
    Alike (rooms deeper) k before (fun _ => moved) (variableDeclaration r inHead) (variableDeclaration r' inHead) := by
  have hrest (marker : Marker) (kind : VariableKind) : Alike (rooms deeper) k (before.ifSeen true) (fun _ => moved)
      (do
        if kind ≠ .var then requireModern "Lexical declarations"
        discard advance
        let first ← declarator r kind inHead
        let declarators ← moreDeclarators r kind inHead ((← get).lexer.fuel + 1) [first]
        finish marker (.variableDeclaration declarators.reverse kind))
      (do
        if kind ≠ .var then requireModern "Lexical declarations"
        discard advance
        let first ← declarator r' kind inHead
        let declarators ← moreDeclarators r' kind inHead ((← get).lexer.fuel + 1) [first]
        finish marker (.variableDeclaration declarators.reverse kind)) := by
    have htaken : Alike (rooms deeper) k (before.ifSeen true) (fun _ => moved) (discard advance) (discard advance) :=
      alike_takeSeen
    refine alike_ite (fun _ => (alike_requireModern _).bind fun _ => ?_) fun _ => ?_
    all_goals
      refine htaken.bind fun _ => (alike_declarator h kind inHead).bind fun first => ?_
      exact alike_laterLoop (A := declaratorLoop r kind inHead) (B := declaratorLoop r' kind inHead)
        (fun k' hk => alike_declaratorRound (h.mono (Nat.le_of_lt hk)) kind inHead) fun _ => alike_finish _ _
  refine alike_start.bind fun marker => alike_ahead.bind fun t => ?_
  split
  case h_4 => exact alike_unexpected.bind fun kind => hrest marker kind
  all_goals exact (alike_pure (below_refl _)).bind fun kind => hrest marker kind

/-! ## 5. Functions -/

omit h in
theorem alike_bodyRound (hk : Alike (rooms deeper) k fresh (fun _ => moved) (r .item) (r' .item)) {atEnd : Parse Bool}
    (hend : Alike (rooms deeper) k fresh (fun _ => fresh) atEnd atEnd) (c : Bool × List Node) :
    Alike (rooms deeper) k fresh (afterRound fun _ => fresh) ((bodyLoop r atEnd).round c)
      ((bodyLoop r' atEnd).round c) := by
  refine alike_if hend (alike_pure trivial) <| alike_read (fun _ _ _ => rfl) fun p => hk.bind fun item => ?_
  dsimp only
  split
  · refine alike_ite (fun _ => (alike_sourceSlice _ _).bind fun text => alike_ite (fun _ => ?_) fun _ => ?_)
      fun _ => alike_pure trivial
    · exact alike_modifyThen (fun _ _ _ => rfl) (fun _ => ⟨rfl, rfl, rfl⟩) (alike_pure trivial)
    · exact alike_pure trivial
  · exact alike_pure trivial

theorem alike_functionBody : Alike (rooms deeper) k before (fun _ => moved) (functionBody r) (functionBody r') := by
  refine alike_start.bind fun _ => (alike_eat _).bind fun _ => alike_read (fun _ _ _ => rfl) fun _ => ?_
  refine alike_laterLoop (A := bodyLoop r (at? .rightBrace)) (B := bodyLoop r' (at? .rightBrace)) (c := (true, []))
    (fun k' hk => alike_bodyRound (h k' hk .item) (alike_atPlain _)) fun _ => ?_
  exact alike_modifyThen (fun _ _ _ => rfl) (fun _ => ⟨rfl, rfl, rfl⟩) <| (alike_eat _).bind fun _ => alike_finish _ _

theorem alike_parameters : Alike (rooms deeper) k before (fun _ => moved) (parameters r) (parameters r') := by
  refine (alike_eat _).bind fun _ => ?_
  refine alike_laterLoop (A := listing _ (restElement r) (bindingElement r))
    (B := listing _ (restElement r') (bindingElement r')) (fun k' hk =>
      alike_listRound (alike_restElement (h.mono (Nat.le_of_lt hk)))
        (alike_bindingElement (h k' hk .bindingTarget) (h.mono (Nat.le_of_lt hk)))) fun _ => ?_
  exact (alike_eat _).bind fun _ => alike_return _

theorem alike_functionRest (form : FunctionForm) (id : Option Node) :
    Alike (rooms deeper) k before (fun _ => moved) (functionRest r form id) (functionRest r' form id) :=
  alike_inFunction <| (alike_parameters h).bind fun _ => (alike_functionBody h).bind fun _ => alike_pure trivial

theorem alike_function (marker : Marker) (form : FunctionForm) :
    Alike (rooms deeper) k before (fun _ => moved) (function r marker form) (function r' marker form) := by
  have hrest (named : Bool) : Alike (rooms deeper) k moved (fun _ => moved)
      (do
        let id ← if named then some <$> bindingIdentifier else pure none
        finish marker (← functionRest r form id))
      (do
        let id ← if named then some <$> bindingIdentifier else pure none
        finish marker (← functionRest r' form id)) := by
    refine alike_ite (fun _ => ?_) fun _ => ?_
    · exact (alike_some alike_bindingIdentifier).bind fun _ => (alike_functionRest h _ _).bind fun _ =>
        alike_finish _ _
    · exact (alike_functionRest h _ _).bind fun _ => alike_finish _ _
  refine (alike_eatWord _).bind fun _ => alike_if (alike_at _) (alike_unsupported _) ?_
  exact alike_ite (fun _ => (alike_return _).bind hrest) fun _ => (alike_notAt _).bind hrest

theorem alike_method (marker : Marker) :
    Alike (rooms deeper) k before (fun _ => moved) (method r marker) (method r' marker) :=
  (alike_functionRest h _ _).bind fun _ => alike_finish _ _

omit h in
theorem alike_checkAccessor (kind : PropertyKind) (value : Node) :
    Alike (rooms deeper) k before (fun _ => before) (checkAccessor kind value) (checkAccessor kind value) := by
  unfold checkAccessor
  dsimp only
  split
  case h_3 | h_5 => exact alike_pure (below_refl _)
  all_goals exact alike_failAt _ _

theorem alike_arrowBody (marker : Marker) (params : List Node) :
    Alike (rooms deeper) k before (fun _ => moved) (arrowBody r marker params) (arrowBody r' marker params) := by
  refine (alike_requireModern _).bind fun _ => (alike_eat _).bind fun _ => alike_read (fun _ _ _ => rfl) fun p => ?_
  refine Alike.bind (alike_inFunction ?_) fun _ => alike_finish _ _
  refine alike_if (alike_at _) ((alike_functionBody h).bind fun _ => alike_return _) ?_
  exact alike_modifyThen (fun _ _ _ => rfl) (fun _ => ⟨rfl, rfl, rfl⟩) <| (h.goal rfl).bind fun _ => alike_return _

/-! ## 6. Classes -/

theorem alike_memberHead : Alike (rooms deeper) k before (fun _ => moved) (memberHead r) (memberHead r') := by
  refine alike_start.bind fun _ => (alike_propertyKey h).bind fun _ => alike_afterModifier.bind fun _ => ?_
  refine alike_ite (fun _ => alike_if (alike_at _) (alike_failThen _ _ _) <| alike_start.bind fun _ =>
    (alike_propertyKey h).bind fun _ => (alike_return _).bind fun head => ?_) fun _ => (alike_return _).bind fun head => ?_
  -- an accessor has its key behind its modifier
  all_goals
    refine alike_ite (fun _ => alike_afterModifier.bind fun _ => alike_ite (fun _ => ?_) fun _ => alike_return _)
      fun _ => alike_return _
    refine alike_ite (fun _ => alike_unsupported _) fun _ => ?_
    exact alike_start.bind fun _ => (alike_propertyKey h).bind fun _ => alike_return _

theorem alike_classMethod (marker : Marker) (head : MemberHead) :
    Alike (rooms deeper) k before (fun _ => moved) (classMethod r marker head) (classMethod r' marker head) := by
  refine (alike_method h _).bind fun value => ?_
  split
  · refine alike_ite (fun _ => alike_failAt _ _) fun _ => (alike_checkAccessor _ _).bind fun _ => ?_
    exact alike_finish _ _
  · exact alike_finish _ _

theorem alike_classField (marker : Marker) (head : MemberHead) :
    Alike (rooms deeper) k moved (fun _ => moved) (classField r marker head) (classField r' marker head) := by
  refine alike_ite (fun _ => alike_failAt _ _) fun _ => alike_if (alike_eatIf _) ?_ ?_
  · exact (alike_some (alike_inFunction (h.goal rfl))).bind fun _ => alike_eatSemicolon.bind fun _ => alike_finish _ _
  · exact alike_eatSemicolon.bind fun _ => alike_finish _ _

theorem alike_classMember : Alike (rooms deeper) k before (fun _ => moved) (classMember r) (classMember r') := by
  refine alike_start.bind fun _ => alike_if (alike_at _) (alike_unsupported _) <| (alike_memberHead h).bind fun head => ?_
  exact alike_if (alike_at _) (alike_classMethod h _ _) <| alike_ite (fun _ => alike_unexpected) fun _ =>
    alike_classField h _ _

theorem alike_memberRound (c : Bool × List Node) :
    Alike (rooms deeper) k fresh (afterRound fun _ => fresh) ((memberLoop r).round c) ((memberLoop r').round c) := by
  refine alike_if (alike_at _) (alike_pure trivial) <| alike_if (alike_eatIf _) (alike_pure trivial) ?_
  exact (alike_classMember h).bind fun member => alike_ite (fun _ => alike_failAt _ _) fun _ => alike_pure trivial

theorem alike_classLike (marker : Marker) (form : ClassForm) :
    Alike (rooms deeper) k before (fun _ => moved) (classLike r marker form) (classLike r' marker form) := by
  have hstrict (strict : Bool) : Alike (rooms deeper) k moved (fun _ => moved)
      (modify fun p => { p with strict := strict }) (modify fun p => { p with strict := strict }) :=
    alike_modify (fun _ _ _ => rfl) fun _ => ⟨rfl, rfl, rfl⟩
  have hmembers (strict : Bool) (id superClass : Option Node) : Alike (rooms deeper) k moved (fun _ => moved)
      (do
        let bodyMarker ← start
        eat .leftBrace
        let members ← classMembers r ((← get).lexer.fuel + 1) false []
        eat .rightBrace
        let body ← finish bodyMarker (.classBody members.reverse)
        modify fun p => { p with strict := strict }
        finish marker (.classLike form id superClass body))
      (do
        let bodyMarker ← start
        eat .leftBrace
        let members ← classMembers r' ((← get).lexer.fuel + 1) false []
        eat .rightBrace
        let body ← finish bodyMarker (.classBody members.reverse)
        modify fun p => { p with strict := strict }
        finish marker (.classLike form id superClass body)) := by
    refine alike_start.bind fun _ => (alike_eat _).bind fun _ => ?_
    refine alike_laterLoop (A := memberLoop r) (B := memberLoop r') (c := (false, []))
      (fun k' hk => alike_memberRound (h.mono (Nat.le_of_lt hk))) fun members => ?_
    exact (alike_eat _).bind fun _ => (alike_finish _ _).bind fun _ => (hstrict strict).bind fun _ => alike_finish _ _
  refine (alike_requireModern _).bind fun _ => (alike_eatWord _).bind fun _ => alike_read (fun _ _ _ => rfl) fun p => ?_
  refine (hstrict true).bind fun _ => alike_identifierAhead.bind fun name => ?_
  refine alike_ite (fun _ => (alike_some alike_bindingIdentifier).bind fun id => ?_) fun _ =>
    alike_ite (fun _ => alike_unexpectedThen _ _) fun _ => (alike_return _).bind fun id => ?_
  all_goals
    exact alike_if (alike_eatIfWord _) ((alike_some (h.goal rfl)).bind fun _ => hmembers _ _ _)
      ((alike_return _).bind fun _ => hmembers _ _ _)

end

end GuestScript.Parser
