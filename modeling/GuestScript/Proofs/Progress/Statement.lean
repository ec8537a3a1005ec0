import GuestScript.Proofs.Progress.Expression
import GuestScript.Tree.Parser

/-!
# Statements and programs take tokens

A statement takes a token, and so do the cases of a switch and the statements of a block.

Every round of a loop of the lexer or of the parser that another round follows takes a character or a token. Goals that
are reached without a token between them get simpler (`Parser.rank`), so the levels that a program is parsed with
suffice. Neither the size of the text that bounds the loops nor the levels that bound the goals within goals decide what
a program is parsed to: with larger ones, and with anything in the place of the fault beyond the last level, it is parsed
to the same (`Parser.parsing_ends`).
-/

namespace GuestScript.Parser

open Stage

variable {deeper : Prop} {k : Nat} {before : Stage} {r r' : Reach}

/-! ## 1. Blocks and simple statements -/

section

variable (h : Reaches deeper k r r')

include h

theorem alike_items {goesOn : Parse Bool}
    (hgoes : ∀ k' < k, Alike (rooms deeper) k' fresh (fun _ => fresh) goesOn goesOn) :
    Alike (rooms deeper) k moved (fun _ => moved) (items r goesOn) (items r' goesOn) :=
  alike_collect hgoes fun k' hk _ => Alike.bind (h k' hk .item) fun _ => alike_return _

theorem alike_block : Alike (rooms deeper) k before (fun _ => moved) (block r) (block r') := by
  refine alike_start.bind fun _ => (alike_eat _).bind fun _ => ?_
  exact (alike_items h fun _ _ => alike_notAt _).bind fun _ => (alike_eat _).bind fun _ => alike_finish _ _

theorem alike_variableStatement :
    Alike (rooms deeper) k before (fun _ => moved) (variableStatement r) (variableStatement r') :=
  alike_start.bind fun _ => (alike_variableDeclaration h _).bind fun _ => alike_eatSemicolon.bind fun _ =>
    alike_finish _ _

theorem alike_parenthesized : Alike (rooms deeper) k before (fun _ => moved) (parenthesized r) (parenthesized r') :=
  (alike_eat _).bind fun _ => (alike_withIn h.expression).bind fun _ => (alike_eat _).bind fun _ => alike_return _

theorem alike_labeled (marker : Marker) (label : Node) (name : String) :
    Alike (rooms deeper) k moved (fun _ => moved) (labeled r marker label name) (labeled r' marker label name) := by
  refine alike_read (fun _ _ _ => rfl) fun p => alike_ite (fun _ => alike_failAt _ _) fun _ => ?_
  refine alike_takeMore.bind fun _ => alike_ahead.bind fun t => ?_
  refine alike_modifyThen (fun _ _ _ => rfl) (fun _ => ⟨rfl, rfl, rfl⟩) <| (h.goal rfl).bind fun _ => ?_
  exact alike_modifyThen (fun _ _ _ => rfl) (fun _ => ⟨rfl, rfl, rfl⟩) (alike_finish _ _)

omit h in
theorem alike_expressionOrLabeled
    (hk : Alike (rooms deeper) k fresh (fun _ => moved) (r .assignment) (r' .assignment)) (h : Reaches deeper k r r') :
    Alike (rooms deeper) k fresh (fun _ => moved) (expressionOrLabeled r) (expressionOrLabeled r') := by
  refine alike_start.bind fun _ => (alike_expression hk h).bind fun e => ?_
  dsimp only
  split
  · refine alike_if (alike_at _) (alike_labeled h _ _ _) ?_
    exact alike_eatSemicolon.bind fun _ => alike_finish _ _
  · exact alike_eatSemicolon.bind fun _ => alike_finish _ _

theorem alike_ifStatement : Alike (rooms deeper) k ready (fun _ => moved) (ifStatement r) (ifStatement r') := by
  refine alike_start.bind fun _ => (alike_discard alike_take).bind fun _ => (alike_parenthesized h).bind fun _ =>
    (h.goal rfl).bind fun _ => alike_if (alike_eatIfWord _) ?_ ?_
  · exact (alike_some (h.goal rfl)).bind fun _ => alike_finish _ _
  · exact (alike_return _).bind fun _ => alike_finish _ _

theorem alike_withStatement : Alike (rooms deeper) k ready (fun _ => moved) (withStatement r) (withStatement r') :=
  alike_start.bind fun _ => alike_read (fun _ _ _ => rfl) fun _ => alike_ite (fun _ => alike_fail _) fun _ =>
    (alike_discard alike_take).bind fun _ => (alike_parenthesized h).bind fun _ => (h.goal rfl).bind fun _ =>
      alike_finish _ _

/-! ## 2. Loops -/

theorem alike_loopBody : Alike (rooms deeper) k moved (fun _ => moved) (loopBody r) (loopBody r') :=
  alike_between (h.goal rfl) (fun _ _ _ => rfl) (fun _ => ⟨rfl, rfl, rfl⟩) (fun _ _ _ => rfl) fun _ => ⟨rfl, rfl, rfl⟩

theorem alike_whileStatement : Alike (rooms deeper) k ready (fun _ => moved) (whileStatement r) (whileStatement r') :=
  alike_start.bind fun _ => (alike_discard alike_take).bind fun _ => (alike_parenthesized h).bind fun _ =>
    (alike_loopBody h).bind fun _ => alike_finish _ _

theorem alike_doWhileStatement :
    Alike (rooms deeper) k ready (fun _ => moved) (doWhileStatement r) (doWhileStatement r') := by
  refine alike_start.bind fun _ => (alike_discard alike_take).bind fun _ => (alike_loopBody h).bind fun _ => ?_
  exact (alike_eatWord _).bind fun _ => (alike_parenthesized h).bind fun _ => (alike_discardIf _).bind fun _ =>
    alike_finish _ _

theorem alike_forInRest (marker : Marker) (left : Node) :
    Alike (rooms deeper) k moved (fun _ => moved) (forInRest r marker left) (forInRest r' marker left) :=
  alike_takeMore.bind fun _ => h.expression.bind fun _ => (alike_eat _).bind fun _ => (alike_loopBody h).bind fun _ =>
    alike_finish _ _

theorem alike_forRest (marker : Marker) (init : Option Node) :
    Alike (rooms deeper) k before (fun _ => moved) (forRest r marker init) (forRest r' marker init) := by
  refine (alike_eat _).bind fun _ => alike_if (alike_at _) ((alike_return _).bind fun test => ?_)
    ((alike_some h.expression).bind fun test => ?_)
  all_goals
    refine (alike_eat _).bind fun _ => alike_if (alike_at _) ((alike_return _).bind fun update => ?_)
      ((alike_some h.expression).bind fun update => ?_)
    all_goals exact (alike_eat _).bind fun _ => (alike_loopBody h).bind fun _ => alike_finish _ _

omit h in
theorem alike_checkForInHead (declaration : Node) :
    Alike (rooms deeper) k before (fun _ => before) (checkForInHead declaration) (checkForInHead declaration) := by
  unfold checkForInHead
  split
  · exact alike_fail _
  · exact alike_return _
  · exact alike_fail _
  · exact alike_unexpected

omit h in
theorem alike_withoutIn {α : Type} {after : α → Stage} {x y : Parse α} (h : Alike (rooms deeper) k before after x y) :
    Alike (rooms deeper) k before after (withoutIn x) (withoutIn y) :=
  alike_between h (fun _ _ _ => rfl) (fun _ => ⟨rfl, rfl, rfl⟩) (fun _ _ _ => rfl) fun _ => ⟨rfl, rfl, rfl⟩

theorem alike_forStatement : Alike (rooms deeper) k ready (fun _ => moved) (forStatement r) (forStatement r') := by
  refine alike_start.bind fun _ => (alike_discard alike_take).bind fun _ => (alike_eat _).bind fun _ =>
    alike_ahead.bind fun t => alike_if (alike_at _) (alike_forRest h _ _) ?_
  refine (alike_withoutIn (alike_ite (fun _ => alike_variableDeclaration h _) fun _ => h.expression)).bind fun head => ?_
  refine alike_if alike_atOf (alike_unsupported _) <| alike_if (alike_atWord _) ?_ (alike_forRest h _ _)
  refine alike_ite (fun _ => (alike_checkForInHead _).bind fun _ => alike_forInRest h _ _) fun _ => ?_
  exact (alike_assignmentTarget _ _).bind fun _ => alike_forInRest h _ _

/-! ## 3. Jumps -/

omit h in
theorem alike_checkJump (marker : Marker) (isBreak : Bool) (label : Option String) :
    Alike (rooms deeper) k before (fun _ => before) (checkJump marker isBreak label) (checkJump marker isBreak label) := by
  refine alike_read (fun _ _ _ => rfl) fun p => ?_
  dsimp only
  split
  · split
    · exact alike_failAt _ _
    · exact alike_ite (fun _ => alike_failAt _ _) fun _ => alike_return _
  · exact alike_ite (fun _ => alike_failAt _ _) fun _ => alike_return _

omit h in
theorem alike_jumpStatement : Alike (rooms deeper) k ready (fun _ => moved) jumpStatement jumpStatement :=
  alike_start.bind fun _ => alike_take.bind fun _ => alike_optionalLabel.bind fun _ =>
    (alike_checkJump _ _ _).bind fun _ => alike_eatSemicolon.bind fun _ => alike_finish _ _

theorem alike_returnStatement :
    Alike (rooms deeper) k ready (fun _ => moved) (returnStatement r) (returnStatement r') := by
  refine alike_start.bind fun _ => alike_read (fun _ _ _ => rfl) fun _ => alike_ite (fun _ => alike_fail _) fun _ => ?_
  refine (alike_discard alike_take).bind fun _ => alike_read (fun _ _ _ => rfl) fun _ => alike_ite (fun _ => ?_) fun _ => ?_
  · exact (alike_return _).bind fun _ => alike_eatSemicolon.bind fun _ => alike_finish _ _
  · exact (alike_some h.expression).bind fun _ => alike_eatSemicolon.bind fun _ => alike_finish _ _

theorem alike_throwStatement : Alike (rooms deeper) k ready (fun _ => moved) (throwStatement r) (throwStatement r') :=
  alike_start.bind fun _ => (alike_discard alike_take).bind fun _ => alike_read (fun _ _ _ => rfl) fun _ =>
    alike_ite (fun _ => alike_fail _) fun _ => h.expression.bind fun _ => alike_eatSemicolon.bind fun _ =>
      alike_finish _ _

/-! ## 4. Switches and faults -/

omit h in
theorem alike_caseGoesOn : Alike (rooms deeper) k before (fun _ => before) caseGoesOn caseGoesOn := by
  refine alike_ahead.bind fun t => ?_
  split <;> exact alike_pure (below_ifSeen _ _)

/-- The loop over the cases of a switch. -/
def caseLoop (reach : Reach) : Loop ParseError Parser (Bool × List Node) (List Node) where
  run bound c := switchCases reach bound c.1 c.2
  round c := do
    if ← at? .rightBrace then pure (.inr c.2)
    else
      let marker ← start
      let (test, isDefault) ←
        match ← advance with
        | .keyword .caseWord => do pure (some (← expression reach), false)
        | .keyword .defaultWord =>
          if c.1 then failAt "Multiple default clauses" (some marker.position)
          else pure (none, true)
        | _ => failAt "Unexpected token in switch body" (some marker.position)
      eat .colon
      let consequent ← items reach caseGoesOn
      let case ← finish marker (.switchCase test consequent)
      pure (.inl (c.1 || isDefault, case :: c.2))
  unroll bound c := by
    simp only [switchCases, bind_assoc]
    refine bind_congr fun closed => ?_
    simp only [ite_bind, bind_assoc, pure_bind, Sum.elim_inr]
    congr 1
    refine bind_congr fun marker => bind_congr fun t => ?_
    split
    · simp only [bind_assoc, pure_bind, Sum.elim_inl]
    · simp only [ite_bind, bind_assoc, pure_bind, failAt_bind, Sum.elim_inl]
    · simp only [failAt_bind]

theorem alike_caseRound (c : Bool × List Node) :
    Alike (rooms deeper) k fresh (afterRound fun _ => fresh) ((caseLoop r).round c) ((caseLoop r').round c) := by
  refine alike_if (alike_at _) (alike_pure trivial) <| alike_start.bind fun _ => alike_advance.bind fun t => ?_
  have hitems := alike_items h fun _ _ => alike_caseGoesOn
  split
  · refine h.expression.bind fun _ => (alike_return _).bind fun _ => (alike_eat _).bind fun _ => hitems.bind fun _ => ?_
    exact (alike_finish _ _).bind fun _ => alike_pure trivial
  · refine alike_ite (fun _ => alike_failAt _ _) fun _ => ?_
    refine (alike_return _).bind fun _ => (alike_eat _).bind fun _ => hitems.bind fun _ => ?_
    exact (alike_finish _ _).bind fun _ => alike_pure trivial
  · exact alike_failAt _ _

theorem alike_switchStatement :
    Alike (rooms deeper) k ready (fun _ => moved) (switchStatement r) (switchStatement r') := by
  refine alike_start.bind fun _ => (alike_discard alike_take).bind fun _ => (alike_parenthesized h).bind fun _ => ?_
  refine (alike_eat _).bind fun _ => alike_modifyThen (fun _ _ _ => rfl) (fun _ => ⟨rfl, rfl, rfl⟩) ?_
  refine alike_laterLoop (A := caseLoop r) (B := caseLoop r') (c := (false, []))
    (fun _ hk => alike_caseRound (h.mono (Nat.le_of_lt hk))) fun _ => ?_
  exact alike_modifyThen (fun _ _ _ => rfl) (fun _ => ⟨rfl, rfl, rfl⟩) <| (alike_eat _).bind fun _ => alike_finish _ _

theorem alike_catchClause : Alike (rooms deeper) k moved (fun _ => moved) (catchClause r) (catchClause r') := by
  refine alike_start.bind fun _ => alike_takeMore.bind fun _ => alike_if (alike_eatIf _) ?_ ?_
  · exact (h.goal rfl).bind fun _ => (alike_eat _).bind fun _ => (alike_return _).bind fun _ => (alike_block h).bind fun _ =>
      alike_finish _ _
  · exact (alike_return _).bind fun _ => (alike_block h).bind fun _ => alike_finish _ _

theorem alike_tryStatement : Alike (rooms deeper) k ready (fun _ => moved) (tryStatement r) (tryStatement r') := by
  refine alike_start.bind fun _ => (alike_discard alike_take).bind fun _ => (alike_block h).bind fun _ => ?_
  refine alike_if (alike_atWord _) ((alike_some (alike_catchClause h)).bind fun handler => ?_)
    ((alike_return _).bind fun handler => ?_)
  all_goals
    refine alike_if (alike_eatIfWord _) ((alike_some (alike_block h)).bind fun finalizer => ?_)
      ((alike_return _).bind fun finalizer => ?_)
    all_goals exact alike_ite (fun _ => alike_fail _) fun _ => alike_finish _ _

end

/-! ## 5. Statements and items -/

theorem alike_statement (hk : Alike (rooms deeper) k fresh (fun _ => moved) (r .assignment) (r' .assignment))
    (h : Reaches deeper k r r') :
    Alike (rooms deeper) k fresh (fun _ => moved) (statement r) (statement r') := by
  refine alike_start.bind fun marker => alike_ahead.bind fun t => ?_
  split
  case h_1 => exact alike_block h
  case h_2 => exact (alike_discard alike_take).bind fun _ => alike_finish _ _
  case h_3 => exact alike_variableStatement h
  case h_4 => exact alike_ifStatement h
  case h_5 => exact alike_forStatement h
  case h_6 => exact alike_whileStatement h
  case h_7 => exact alike_doWhileStatement h
  case h_8 | h_9 => exact alike_jumpStatement
  case h_10 => exact alike_returnStatement h
  case h_11 => exact alike_withStatement h
  case h_12 => exact alike_switchStatement h
  case h_13 => exact alike_throwStatement h
  case h_14 => exact alike_tryStatement h
  case h_15 => exact (alike_discard alike_take).bind fun _ => alike_eatSemicolon.bind fun _ => alike_finish _ _
  case h_16 =>
    exact alike_read (fun _ _ _ => rfl) fun _ => alike_ite (fun _ => alike_fail _) fun _ => alike_function h _ _
  case h_17 | h_18 | h_19 | h_22 => exact alike_fail _
  case h_20 | h_21 => exact alike_unsupported _
  case h_23 => exact (alike_expressionOrLabeled hk h).anywhere

theorem alike_item (hk : Alike (rooms deeper) k fresh (fun _ => moved) (r .statement) (r' .statement))
    (h : Reaches deeper k r r') :
    Alike (rooms deeper) k fresh (fun _ => moved) (item r) (item r') := by
  refine alike_start.bind fun marker => alike_ahead.bind fun t => ?_
  split
  · exact alike_function h _ _
  · exact alike_classLike h _ _
  · exact alike_variableStatement h
  · exact alike_variableStatement h
  · exact hk.anywhere

end GuestScript.Parser

namespace GuestScript

open Stage

namespace Parser

variable {deeper : Prop} {k m n : Nat} {r r' : Reach}

/-! ## 6. Goals -/

/-- A goal may be reached from one of higher rank before a token is taken. -/
def rank : Goal → Nat
  | .item => 3
  | .statement => 2
  | .assignment => 1
  | _ => 0

theorem rank_le (goal : Goal) : rank goal ≤ 3 := by
  cases goal <;> simp [rank.eq_def]

theorem alike_produce (h : Reaches deeper k r r') (goal : Goal)
    (hk : ∀ goal', rank goal' < rank goal →
      Alike (rooms deeper) k (stageBefore goal') (fun _ => stageAfter goal') (r goal') (r' goal')) :
    Alike (rooms deeper) k (stageBefore goal) (fun _ => stageAfter goal) (produce r goal) (produce r' goal) := by
  cases goal with
  | item => exact alike_item (hk .statement (by decide)) h
  | statement => exact alike_nested (alike_statement (hk .assignment (by decide)) h)
  | assignment => exact alike_nested (alike_assignment h)
  | unary => exact alike_nested (alike_unary h)
  | binaryRest marker left least => exact alike_nested (alike_binaryRestFrom h marker left least)
  | newExpression => exact alike_nested (alike_newExpression h)
  | leftHandSide => exact alike_leftHandSide h
  | bindingTarget => exact alike_bindingTarget h

/-- **Enough levels** are as good as more of them, whatever is beyond the last one: four for every token that is left. -/
theorem alike_reach_of_enough (beyond beyond' : Reach) : ∀ {m n k : Nat} {goal : Goal}, 4 * k + rank goal < m →
    4 * k + rank goal < n → Alike (rooms deeper) k (stageBefore goal) (fun _ => stageAfter goal)
      (reachFrom beyond m goal) (reachFrom beyond' n goal)
  | m + 1, n + 1, k, goal, hm, hn => by
    refine alike_produce (fun k' hk goal' => ?_) goal fun goal' hrank => ?_
    · have hle := rank_le goal'
      exact alike_reach_of_enough beyond beyond' (by omega) (by omega)
    · exact alike_reach_of_enough beyond beyond' (by omega) (by omega)

/-- Fewer levels do the same as more of them, or fail because of that. -/
theorem alike_reach_of_le : ∀ {m n : Nat}, m = n ∨ deeper ∧ m ≤ n → ∀ {k : Nat} {goal : Goal},
    Alike (rooms deeper) k (stageBefore goal) (fun _ => stageAfter goal) (reach m goal) (reach n goal)
  | 0, n, h, k, goal => by
    rcases h with rfl | ⟨hdeeper, _⟩
    · exact alike_fail _
    · exact fun p _ _ _ => .pardoned ⟨hdeeper, _, rfl⟩
  | m + 1, 0, h, _, _ => by
    rcases h with h | h
    · cases h
    · exact absurd h.2 (Nat.not_succ_le_zero m)
  | m + 1, n + 1, h, k, goal => by
    have hless : m = n ∨ deeper ∧ m ≤ n := h.imp Nat.succ.inj fun h => ⟨h.1, Nat.le_of_succ_le_succ h.2⟩
    exact alike_produce (fun _ _ _ => alike_reach_of_le hless) goal fun _ _ => alike_reach_of_le hless

theorem reaches_of_le (h : m = n ∨ deeper ∧ m ≤ n) : Reaches deeper k (reach m) (reach n) :=
  fun _ _ _ => alike_reach_of_le h

/-! ## 7. Loops -/

/-- Whether nothing is ahead. -/
def atEof : Parse Bool := do
  pure (← get).current.isEof

/-- The loops of the parser, given how the goals inside them are reached. -/
inductive IsLoop (reach : Reach) : {Carry Result : Type} → Loop ParseError Parser Carry Result → Prop where
  | tokens : IsLoop reach tokenSearch
  | program : IsLoop reach (bodyLoop reach atEof)
  | functionBody : IsLoop reach (bodyLoop reach (at? .rightBrace))
  | block : IsLoop reach (collecting (notAt .rightBrace) fun acc => do pure ((← reach .item) :: acc))
  | caseItems : IsLoop reach (collecting caseGoesOn fun acc => do pure ((← reach .item) :: acc))
  | cases : IsLoop reach (caseLoop reach)
  | members : IsLoop reach (memberLoop reach)
  | parameters : IsLoop reach (listing .rightParen (restElement reach) (bindingElement reach))
  | arrayPattern : IsLoop reach (arrayPatternLoop reach)
  | objectPattern : IsLoop reach (listing .rightBrace objectRest (patternProperty reach))
  | declarators (kind : VariableKind) (inHead : Bool) : IsLoop reach (declaratorLoop reach kind inHead)
  | expressions : IsLoop reach (commaLoop reach)
  | arguments : IsLoop reach (argumentLoop reach)
  | template (tagged : Bool) : IsLoop reach (partLoop reach tagged)
  | array : IsLoop reach (arrayLoop reach)
  | object : IsLoop reach (propertyLoop reach)
  | parentheses : IsLoop reach (parenLoop reach)
  | subscripts (marker : Marker) (noCalls : Bool) : IsLoop reach (subscriptLoop reach marker noCalls)
  | operators (marker : Marker) (least : Nat) : IsLoop reach (operatorLoop reach marker least)

theorem alike_atEof : Alike (rooms deeper) k fresh (fun _ => fresh) atEof atEof :=
  alike_read (fun _ _ _ => rfl) fun _ => alike_return _

/-- **Every loop of the parser takes a token in every round** that another one follows. -/
theorem IsLoop.takes {levels : Nat} {Carry Result : Type} {loop : Loop ParseError Parser Carry Result}
    (h : IsLoop (reach levels) loop) : loop.Takes (rooms False) := by
  have hreach (k : Nat) : Reaches False k (reach levels) (reach levels) := reaches_of_le (.inl rfl)
  have hitem (k : Nat) : Alike (rooms False) k fresh (fun _ => moved) (reach levels .item) (reach levels .item) :=
    hreach (k + 1) k (Nat.lt_succ_self k) .item
  have htarget (k : Nat) := alike_bindingElement (hreach (k + 1) k (Nat.lt_succ_self k) .bindingTarget) (hreach k)
  cases h with
  | tokens => exact Loop.takes_of_alike alike_tokenRound
  | program => exact Loop.takes_of_alike fun k => alike_bodyRound (hitem k) alike_atEof
  | functionBody => exact Loop.takes_of_alike fun k => alike_bodyRound (hitem k) (alike_atPlain _)
  | block =>
    exact Loop.takes_of_alike fun k => alike_collectRound (alike_notAt _) fun _ => (hitem k).bind fun _ => alike_return _
  | caseItems =>
    exact Loop.takes_of_alike fun k => alike_collectRound alike_caseGoesOn fun _ => (hitem k).bind fun _ => alike_return _
  | cases => exact Loop.takes_of_alike fun k => alike_caseRound (hreach k)
  | members => exact Loop.takes_of_alike fun k => alike_memberRound (hreach k)
  | parameters => exact Loop.takes_of_alike fun k => alike_listRound (alike_restElement (hreach k)) (htarget k)
  | arrayPattern => exact Loop.takes_of_alike fun k => alike_arrayPatternRound (hreach (k + 1))
  | objectPattern => exact Loop.takes_of_alike fun k => alike_listRound alike_objectRest (alike_patternProperty (hreach k))
  | declarators kind inHead => exact Loop.takes_of_alike fun k => alike_declaratorRound (hreach k) kind inHead
  | expressions => exact Loop.takes_of_alike fun k => alike_commaRound (hreach k)
  | arguments => exact Loop.takes_of_alike fun k => alike_argumentRound (hreach (k + 1))
  | template tagged => exact Loop.takes_of_alike fun k => alike_partRound (hreach k) tagged
  | array => exact Loop.takes_of_alike fun k => alike_arrayRound (hreach (k + 1))
  | object => exact Loop.takes_of_alike fun k => alike_propertyRound (hreach (k + 1))
  | parentheses => exact Loop.takes_of_alike fun k => alike_parenRound (hreach (k + 1))
  | subscripts marker noCalls => exact Loop.takes_of_alike fun k => alike_subscriptRound (hreach k) marker noCalls
  | operators marker least => exact Loop.takes_of_alike fun k => alike_operatorRound (hreach k) marker least

/-! ## 8. Programs -/

/-- What a parser that knows a size of its text parses a program to with a number of levels, and with something else
beyond the last one. -/
def parseWithin (beyond : Reach) (room levels : Nat) (source : String) (options : ParseOptions) : Except ParseError Node :=
  match isModernVersion? options.ecmaVersion with
  | none => .error (.of ("Invalid ecmaVersion: " ++ options.ecmaVersion) none)
  | some modern =>
    let production : Parse Node := do
      discard advance
      program (reachFrom beyond levels)
    match production ((ofText source modern options.allowReturn).placed room 0) with
    | .ok n _ => .ok n
    | .error e _ => .error e

theorem parse_eq_parseWithin (source : String) (options : ParseOptions) : ∃ beyond : Reach,
    parse source options = parseWithin beyond source.utf8ByteSize (4 * source.utf8ByteSize + 16) source options :=
  ⟨_, rfl⟩

theorem alike_program (beyond beyond' : Reach) (hm : 4 * k + 3 < m) (hn : 4 * k + 3 < n) :
    Alike (rooms deeper) k fresh (fun _ => fresh) (program (reachFrom beyond m)) (program (reachFrom beyond' n)) := by
  refine alike_start.bind fun _ => ?_
  have hitem {k' : Nat} (hk : k' ≤ k) : Alike (rooms deeper) k' fresh (fun _ => moved) (reachFrom beyond m .item)
      (reachFrom beyond' n .item) :=
    @alike_reach_of_enough _ beyond beyond' m n k' .item (show 4 * k' + 3 < m by omega) (show 4 * k' + 3 < n by omega)
  refine alike_loop (A := bodyLoop (reachFrom beyond m) atEof) (B := bodyLoop (reachFrom beyond' n) atEof)
    (c := (true, [])) (fun _ hk => alike_bodyRound (hitem hk) alike_atEof) fun _ => ?_
  exact alike_read (fun _ _ _ => rfl) fun _ => alike_return _

/-- **Sizes and levels beyond those that a program is parsed with** change nothing, and neither does what is beyond the
last level: no parser comes there. -/
theorem parseWithin_eq_parse {source : String} (beyond : Reach) {room levels : Nat}
    (hroom : source.utf8ByteSize ≤ room) (hlevels : 4 * source.utf8ByteSize + 4 ≤ levels) (options : ParseOptions) :
    parseWithin beyond room levels source options = parse source options := by
  obtain ⟨beyond', hparse⟩ := parse_eq_parseWithin source options
  rw [hparse]
  unfold parseWithin
  split
  · rfl
  · rename_i modern _
    have hlength : source.toList.length ≤ source.utf8ByteSize := by
      rw [← String.ofList_toList (s := source), String.utf8ByteSize_ofList, String.toList_ofList]
      exact length_le_utf8Len _
    have hsize : String.utf8Len source.toList = source.utf8ByteSize := by
      rw [← String.utf8ByteSize_ofList, String.ofList_toList]
    have hroomy {size : Nat} (h : source.utf8ByteSize ≤ size) :
        ((ofText source modern options.allowReturn).placed size 0).lexer.Roomy := by
      simpa [Lexer.Roomy, placed, ofText, Lexer.ofText, hsize] using h
    have htaken : Alike (rooms False) source.utf8ByteSize fresh (fun _ => fresh) (discard advance) (discard advance) :=
      alike_advance.bind fun _ => alike_pure trivial
    have hrun := Alike.agree (htaken.bind fun _ =>
      alike_program beyond beyond' (m := levels) (n := 4 * source.utf8ByteSize + 16) (by omega) (by omega))
      (⟨rfl, hroomy hroom, hroomy (Nat.le_refl _), .inl rfl⟩ : SamePlace False _ _) hlength
    dsimp only
    generalize (discard advance >>= fun _ => program (reachFrom beyond levels)) _ = x at hrun
    generalize (discard advance >>= fun _ => program (reachFrom beyond' (4 * source.utf8ByteSize + 16))) _ = y at hrun
    cases hrun with
    | ok | error => rfl
    | pardoned h => exact h.1.elim

/-- **Parsing comes to an end by itself.** Every round of a loop of the lexer that another one follows takes a character,
and every round of a loop of the parser takes a character or a token, whatever the state of the lexer or the parser and
however the goals inside the loop are reached. Neither a larger size of the text nor more levels change what a program is
parsed to, and neither does anything that stands beyond the last level: no parse comes there, so productions that call
each other come to an end by themselves. -/
theorem parsing_ends :
    (∀ {Carry Result : Type} {loop : Loop LexError Lexer Carry Result}, Lexer.IsLoop loop → loop.Takes Lexer.sizes) ∧
    (∀ {levels : Nat} {Carry Result : Type} {loop : Loop ParseError Parser Carry Result}, IsLoop (reach levels) loop →
      loop.Takes (rooms False)) ∧
    ∀ (source : String) (options : ParseOptions) (beyond : Reach) (room levels : Nat), source.utf8ByteSize ≤ room →
      4 * source.utf8ByteSize + 4 ≤ levels → parseWithin beyond room levels source options = parse source options :=
  ⟨Lexer.IsLoop.takes, IsLoop.takes,
    fun _ options beyond _ _ hroom hlevels => parseWithin_eq_parse beyond hroom hlevels options⟩

end Parser

end GuestScript
