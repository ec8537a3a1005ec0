import GuestScript.Proofs.Progress.Statement
import GuestScript.Proofs.Grammar.Program

/-!
# Operators and their precedences

Operands with operators between them make up a tree: below an operator, an operator of a higher precedence binds its
operands first, and among those of the same precedence the one to the left, or the one to the right where they are
powers. There is one such tree (`OperatorTree.Ordered.unique`), and it is the one that is parsed, unless too much nests
(`Parser.binaryExpression_ordered`).

The operand behind an operator is read at the depth that the operators before it have led to, whereas the operands are
given by reading all of them at the depth of the expression. So the runs are compared by `Parser.rooms`: what is read
deeper is the same, or a fault of nesting.
-/

namespace GuestScript

namespace Parser

/-! ## 1. Precedences -/

/-- The precedence of an operator. -/
def Infix.precedence : Infix → Nat
  | .logical .nullish | .logical .or => 1
  | .logical .and => 2
  | .binary .bitOr => 3
  | .binary .bitXor => 4
  | .binary .bitAnd => 5
  | .binary .equal | .binary .notEqual | .binary .strictEqual | .binary .strictNotEqual => 6
  | .binary .less | .binary .lessEqual | .binary .greater | .binary .greaterEqual | .binary .instanceOf
  | .binary .inside => 7
  | .binary .shiftLeft | .binary .shiftRight | .binary .shiftRightZero => 8
  | .binary .add | .binary .subtract => 9
  | .binary .multiply | .binary .divide | .binary .remainder => 10
  | .binary .power => 11
  | .binary (.other _) | .logical (.other _) => 0

/-- Whether an operator leans to the right. -/
def Infix.isPower : Infix → Bool
  | .binary .power => true
  | _ => false

/-- Whether an operator takes another one as its operand on the right, or on the left: one of a higher precedence, or of
the same one on the side that it leans to. -/
def Infix.Takes (outer : Infix) (onRight : Bool) (inner : Infix) : Prop :=
  outer.precedence < inner.precedence ∨ outer.precedence = inner.precedence ∧ outer.isPower = onRight

section

variable {o o' outer inner : Infix} {onRight : Bool}

theorem Infix.Takes.le (h : outer.Takes onRight inner) : outer.precedence ≤ inner.precedence :=
  h.elim Nat.le_of_lt fun h => Nat.le_of_eq h.1

theorem Infix.Takes.trans_le (h : outer.Takes onRight o) (hle : o.precedence ≤ o'.precedence) :
    outer.Takes onRight o' := by
  rcases h with h | ⟨h, hpower⟩
  · exact .inl (Nat.lt_of_lt_of_le h hle)
  · rcases Nat.lt_or_eq_of_le (h ▸ hle) with hlt | heq
    · exact .inl hlt
    · exact .inr ⟨heq, hpower⟩

theorem Infix.isPower_iff (o : Infix) : o.isPower = true ↔ o.precedence = 11 := by
  cases o with
  | binary b => cases b <;> simp [isPower, precedence.eq_def]
  | logical l => cases l <;> simp [isPower, precedence.eq_def]

/-- The operators that lean to the right have a precedence of their own. -/
theorem Infix.isPower_eq (h : o.precedence = o'.precedence) : o.isPower = o'.isPower := by
  rw [Bool.eq_iff_iff, isPower_iff, isPower_iff, h]

/-- An operator is not the operand of the other one on both sides. -/
theorem Infix.Takes.asymm (h : o.Takes true o') : ¬ o'.Takes false o := by
  intro h'
  have heq : o.precedence = o'.precedence := Nat.le_antisymm h.le h'.le
  rcases h with h | ⟨_, hpower⟩
  · exact Nat.ne_of_lt h heq
  · rcases h' with h' | ⟨_, hpower'⟩
    · exact Nat.ne_of_gt h' heq
    · rw [isPower_eq heq, hpower'] at hpower
      cases hpower

theorem infix_precedence {noIn : Bool} {t : Token} {precedence : Nat} (h : infix? noIn t = some (o, precedence)) :
    precedence = o.precedence ∧ 0 < o.precedence := by
  unfold infix? at h
  split at h
  case h_16 =>
    split at h
    · cases h
    · cases h
      exact ⟨rfl, by decide⟩
  case h_26 => cases h
  all_goals
    cases h
    exact ⟨rfl, by decide⟩

theorem Infix.rightPrecedence_eq (o : Infix) :
    o.rightPrecedence o.precedence = if o.isPower then 10 else o.precedence := by
  cases o with
  | binary b => cases b <;> rfl
  | logical l => rfl

end

end Parser

open GuestScript.Parser

/-! ## 2. Trees of operators -/

/-- Operands with operators between them. -/
inductive OperatorTree where
  | operand (n : Node)
  | node (operator : Infix) (left right : OperatorTree)

namespace OperatorTree

/-- The operator at the top. -/
def top : OperatorTree → Option Infix
  | operand _ => none
  | node operator _ _ => some operator

/-- The operand furthest to the left. -/
def first : OperatorTree → Node
  | operand n => n
  | node _ left _ => left.first

/-- The operators from left to right, and the operand behind each of them. -/
def others : OperatorTree → List (Infix × Node)
  | operand _ => []
  | node operator left right => left.others ++ (operator, right.first) :: right.others

/-- Whether every operator of a tree takes those at the top of its operands. -/
def Ordered : OperatorTree → Prop
  | operand _ => True
  | node operator left right =>
    left.Ordered ∧ right.Ordered ∧ (∀ o ∈ left.top, operator.Takes false o) ∧ ∀ o ∈ right.top, operator.Takes true o

/-- Whether a node of the grammar stands for a tree of operators. -/
inductive Builds : OperatorTree → Node → Prop where
  | operand (n : Node) : Builds (operand n) n
  | node {operator : Infix} {left right : OperatorTree} {l r : Node} (hleft : left.Builds l) (hright : right.Builds r)
      (span : Span) : Builds (node operator left right) (.mk (operator.kind l r) span)

variable {t t' : OperatorTree} {outer : Infix} {onRight : Bool}

/-- An operator that takes the one at the top of an ordered tree takes all of them. -/
theorem Ordered.takes (h : t.Ordered) (htop : ∀ o ∈ t.top, outer.Takes onRight o) :
    ∀ e ∈ t.others, outer.Takes onRight e.1 := by
  induction t with
  | operand n => exact nofun
  | node operator left right ihleft ihright =>
    obtain ⟨hleft, hright, hltop, hrtop⟩ := h
    have hnode : outer.Takes onRight operator := htop operator rfl
    intro e he
    rcases List.mem_append.1 he with he | he
    · exact ihleft hleft (fun o ho => hnode.trans_le (hltop o ho).le) e he
    · rcases List.mem_cons.1 he with rfl | he
      · exact hnode
      · exact ihright hright (fun o ho => hnode.trans_le (hrtop o ho).le) e he

/-- **There is one ordered tree** over operands and operators. -/
theorem Ordered.unique (h : t.Ordered) (h' : t'.Ordered) (hfirst : t.first = t'.first) (hothers : t.others = t'.others) :
    t = t' := by
  induction t generalizing t' with
  | operand n =>
    cases t' with
    | operand n' => exact congrArg operand hfirst
    | node operator' left' right' => simp [others] at hothers
  | node operator left right ihleft ihright =>
    cases t' with
    | operand n' => simp [others] at hothers
    | node operator' left' right' =>
      obtain ⟨hleft, hright, hltop, hrtop⟩ := h
      obtain ⟨hleft', hright', hltop', hrtop'⟩ := h'
      have hl := hleft.takes hltop
      have hr := hright.takes hrtop
      have hl' := hleft'.takes hltop'
      have hr' := hright'.takes hrtop'
      simp only [others] at hothers
      -- where the operator of one tree stands elsewhere in the other one, each takes the other on both sides
      rcases List.append_eq_append_iff.1 hothers with ⟨more, hmore, hrest⟩ | ⟨more, hmore, hrest⟩
      · cases more with
        | nil =>
          simp only [List.append_nil, List.nil_append, List.cons.injEq, Prod.mk.injEq] at hmore hrest
          obtain ⟨⟨rfl, hrfirst⟩, hrothers⟩ := hrest
          rw [ihleft hleft hleft' hfirst hmore.symm, ihright hright hright' hrfirst hrothers]
        | cons e more =>
          simp only [List.cons_append, List.cons.injEq] at hrest
          obtain ⟨rfl, hrest⟩ := hrest
          have hin' : operator'.Takes false operator := hl' (operator, right.first) (by simp [hmore])
          have hin : operator.Takes true operator' := hr (operator', right'.first) (by simp [hrest])
          exact (hin.asymm hin').elim
      · cases more with
        | nil =>
          simp only [List.append_nil, List.nil_append, List.cons.injEq, Prod.mk.injEq] at hmore hrest
          obtain ⟨⟨rfl, hrfirst⟩, hrothers⟩ := hrest
          rw [ihleft hleft hleft' hfirst hmore, ihright hright hright' hrfirst.symm hrothers.symm]
        | cons e more =>
          simp only [List.cons_append, List.cons.injEq] at hrest
          obtain ⟨rfl, hrest⟩ := hrest
          have hin : operator.Takes false operator' := hl (operator', right'.first) (by simp [hmore])
          have hin' : operator'.Takes true operator := hr' (operator, right.first) (by simp [hrest])
          exact (hin'.asymm hin).elim

end OperatorTree

namespace Parser

open Stage

/-! ## 3. Operators in a text -/

section

variable {o o' : Infix} {left right : OperatorTree}

/-- An operator that is left over on the right side of another one takes that one as its left side. -/
theorem Infix.takes_of_le_rightPrecedence (h : o'.precedence ≤ o.rightPrecedence o.precedence) : o'.Takes false o := by
  rw [rightPrecedence_eq] at h
  cases hpower : o.isPower with
  | true =>
    rw [hpower, if_pos rfl] at h
    exact .inl (Nat.lt_of_lt_of_eq (Nat.lt_succ_of_le h) ((isPower_iff o).1 hpower).symm)
  | false =>
    rw [hpower] at h
    rcases Nat.lt_or_eq_of_le h with hlt | heq
    · exact .inl hlt
    · exact .inr ⟨heq, (isPower_eq heq).trans hpower⟩

/-- An operator takes those that its right side is read for. -/
theorem Infix.takes_of_rightPrecedence_lt (h : o.rightPrecedence o.precedence < o'.precedence) : o.Takes true o' := by
  rw [rightPrecedence_eq] at h
  cases hpower : o.isPower with
  | true =>
    rw [hpower] at h
    have heleven : o.precedence ≤ o'.precedence := ((isPower_iff o).1 hpower).trans_le h
    exact (Nat.lt_or_eq_of_le heleven).imp id fun heq => ⟨heq, hpower⟩
  | false =>
    rw [hpower] at h
    exact .inl h

theorem ordered_node (hleft : left.Ordered) (hright : right.Ordered)
    (hltop : ∀ t ∈ left.top, o.Takes false t) (hrtop : ∀ t ∈ right.top, o.rightPrecedence o.precedence < t.precedence) :
    (OperatorTree.node o left right).Ordered :=
  ⟨hleft, hright, hltop, fun t ht => Infix.takes_of_rightPrecedence_lt (hrtop t ht)⟩

end

/-- An operator is taken, and the operand behind it is read. -/
def operandBehind (reach : Reach) : Parse (Marker × Node) := do
  discard advance
  let marker ← start
  pure (marker, ← unary reach)

/-- Operators, and the operands behind them as they are read one after the other. -/
inductive Links (reach : Reach) : Parser → List (Infix × Node) → Parser → Prop where
  | nil (p : Parser) : Links reach p [] p
  | cons {p p₁ p' : Parser} {operator : Infix} {precedence : Nat} {marker : Marker} {operand : Node}
      {rest : List (Infix × Node)} (hahead : infix? p.noIn p.current = some (operator, precedence))
      (hoperand : operandBehind reach p = .ok (marker, operand) p₁) (hrest : Links reach p₁ rest p') :
      Links reach p ((operator, operand) :: rest) p'

/-- A unary expression and the operators and operands after it. -/
def binaryExpression (reach : Reach) (marker : Marker) : Parse Node := do
  let operand ← unary reach
  binaryRestFrom reach marker operand 0

section

variable {r : Reach} {p p' q q' q'' : Parser} {read read' : List (Infix × Node)} {least levels limit k : Nat}
  {tree tree' : OperatorTree} {result : EStateM.Result ParseError Parser Node}

theorem Links.trans (h : Links r p read p') (h' : Links r p' read' q) : Links r p (read ++ read') q := by
  induction h with
  | nil => exact h'
  | cons hahead hoperand _ ih => exact .cons hahead hoperand (ih h')

/-- What has been read is the beginning of what can be read up to where no operator is ahead. -/
theorem Links.goes_on (h : Links r p read q) (h' : Links r p read' q') (hend : infix? q.noIn q.current = none) :
    ∃ rest, Links r q' rest q ∧ read = read' ++ rest := by
  induction h' generalizing read with
  | nil => exact ⟨read, h, rfl⟩
  | cons hahead' hoperand' _ ih =>
    cases h with
    | nil => cases hend.symm.trans hahead'
    | cons hahead hoperand hrest =>
      cases hahead.symm.trans hahead'
      cases hoperand.symm.trans hoperand'
      obtain ⟨rest, hlinks, hread⟩ := ih hrest
      exact ⟨rest, hlinks, congrArg _ hread⟩

/-- Where no operator is ahead, nothing more is read. -/
theorem Links.eq_of_end (h : Links r p read q) (hend : infix? p.noIn p.current = none) : read = [] ∧ q = p := by
  cases h with
  | nil => exact ⟨rfl, rfl⟩
  | cons hahead => cases hend.symm.trans hahead

/-- What becomes of the operators above a precedence after a tree, in a run that may be deeper than the one that reads
the operands one after the other. -/
inductive Climbs (r : Reach) (least : Nat) (tree : OperatorTree) (p q : Parser) :
    EStateM.Result ParseError Parser Node → Prop where
  | ok {n : Node} {p' q' : Parser} {read : List (Infix × Node)} {tree' : OperatorTree} (hlinks : Links r q read q')
      (hsame : SamePlace True p' q') (hdepth : p'.depth = p.depth) (hdepth' : q'.depth = q.depth)
      (hleft : (rooms True).left p' ≤ (rooms True).left p) (hbuilds : tree'.Builds n) (hfirst : tree'.first = tree.first)
      (hothers : tree'.others = tree.others ++ read) (hordered : tree'.Ordered)
      (htop : ∀ o ∈ tree'.top, least < o.precedence)
      (hend : ∀ o precedence, infix? q'.noIn q'.current = some (o, precedence) → precedence ≤ least) :
      Climbs r least tree p q (.ok n p')
  | stuck {e : ParseError} {p' q' q'' : Parser} {read : List (Infix × Node)} (hlinks : Links r q read q')
      (hahead : infix? q'.noIn q'.current ≠ none) (hoperand : operandBehind r q' = .error e q'') :
      Climbs r least tree p q (.error e p')
  | tooDeep {e : ParseError} {p' : Parser} (h : IsNestingFault e) : Climbs r least tree p q (.error e p')

/-- What has been read before. -/
theorem Climbs.after (h : Climbs r least tree' p' q' result) (hlinks : Links r q read q') (hdepth : p'.depth = p.depth)
    (hdepth' : q'.depth = q.depth) (hleft : (rooms True).left p' ≤ (rooms True).left p)
    (hfirst : tree'.first = tree.first) (hothers : tree'.others = tree.others ++ read) :
    Climbs r least tree p q result := by
  cases h with
  | ok hlinks' hsame hdepth₂ hdepth₂' hleft' hbuilds hfirst' hothers' hordered htop hend =>
    refine .ok (hlinks.trans hlinks') hsame (hdepth₂.trans hdepth) (hdepth₂'.trans hdepth') (hleft'.trans hleft) hbuilds
      (hfirst'.trans hfirst) ?_ hordered htop hend
    rw [hothers', hothers, List.append_assoc]
  | stuck hlinks' hahead hoperand => exact .stuck (hlinks.trans hlinks') hahead hoperand
  | tooDeep h => exact .tooDeep h

theorem nested_apply (x : Parse Node) (h : ¬ p.depth ≥ maxNesting) :
    nested x p = match x { p with depth := p.depth + 1 } with
      | .ok n p' => .ok n { p' with depth := p'.depth - 1 }
      | .error e p' => .error e p' := by
  unfold nested
  rw [get_bind_apply, if_neg h]
  change (do let result ← x; modify fun p : Parser => { p with depth := p.depth - 1 }; pure result : Parse Node)
    { p with depth := p.depth + 1 } = _
  simp only [Bind.bind, EStateM.bind]
  cases x { p with depth := p.depth + 1 } <;> rfl

theorem nested_tooDeep (x : Parse Node) (h : p.depth ≥ maxNesting) :
    ∃ e p', nested x p = .error e p' ∧ IsNestingFault e := by
  unfold nested
  rw [get_bind_apply, if_pos h]
  exact ⟨_, _, rfl, _, rfl⟩

/-- The operand behind an operator is the same one deeper in a text, unless it nests too deep there. -/
theorem alike_operandBehind (hle : levels ≤ limit) :
    Alike (rooms True) k ready (fun _ => moved) (operandBehind (reach levels)) (operandBehind (reach limit)) :=
  (alike_discard alike_take).bind fun _ => alike_start.bind fun _ =>
    (Reaches.unary (reaches_of_le (.inr ⟨trivial, hle⟩))).bind fun _ => alike_return _

theorem operandBehind_depth {x : Marker × Node} (hdepth : p.depth ≤ maxNesting)
    (h : operandBehind (reach levels) p = .ok x p') : p'.depth = p.depth := by
  have hgives : Gives p.depth (operandBehind (reach levels)) fun _ => True :=
    (keeps_discard keeps_advance).then fun _ => keeps_start.then fun _ =>
      (gives_unary (reach_sound levels) hdepth).bind fun _ _ => gives_pure trivial
  exact (hgives p x p' rfl h).1

theorem binaryRest_operator (reach : Reach) (marker : Marker) (bound : Nat) (left : Node) {operator : Infix}
    {precedence : Nat} (hahead : infix? p.noIn p.current = some (operator, precedence)) (h : ¬ precedence ≤ least) :
    binaryRest reach marker (bound + 1) left least p = (do
      let (rightMarker, operand) ← operandBehind reach
      let right ← reach (.binaryRest rightMarker operand (operator.rightPrecedence precedence))
      let left ← finish marker (operator.kind left right)
      binaryRest reach marker bound left least : Parse Node) p := by
  rw [binaryRest, get_bind_apply]
  simp only [hahead, if_neg h, operandBehind, bind_assoc, pure_bind]

/-- **The operators above a precedence** climb where no more than a given amount is left: a tree that the operator ahead
takes as its operand grows to one that is ordered. -/
def ClimbsWithin (limit k : Nat) : Prop :=
  ∀ {levels bound : Nat} {marker : Marker} {left : Node} {least : Nat} {tree : OperatorTree} {p q : Parser},
    levels ≤ limit → SamePlace True p q → p.depth ≤ maxNesting → (rooms True).left p ≤ k → (rooms True).left p < bound →
      tree.Builds left → tree.Ordered → (∀ o ∈ tree.top, least < o.precedence) →
        (∀ o precedence, infix? p.noIn p.current = some (o, precedence) → ∀ o' ∈ tree.top, o.Takes false o') →
          Climbs (reach limit) least tree p q (binaryRest (reach levels) marker bound left least p)

/-- The right side of an operation, one level deeper than its operator. -/
theorem climbs_right {o : Infix} {marker : Marker} {operand : Node} (ih : ClimbsWithin limit k) (hlevels : levels ≤ limit)
    (hsame : SamePlace True p q) (hleft : (rooms True).left p ≤ k) :
    Climbs (reach limit) (o.rightPrecedence o.precedence) (.operand operand) p q
      (reach levels (.binaryRest marker operand (o.rightPrecedence o.precedence)) p) := by
  cases levels with
  | zero => exact .tooDeep ⟨_, rfl⟩
  | succ levels =>
    change Climbs _ _ _ _ _ (nested (binaryRestFrom (reach levels) marker operand _) p)
    by_cases hdeep : p.depth ≥ maxNesting
    · obtain ⟨e, p', hfault, he⟩ := nested_tooDeep (binaryRestFrom (reach levels) marker operand
        (o.rightPrecedence o.precedence)) hdeep
      rw [hfault]
      exact .tooDeep he
    have hdeeper : SamePlace True { p with depth := p.depth + 1 } q :=
      ⟨hsame.eq, hsame.roomy, hsame.roomy', .inr ⟨trivial, Nat.le_succ_of_le hsame.depth_le⟩⟩
    have hclimbs : Climbs (reach limit) (o.rightPrecedence o.precedence) (.operand operand)
        { p with depth := p.depth + 1 } q (binaryRest (reach levels) marker (p.lexer.fuel + 1) operand
          (o.rightPrecedence o.precedence) { p with depth := p.depth + 1 }) :=
      ih (Nat.le_of_succ_le hlevels) hdeeper (Nat.lt_of_not_le hdeep) hleft hsame.lt_fuel.1 (.operand operand) trivial
        nofun nofun
    rw [nested_apply _ hdeep]
    change Climbs _ _ _ _ _ (match binaryRest (reach levels) marker (p.lexer.fuel + 1) operand _ _ with
      | .ok n p' => _
      | .error e p' => _)
    generalize binaryRest (reach levels) marker (p.lexer.fuel + 1) operand (o.rightPrecedence o.precedence)
      { p with depth := p.depth + 1 } = result at hclimbs
    cases hclimbs with
    | @ok n p' q' read tree' hlinks hsame' hdepth hdepth' hleft' hbuilds hfirst hothers hordered htop hend =>
      have hback : p'.depth - 1 = p.depth := by rw [hdepth]; rfl
      refine .ok hlinks ⟨hsame'.eq, hsame'.roomy, hsame'.roomy', .inr ⟨trivial, ?_⟩⟩ hback hdepth' hleft' hbuilds hfirst
        hothers hordered htop hend
      change q'.depth ≤ p'.depth - 1
      rw [hback, hdepth']
      exact hsame.depth_le
    | stuck hlinks hahead hoperand => exact .stuck hlinks hahead hoperand
    | tooDeep h => exact .tooDeep h

theorem climbsWithin (limit k : Nat) : ClimbsWithin limit k := by
  induction k using Nat.strong_induction_on with
  | _ k ih =>
    intro levels bound marker left least tree p q hlevels hsame hdepth hk hbound hbuilds hordered htop htakes
    obtain _ | bound := bound
    · omega
    have hq : infix? q.noIn q.current = infix? p.noIn p.current := by rw [hsame.eq]; rfl
    have hstops (hend : ∀ o precedence, infix? p.noIn p.current = some (o, precedence) → precedence ≤ least) :
        Climbs (reach limit) least tree p q (.ok left p) :=
      .ok (.nil q) hsame rfl rfl (Nat.le_refl _) hbuilds rfl (List.append_nil _).symm hordered htop (hq ▸ hend)
    cases hahead : infix? p.noIn p.current with
    | none =>
      rw [binaryRest, get_bind_apply]
      simp only [hahead]
      exact hstops fun _ _ h => by cases hahead.symm.trans h
    | some found =>
      obtain ⟨o, precedence⟩ := found
      by_cases hle : precedence ≤ least
      · rw [binaryRest, get_bind_apply]
        simp only [hahead, if_pos hle]
        exact hstops fun _ _ h => by cases hahead.symm.trans h; exact hle
      obtain ⟨rfl, _⟩ := infix_precedence hahead
      rw [binaryRest_operator _ _ _ _ hahead hle]
      have hoperand := alike_operandBehind hlevels p q hsame ⟨Nat.le_refl _, not_isEof_of_operator hahead⟩
      simp only [Bind.bind, EStateM.bind]
      generalize hr : operandBehind (reach levels) p = x, hr' : operandBehind (reach limit) q = x' at hoperand
      cases hoperand with
      | error => exact .stuck (.nil q) (by rw [hq, hahead]; exact Option.some_ne_none _) hr'
      | pardoned h => exact .tooDeep h.2
      | @ok a p₁ q₁ hsame₁ hfits₁ =>
        obtain ⟨rightMarker, n⟩ := a
        have hp₁ : (rooms True).left p₁ < (rooms True).left p := hfits₁
        have hdepth₁ := operandBehind_depth hdepth hr
        have hdepth₁' := operandBehind_depth (hsame.depth_le.trans hdepth) hr'
        have hright : Climbs (reach limit) (o.rightPrecedence o.precedence) (.operand n) p₁ q₁
            (reach levels (.binaryRest rightMarker n (o.rightPrecedence o.precedence)) p₁) :=
          climbs_right (ih _ (Nat.lt_of_lt_of_le hp₁ hk)) hlevels hsame₁ (Nat.le_refl _)
        dsimp only
        generalize reach levels (.binaryRest rightMarker n (o.rightPrecedence o.precedence)) p₁ = result at hright
        cases hright with
        | stuck hlinks hahead' hoperand => exact .stuck (.cons (hq.trans hahead) hr' hlinks) hahead' hoperand
        | tooDeep h => exact .tooDeep h
        | @ok right p₂ q₂ read rightTree hlinks hsame₂ hdepth₂ hdepth₂' hleft₂ hbuilds₂ hfirst₂ hothers₂ hordered₂ htop₂
            hend₂ =>
          have hp₂ : (rooms True).left p₂ < (rooms True).left p := Nat.lt_of_le_of_lt hleft₂ hp₁
          have hq₂ : infix? q₂.noIn q₂.current = infix? p₂.noIn p₂.current := by rw [hsame₂.eq]; rfl
          let span : Span := ⟨marker.start, p₂.lastStop, some (marker.position, p₂.lastStopPosition)⟩
          have hgoes : Climbs (reach limit) least (.node o tree rightTree) p₂ q₂
              (binaryRest (reach levels) marker bound (.mk (o.kind left right) span) least p₂) := by
            refine ih _ (Nat.lt_of_lt_of_le hp₂ hk) hlevels hsame₂ ((hdepth₂.trans hdepth₁).le.trans hdepth)
              (Nat.le_refl _) (by omega) (.node hbuilds hbuilds₂ span)
              (ordered_node hordered hordered₂ (htakes o _ hahead) htop₂) (fun o' h => ?_) fun o' precedence h o'' h' => ?_
            · cases h
              exact Nat.lt_of_not_le hle
            · cases h'
              obtain ⟨rfl, _⟩ := infix_precedence h
              exact Infix.takes_of_le_rightPrecedence (hend₂ o' _ (hq₂.trans h))
          refine hgoes.after (.cons (hq.trans hahead) hr' hlinks) (hdepth₂.trans hdepth₁) (hdepth₂'.trans hdepth₁')
            (Nat.le_of_lt hp₂) rfl ?_
          rw [OperatorTree.others, hothers₂, hfirst₂]
          rfl

/-- What becomes of a unary expression and the operators and operands after it. -/
theorem climbs_binaryExpression {first : Node} {p₀ : Parser} (marker : Marker) (hroomy : p.lexer.Roomy)
    (hdepth : p.depth ≤ maxNesting) (hfirst : unary (reach levels) p = .ok first p₀) :
    Climbs (reach levels) 0 (.operand first) p₀ p₀ (binaryExpression (reach levels) marker p) := by
  have hrun : binaryExpression (reach levels) marker p =
      binaryRest (reach levels) marker (p₀.lexer.fuel + 1) first 0 p₀ := by
    simp only [binaryExpression, Bind.bind, EStateM.bind, hfirst]
    rfl
  have hsame := alike_unary (reaches_of_le (.inl rfl) : Reaches True _ (reach levels) (reach levels)) p p
    (SamePlace.refl hroomy) (Nat.le_refl _)
  rw [hfirst] at hsame
  have hdepth₀ : p₀.depth = p.depth := (gives_unary (reach_sound levels) hdepth p first p₀ rfl hfirst).1
  cases hsame with
  | ok hsame =>
    rw [hrun]
    exact climbsWithin levels _ (Nat.le_refl levels) hsame (hdepth₀.le.trans hdepth) (Nat.le_refl _) hsame.lt_fuel.1
      (.operand first) trivial nofun nofun

end

end Parser

/-- Whether a node stands for the one ordered tree over operands and operators. -/
def IsOrderedBy (first : Node) (others : List (Infix × Node)) (n : Node) : Prop :=
  ∃ tree : OperatorTree, tree.Builds n ∧ tree.first = first ∧ tree.others = others ∧ tree.Ordered ∧
    ∀ tree' : OperatorTree, tree'.Ordered → tree'.first = first → tree'.others = others → tree' = tree

namespace Parser

/-- **A binary expression is ordered by precedence.** It is parsed to the one ordered tree over the unary expressions
and the operators that are read one after the other, up to where no operator is ahead; and wherever these can be read,
it is parsed, unless too much nests. -/
theorem binaryExpression_ordered (levels : Nat) (marker : Marker) {p : Parser} (hroomy : p.lexer.Roomy)
    (hdepth : p.depth ≤ maxNesting) :
    (∀ n p', binaryExpression (reach levels) marker p = .ok n p' →
      ∃ first p₀ others q, unary (reach levels) p = .ok first p₀ ∧ Links (reach levels) p₀ others q ∧
        infix? q.noIn q.current = none ∧ SamePlace False p' q ∧ IsOrderedBy first others n) ∧
    ∀ first p₀ others q, unary (reach levels) p = .ok first p₀ → Links (reach levels) p₀ others q →
      infix? q.noIn q.current = none →
        (∃ e p', binaryExpression (reach levels) marker p = .error e p' ∧ IsNestingFault e) ∨
          ∃ n p', binaryExpression (reach levels) marker p = .ok n p' ∧ SamePlace False p' q ∧
            IsOrderedBy first others n := by
  have hread {first : Node} {p₀ p' : Parser} {n : Node} (hfirst : unary (reach levels) p = .ok first p₀)
      (hrun : binaryExpression (reach levels) marker p = .ok n p') :
      ∃ others q, Links (reach levels) p₀ others q ∧ infix? q.noIn q.current = none ∧ SamePlace False p' q ∧
        IsOrderedBy first others n := by
    have h := climbs_binaryExpression marker hroomy hdepth hfirst
    rw [hrun] at h
    cases h with
    | @ok _ _ q read tree hlinks hsame hdepth hdepth' hleft hbuilds hfirst hothers hordered htop hend =>
      refine ⟨read, q, hlinks, ?_, ⟨hsame.eq, hsame.roomy, hsame.roomy', .inl (hdepth'.trans hdepth.symm)⟩, tree, hbuilds,
        hfirst, hothers, hordered, fun tree' h' hfirst' hothers' => ?_⟩
      · cases hahead : infix? q.noIn q.current with
        | none => rfl
        | some found =>
          obtain ⟨hprecedence, hpos⟩ := @infix_precedence found.1 _ _ found.2 hahead
          exact absurd (hprecedence ▸ hend found.1 found.2 hahead) (Nat.not_le_of_lt hpos)
      · exact h'.unique hordered (hfirst'.trans hfirst.symm) (hothers'.trans hothers.symm)
  refine ⟨fun n p' hrun => ?_, fun first p₀ others q hfirst hlinks hend => ?_⟩
  · obtain ⟨first, p₀, hfirst, _⟩ := bind_ok hrun
    obtain ⟨others, q, hlinks, hend, hsame, hordered⟩ := hread hfirst hrun
    exact ⟨first, p₀, others, q, hfirst, hlinks, hend, hsame, hordered⟩
  · have h := climbs_binaryExpression marker hroomy hdepth hfirst
    generalize hrun : binaryExpression (reach levels) marker p = result at h
    cases h with
    | tooDeep h => exact .inl ⟨_, _, rfl, h⟩
    | stuck hlinks' hahead hoperand =>
      obtain ⟨rest, hrest, _⟩ := hlinks.goes_on hlinks' hend
      cases hrest with
      | nil => exact absurd hend hahead
      | cons _ hoperand' => cases hoperand.symm.trans hoperand'
    | @ok n p' =>
      obtain ⟨others', q', hlinks', hend', hsame, hordered⟩ := hread hfirst hrun
      obtain ⟨rest, hrest, rfl⟩ := hlinks.goes_on hlinks' hend
      obtain ⟨rfl, rfl⟩ := hrest.eq_of_end hend'
      rw [List.append_nil]
      exact .inr ⟨n, p', rfl, hsame, hordered⟩

theorem binaryExpression_ordered_power :
    ∃ p n p', discard advance (ofText "a - b ** c" true false) = .ok () p ∧ p.lexer.Roomy ∧ p.depth ≤ maxNesting ∧
      binaryExpression (reach 20) { start := 0, position := p.currentPosition } p = .ok n p' ∧
        ∃ first p₀ others q, unary (reach 20) p = .ok first p₀ ∧ Links (reach 20) p₀ others q ∧
          infix? q.noIn q.current = none ∧ SamePlace False p' q ∧ IsOrderedBy first others n := by
  have hok : (match discard advance (ofText "a - b ** c" true false) with
      | .ok _ p => decide (p.lexer.offset + String.utf8Len p.lexer.rest ≤ p.lexer.size ∧ p.depth ≤ maxNesting) &&
        match binaryExpression (reach 20) { start := 0, position := p.currentPosition } p with
        | .ok _ _ => true
        | .error _ _ => false
      | .error _ _ => false) = true := by decide +kernel
  cases h : discard advance (ofText "a - b ** c" true false) with
  | error => simp [h] at hok
  | ok _ p =>
    cases hrun : binaryExpression (reach 20) { start := 0, position := p.currentPosition } p with
    | error => simp [h, hrun] at hok
    | ok n p' =>
      simp only [h, hrun, Bool.and_true, decide_eq_true_eq] at hok
      exact ⟨p, n, p', rfl, hok.1, hok.2, hrun, (binaryExpression_ordered 20 _ hok.1 hok.2).1 n p' hrun⟩

end Parser

end GuestScript
