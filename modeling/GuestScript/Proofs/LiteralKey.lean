import GuestScript.Proofs.Count
import GuestScript.Proofs.Grammar.Declaration
import GuestScript.Proofs.Lowered
import GuestScript.Proofs.Number.Order
import GuestScript.Proofs.Progress.Production

/-!
# Keys that are literals

A property key may be a literal, and a literal in brackets is an expression that is computed. Both name the same
property: the text of the value of the literal (`literal_keys`). The two ways meet nowhere in the code. A literal key
becomes a number or a string of a document, and that is spelled when the tree is lowered (`literalKey`); one in brackets
is read as an expression, and the value of its code is converted to a key when it runs.

* `Parser.propertyKey_literal`: either way the key is the node of the literal.
* `Parser.objectProperty_literal`, `Parser.patternProperty_literal`, `Parser.classMember_literal`: what is read at the
  key has it as its key.
* `spells_literalName`: the name that it is lowered to comes down to the text of its value, and counts a step at most.

A number that is too large for a double is left out, since it is none in a document.
-/

namespace GuestScript

variable {mark : Punctuator} {r : Parser} {computed : Bool} {levels : Nat}

/-! ## 1. Literals -/

/-- The text of the value of a literal that may be a key: a string, or a finite number. -/
def Token.keyText? : Token → Option String
  | .number x => if x.isFinite then some (Number.text x) else none
  | .string s => some s
  | _ => none

/-- The value of a literal in a document. -/
def Token.document : Token → Json
  | .number x => Parser.numberValue x
  | .string s => .string s
  | _ => .null

theorem Token.keyText_cases {t : Token} {name : String} (h : t.keyText? = some name) :
    (∃ x : Float, x.isFinite = true ∧ t = .number x ∧ Number.text x = name) ∨ t = .string name := by
  cases t with
  | number x =>
    simp only [keyText?, Option.ite_none_right_eq_some, Option.some.injEq] at h
    exact .inl ⟨x, h.1, rfl, h.2⟩
  | string s =>
    cases h
    exact .inr rfl
  | _ => cases h

theorem Number.isInf_eq_false {x : Float} (h : x.isFinite = true) : x.isInf = false := by
  change (Number.parts x).isFinite = true at h
  change (Number.parts x).isInf = false
  generalize Number.parts x = p at h ⊢
  cases p <;> first | rfl | cases h

namespace Parser

section

variable {α β : Type} {t : Token} {name : String} {p p₁ p₂ q : Parser}

theorem bind_of_ok {x : Parse α} {f : α → Parse β} {a : α} (h : x p = .ok a q) : (x >>= f) p = f a q := by
  simp only [bind, EStateM.bind, h]

theorem discard_of_ok {x : Parse α} {a : α} (h : x p = .ok a q) : discard x p = .ok () q := by
  simp only [discard, Functor.discard, Functor.mapConst, EStateM.map, Function.comp, h]

theorem at_of_current (h : p.current = t) : at? mark p = .ok (t.isMark mark) p :=
  h ▸ rfl

theorem eat_of_ok (h : advance p = .ok (.punctuator mark) q) : eat mark p = .ok () q := by
  rw [eat, bind_of_ok (at_of_current (advance_current h).symm), Token.isMark, decide_eq_true rfl]
  exact discard_of_ok h

theorem ahead_of_current (h : p.current = t) : ahead p = .ok t p :=
  h ▸ rfl

/-- The literal that is ahead is taken. -/
theorem literal_taken (h : advance p = .ok t q) (value : Json) :
    ∃ raw span, literal value p = .ok (.mk (.literal value raw none) span) q := by
  refine ⟨some (String.Pos.Raw.extract p.source ⟨p.currentStart⟩ ⟨p.currentStop⟩),
    ⟨p.currentStart, q.lastStop, some (p.currentPosition, q.lastStopPosition)⟩, ?_⟩
  rw [literal, bind_of_ok (rfl : start p = .ok _ p), bind_of_ok (rfl : (get : Parse Parser) p = .ok p p),
    bind_of_ok (rfl : sourceSlice p.currentStart p.currentStop p = .ok _ p), bind_of_ok (discard_of_ok h)]
  rfl

/-! ## 2. An operand without an operator -/

/-- A literal is a primary expression. -/
theorem primary_literal (reach : Reach) (ht : t.keyText? = some name) (h : advance p = .ok t q) :
    ∃ raw span, primary reach p = .ok (.mk (.literal t.document raw none) span) q := by
  obtain ⟨raw, span, hliteral⟩ := literal_taken h t.document
  refine ⟨raw, span, ?_⟩
  rw [primary, bind_of_ok (rfl : start p = .ok _ p), bind_of_ok (ahead_of_current (advance_current h).symm)]
  obtain ⟨x, hx, rfl, -⟩ | rfl := Token.keyText_cases ht
  · dsimp only
    rw [Number.isInf_eq_false hx]
    exact hliteral
  · exact hliteral

theorem withSubscripts_closed (reach : Reach) (marker : Marker) (e : Node)
    (hp : p.current = .punctuator .rightBracket) : withSubscripts reach marker e false p = .ok e p := by
  have hsubscripts : subscripts reach marker false (p.lexer.fuel + 1) e false p = .ok (e, false) p := by
    rw [subscripts, bind_of_ok (at_of_current hp)]
    change (ahead >>= _) p = _
    exact bind_of_ok (ahead_of_current hp)
  rw [withSubscripts, bind_of_ok (rfl : (get : Parse Parser) p = .ok p p), bind_of_ok hsubscripts]
  rfl

theorem unary_literal (reach : Reach) (ht : t.keyText? = some name) (h : advance p = .ok t q)
    (hq : q.current = .punctuator .rightBracket) :
    ∃ raw span, unary reach p = .ok (.mk (.literal t.document raw none) span) q := by
  obtain ⟨raw, span, hprimary⟩ := primary_literal reach ht h
  have hcurrent := (advance_current h).symm
  have hword : atWord? .newWord p = .ok false p := by
    rw [atWord?, bind_of_ok (rfl : (get : Parse Parser) p = .ok p p), hcurrent]
    obtain ⟨x, -, rfl, -⟩ | rfl := Token.keyText_cases ht <;> rfl
  have hside : leftHandSide reach p = .ok (.mk (.literal t.document raw none) span) q := by
    rw [leftHandSide, bind_of_ok (rfl : start p = .ok _ p), bind_of_ok hword]
    exact (bind_of_ok hprimary).trans (withSubscripts_closed reach _ _ hq)
  refine ⟨raw, span, ?_⟩
  rw [unary, bind_of_ok (rfl : start p = .ok _ p), bind_of_ok (ahead_of_current hcurrent)]
  have hunary : unaryOperator? t = none := by
    obtain ⟨x, -, rfl, -⟩ | rfl := Token.keyText_cases ht <;> rfl
  have hupdate : updateOperator? t = none := by
    obtain ⟨x, -, rfl, -⟩ | rfl := Token.keyText_cases ht <;> rfl
  rw [hunary]
  dsimp only
  rw [hupdate]
  dsimp only
  rw [bind_of_ok hside, bind_of_ok (rfl : (get : Parse Parser) q = .ok q q), hq]
  cases q.afterBreak <;> rfl

/-- **A literal before a closing bracket** is an expression. -/
theorem assignment_literal (reach : Reach) (ht : t.keyText? = some name) (h : advance p = .ok t q)
    (hq : q.current = .punctuator .rightBracket) :
    ∃ raw span, assignment reach p = .ok (.mk (.literal t.document raw none) span) q := by
  obtain ⟨raw, span, hunary⟩ := unary_literal reach ht h hq
  refine ⟨raw, span, ?_⟩
  have hrest (marker : Marker) (e : Node) : binaryRestFrom reach marker e 0 q = .ok e q := by
    rw [binaryRestFrom, bind_of_ok (rfl : (get : Parse Parser) q = .ok q q), binaryRest,
      bind_of_ok (rfl : (get : Parse Parser) q = .ok q q), hq]
    rfl
  have hconditional : conditional reach p = .ok (.mk (.literal t.document raw none) span) q := by
    have heat : eatIf .question q = .ok false q := by
      rw [eatIf, bind_of_ok (at_of_current hq)]
      rfl
    rw [conditional, bind_of_ok (rfl : start p = .ok _ p), bind_of_ok hunary, bind_of_ok (hrest _ _), bind_of_ok heat]
    rfl
  rw [assignment, bind_of_ok (rfl : start p = .ok _ p), bind_of_ok hconditional, bind_of_ok (at_of_current hq)]
  change (ahead >>= _) q = _
  exact bind_of_ok (ahead_of_current hq)

/-! ## 3. Keys -/

/-- A parser with another context. -/
def within (p : Parser) (noIn : Bool) (depth : Nat) : Parser :=
  { p with noIn := noIn, depth := depth }

theorem nextToken_within (noIn : Bool) (depth : Nat) {fuel : Nat} {broken : Bool} {p q : Parser} {r : Token × Bool}
    (h : nextToken fuel broken p = .ok r q) :
    nextToken fuel broken (p.within noIn depth) = .ok r (q.within noIn depth) := by
  induction fuel generalizing broken p with
  | zero =>
    cases h
    rfl
  | succ fuel ih =>
    obtain ⟨t, p₁, ht, h⟩ := bind_ok h
    have ht' : lex Lexer.token (p.within noIn depth) = .ok t (p₁.within noIn depth) := by
      have hlexer : (p.within noIn depth).lexer = p.lexer := rfl
      unfold lex at ht ⊢
      rw [hlexer]
      cases hr : Lexer.token p.lexer with
      | ok t' l =>
        rw [hr] at ht
        cases ht
        rfl
      | error e l =>
        rw [hr] at ht
        cases ht
    rw [nextToken, bind_of_ok ht']
    cases hline : t.isNewline with
    | true =>
      rw [hline] at h
      exact ih h
    | false =>
      rw [hline] at h
      cases h
      rfl

/-- A token is taken in the same way in any context. -/
theorem advance_within (noIn : Bool) (depth : Nat) (h : advance p = .ok t q) :
    advance (p.within noIn depth) = .ok t (q.within noIn depth) := by
  obtain ⟨_, _, hget, h⟩ := bind_ok h
  cases hget
  obtain ⟨r, p₁, hnext, h⟩ := bind_ok h
  cases h
  rw [advance, bind_of_ok (rfl : (get : Parse Parser) (p.within noIn depth) = .ok _ _)]
  exact bind_of_ok (nextToken_within noIn depth hnext)

/-- A token that is taken leaves the context as it is. -/
theorem within_of_taken (h : advance p = .ok t q) : q.within p.noIn p.depth = q := by
  have h' : advance p = .ok t (q.within p.noIn p.depth) := advance_within p.noIn p.depth h
  exact (EStateM.Result.ok.inj (h'.symm.trans h)).2

/-- How a literal is written as a key: as it is, or in brackets. -/
inductive KeyWritten (t : Token) : Bool → Parser → Parser → Prop
  | plain {p q : Parser} (h : advance p = .ok t q) : KeyWritten t false p q
  | computed {p p₁ p₂ q : Parser} (hopen : advance p = .ok (.punctuator .leftBracket) p₁)
      (h : advance p₁ = .ok t p₂) (hclose : advance p₂ = .ok (.punctuator .rightBracket) q)
      (hdepth : p.depth < maxNesting) : KeyWritten t true p q

/-- **A literal key is read** as the literal. -/
theorem propertyKey_literal (levels : Nat) (ht : t.keyText? = some name) (h : KeyWritten t computed p q) :
    ∃ raw span, propertyKey (reach (levels + 1)) p = .ok (.mk (.literal t.document raw none) span, computed) q := by
  cases h with
  | plain h =>
    obtain ⟨raw, span, hliteral⟩ := literal_taken h t.document
    refine ⟨raw, span, ?_⟩
    rw [propertyKey, bind_of_ok (rfl : start p = .ok _ p), bind_of_ok (ahead_of_current (advance_current h).symm)]
    obtain ⟨x, hx, rfl, -⟩ | rfl := Token.keyText_cases ht
    · exact bind_of_ok hliteral
    · exact bind_of_ok hliteral
  | @computed p p₁ p₂ q hopen h hclose hdepth =>
    have hdepth₁ : p₁.depth = p.depth := (congrArg Parser.depth (within_of_taken hopen)).symm
    obtain ⟨raw, span, hassignment⟩ := assignment_literal (reach levels) ht
      (advance_within false (p₁.depth + 1) h) (advance_current hclose).symm
    have hnested : Parser.reach (levels + 1) .assignment (p₁.within false p₁.depth) =
        .ok (.mk (.literal t.document raw none) span) (p₂.within false p₁.depth) := by
      change nested _ _ = _
      rw [nested, bind_of_ok (rfl : (get : Parse Parser) (p₁.within false p₁.depth) = .ok _ _)]
      change (if p₁.depth ≥ maxNesting then _ else _ : Parse Node) _ = _
      rw [if_neg (by omega)]
      change (assignment _ >>= _) (p₁.within false (p₁.depth + 1)) = _
      exact bind_of_ok hassignment
    have hin : withIn (Parser.reach (levels + 1) .assignment) p₁ =
        .ok (.mk (.literal t.document raw none) span) p₂ := by
      rw [withIn, bind_of_ok (rfl : (get : Parse Parser) p₁ = .ok _ _)]
      change (Parser.reach (levels + 1) .assignment >>= _) (p₁.within false p₁.depth) = _
      rw [bind_of_ok hnested]
      exact congrArg _ (within_of_taken h)
    refine ⟨raw, span, ?_⟩
    rw [propertyKey, bind_of_ok (rfl : start p = .ok _ p), bind_of_ok (ahead_of_current (advance_current hopen).symm)]
    refine (bind_of_ok (discard_of_ok hopen)).trans ?_
    rw [bind_of_ok hin, bind_of_ok (eat_of_ok hclose)]
    rfl

/-! ## 4. Properties and members -/

theorem KeyWritten.current (ht : t.keyText? = some name) (h : KeyWritten t computed p q) :
    p.current.isMark .ellipsis = false ∧ p.current.isMark .star = false := by
  cases h with
  | plain h =>
    rw [← advance_current h]
    obtain ⟨x, -, rfl, -⟩ | rfl := Token.keyText_cases ht <;> exact ⟨rfl, rfl⟩
  | computed hopen =>
    rw [← advance_current hopen]
    exact ⟨rfl, rfl⟩

/-- Whether a node is a property with a given key. -/
def IsProperty (key : Node) (computed : Bool) (n : Node) : Prop :=
  ∃ value method shorthand span, n = .mk (.property key value .init method shorthand computed) span

theorem results_finish {P : Node → Prop} (marker : Marker) {kind : Kind} (h : ∀ span, P (.mk kind span)) :
    Results (finish marker kind) P := by
  intro p n p' hrun
  cases hrun
  exact h _

theorem results_shorthandName {P : Node → Prop} {value : Json} {raw : Option String} {span : Span}
    {f : String → Parse Node} :
    Results (shorthandName (.mk (.literal value raw none) span) computed >>= f) P := by
  intro p n p' hrun
  obtain ⟨name, p₁, hname, -⟩ := bind_ok hrun
  cases computed <;> exact (gives_unexpected (P := fun _ => False) p name p₁ rfl hname).2.elim

theorem results_plainProperty (reach : Reach) (marker : Marker) (value : Json) (raw : Option String) (span : Span)
    (computed : Bool) :
    Results (plainProperty reach marker (.mk (.literal value raw none) span) computed)
      (IsProperty (.mk (.literal value raw none) span) computed) := by
  refine results_bind fun colon => ?_
  cases colon with
  | true => exact results_bind fun value => results_finish marker fun span => ⟨value, false, false, span, rfl⟩
  | false => exact results_shorthandName

theorem objectProperty_literal (ht : t.keyText? = some name) (h : KeyWritten t computed p q) {n : Node}
    (hrun : objectProperty (reach (levels + 1)) p = .ok n r) :
    ∃ raw span, IsProperty (.mk (.literal t.document raw none) span) computed n := by
  obtain ⟨raw, span, hkey⟩ := propertyKey_literal levels ht h
  obtain ⟨hellipsis, hstar⟩ := h.current ht
  rw [objectProperty, bind_of_ok (rfl : start p = .ok _ p), bind_of_ok (rfl : at? .ellipsis p = .ok _ p), hellipsis,
    if_neg Bool.false_ne_true, bind_of_ok (rfl : at? .star p = .ok _ p), hstar, if_neg Bool.false_ne_true,
    bind_of_ok hkey] at hrun
  obtain ⟨_, q₁, -, hrun⟩ := bind_ok hrun
  refine ⟨raw, span, ?_⟩
  generalize hmarker : Marker.mk p.currentStart p.currentPosition = marker at hrun
  have hresults : Results (do
      if ← at? .leftParen then
        let value ← method (reach (levels + 1)) marker
        checkAccessor .init value
        finish marker (.property (.mk (.literal t.document raw none) span) value .init true false computed)
      else plainProperty (reach (levels + 1)) marker (.mk (.literal t.document raw none) span) computed)
      (IsProperty (.mk (.literal t.document raw none) span) computed) := by
    refine results_bind fun isMethod => ?_
    cases isMethod with
    | true =>
      exact results_bind fun value => results_bind fun _ =>
        results_finish marker fun span => ⟨value, true, false, span, rfl⟩
    | false => exact results_plainProperty _ marker _ _ _ _
  -- a literal is no modifier, so the key is this one
  exact hresults q₁ n r (by cases computed <;> exact hrun)

theorem patternProperty_literal (ht : t.keyText? = some name) (h : KeyWritten t computed p q) {n : Node}
    (hrun : patternProperty (reach (levels + 1)) p = .ok n r) :
    ∃ raw span, IsProperty (.mk (.literal t.document raw none) span) computed n := by
  obtain ⟨raw, span, hkey⟩ := propertyKey_literal levels ht h
  refine ⟨raw, span, ?_⟩
  rw [patternProperty, bind_of_ok (rfl : start p = .ok _ p), bind_of_ok hkey] at hrun
  obtain ⟨colon, q₁, -, hrun⟩ := bind_ok hrun
  cases colon with
  | true =>
    obtain ⟨value, q₂, -, hrun⟩ := bind_ok hrun
    exact results_finish _ (fun span => ⟨value, false, false, span, rfl⟩) q₂ n r hrun
  | false => exact results_shorthandName q₁ n r hrun

/-- Whether a node is a member of a class with a given key: a method, or a field. -/
def IsMember (key : Node) (computed : Bool) (n : Node) : Prop :=
  (∃ value span, n = .mk (.methodDefinition key value .method computed false) span) ∨
    ∃ value span, n = .mk (.propertyDefinition key value computed false) span

theorem memberHead_literal (ht : t.keyText? = some name) (h : KeyWritten t computed p q) {head : MemberHead}
    (hrun : memberHead (reach (levels + 1)) p = .ok head r) :
    ∃ raw span marker, head = ⟨marker, .mk (.literal t.document raw none) span, computed, false, none⟩ := by
  obtain ⟨raw, span, hkey⟩ := propertyKey_literal levels ht h
  refine ⟨raw, span, ⟨p.currentStart, p.currentPosition⟩, ?_⟩
  rw [memberHead, bind_of_ok (rfl : start p = .ok _ p), bind_of_ok hkey] at hrun
  obtain ⟨_, q₁, -, hrun⟩ := bind_ok hrun
  cases computed <;> cases hrun <;> rfl

/-- A member whose key is a literal has that key, unless it is the constructor. -/
theorem classMember_literal (ht : t.keyText? = some name) (h : KeyWritten t computed p q)
    (hname : computed = true ∨ name ≠ "constructor") {n : Node} (hrun : classMember (reach (levels + 1)) p = .ok n r) :
    ∃ raw span, IsMember (.mk (.literal t.document raw none) span) computed n := by
  obtain ⟨-, hstar⟩ := h.current ht
  rw [classMember, bind_of_ok (rfl : start p = .ok _ p), bind_of_ok (rfl : at? .star p = .ok _ p), hstar,
    if_neg Bool.false_ne_true] at hrun
  obtain ⟨head, q₁, hhead, hrun⟩ := bind_ok hrun
  obtain ⟨raw, span, marker, rfl⟩ := memberHead_literal ht h hhead
  refine ⟨raw, span, ?_⟩
  have hnamed : MemberHead.named ⟨marker, .mk (.literal t.document raw none) span, computed, false, none⟩
      "constructor" = false := by
    rcases hname with rfl | hname
    · rfl
    · unfold MemberHead.named
      obtain ⟨x, hx, rfl, -⟩ | rfl := Token.keyText_cases ht
      · obtain ⟨number, hnumber, -⟩ := Number.toFloat_numberValue hx
        rw [Token.document, hnumber]
        exact Bool.and_false _
      · change (!computed && some name == some "constructor") = false
        rw [beq_eq_false_iff_ne.mpr fun h => hname (Option.some.inj h), Bool.and_false]
  obtain ⟨isMethod, q₂, -, hrun⟩ := bind_ok hrun
  cases isMethod with
  | true =>
    obtain ⟨value, q₃, -, hrun⟩ := bind_ok hrun
    dsimp only at hrun
    rw [hnamed] at hrun
    exact results_finish _ (fun span => .inl ⟨value, span, rfl⟩) q₃ n r hrun
  | false =>
    change classField _ _ _ q₂ = _ at hrun
    rw [classField, hnamed] at hrun
    obtain ⟨hasValue, q₃, -, hrun⟩ := bind_ok hrun
    have hend (value : Option Node) (fieldMarker : Marker) : Results (do
        eatSemicolon
        finish fieldMarker (.propertyDefinition (.mk (.literal t.document raw none) span) value computed false))
        (IsMember (.mk (.literal t.document raw none) span) computed) :=
      results_bind fun _ => results_finish _ fun span => .inr ⟨value, span, rfl⟩
    cases hasValue <;> obtain ⟨value, q₄, -, hrun⟩ := bind_ok hrun <;> exact hend value _ q₄ n r hrun
end

end Parser

/-! ## 5. Lowered keys -/

namespace Eval

variable {α β : Type}

/-- Whether an action does what another one does, but may count a step before. -/
def UpToStep (x y : Eval α) : Prop :=
  (∀ answers m, x.run answers m = y.run answers m) ∨
    ∃ position, ∀ answers m, x.run answers m = (step position y).run answers m

end Eval

/-- A property name that comes down to a text, without doing anything but count a step. -/
def PropertyName.Spells (key : PropertyName) (name : String) : Prop :=
  key.eval.UpToStep (pure (.string name))

theorem spells_fixed (name : String) : (PropertyName.fixed name).Spells name :=
  .inl fun _ _ => rfl

theorem spells_constant (position : Option Position) {literal : Literal} {name : String}
    (h : ∀ answers m, (Eval.toKey literal.value).run answers m = .ok (.string name) m) :
    (PropertyName.computed (.step position (.constant literal))).Spells name := by
  refine .inr ⟨position, fun answers m => ?_⟩
  change ((Eval.valueOf (Eval.step position (pure (.value literal.value)))) >>= Eval.toKey).run answers m =
    (Eval.tick position >>= fun _ => pure (.string name)).run answers m
  cases htick : (Eval.tick position).run answers m with
  | ok u m' =>
    have hvalue : (Eval.valueOf (Eval.step position (pure (.value literal.value)))).run answers m =
        .ok literal.value m' := by
      rw [Eval.valueOf, Eval.step, Eval.run_bind_of_ok (Eval.run_bind_of_ok htick)]
      rfl
    rw [Eval.run_bind_of_ok hvalue, Eval.run_bind_of_ok htick, h]
    rfl
  | error e m' =>
    have hvalue : (Eval.valueOf (Eval.step position (pure (.value literal.value)))).run answers m = .error e m' := by
      rw [Eval.valueOf, Eval.step, Eval.run_bind_of_error (Eval.run_bind_of_error htick)]
    rw [Eval.run_bind_of_error hvalue, Eval.run_bind_of_error htick]

variable {t : Token} {name : String}

theorem literalKey_document (ht : t.keyText? = some name) : literalKey t.document = name := by
  obtain ⟨x, hx, rfl, rfl⟩ | rfl := Token.keyText_cases ht
  · obtain ⟨number, hnumber, heq⟩ := Number.toFloat_numberValue hx
    rw [Token.document, hnumber]
    exact Number.text_congr heq
  · rfl

theorem run_toKey_document (ht : t.keyText? = some name) (answers : Answers) (m : Machine) :
    (Eval.toKey (Literal.ofJson t.document).value).run answers m = .ok (.string name) m := by
  obtain ⟨x, hx, rfl, rfl⟩ | rfl := Token.keyText_cases ht
  · obtain ⟨number, hnumber, heq⟩ := Number.toFloat_numberValue hx
    rw [Token.document, hnumber, ← Number.text_congr heq]
    rfl
  · rfl

/-- The name that a key written as a literal is lowered to. -/
def literalName (t : Token) (span : Span) : Bool → PropertyName
  | false => .fixed (literalKey t.document)
  | true => .computed (.step span.position (.constant (.ofJson t.document)))

/-- **The key of a literal** is lowered to a name that comes down to the text of its value. -/
theorem spells_literalName (ht : t.keyText? = some name) (span : Span) (computed : Bool) :
    (literalName t span computed).Spells name := by
  cases computed with
  | false =>
    rw [literalName, literalKey_document ht]
    exact spells_fixed name
  | true => exact spells_constant _ (run_toKey_document ht)

theorem fixedName_literalName (ht : t.keyText? = some name) {span : Span} {fixed : String}
    (h : Lower.fixedName? (literalName t span computed) = some fixed) : fixed = name := by
  cases computed with
  | false => exact (Option.some.inj h).symm.trans (literalKey_document ht)
  | true => cases h

theorem lowerKey_literal (t : Token) (raw : Option String) (span : Span) (computed : Bool) {depth : Nat}
    (hdepth : depth < Lower.maxNesting) (l : Lowering) :
    (Node.mk (.literal t.document raw none) span).lowerKey computed depth l =
      .ok (literalName t span computed) l := by
  cases computed with
  | false => rfl
  | true =>
    have hcheck : Lower.checkNesting depth span.position l = .ok () l := by
      rw [Lower.checkNesting, if_pos hdepth]
      rfl
    change ((Lower.checkNesting depth span.position >>= _) >>= _ : Lower PropertyName) l = _
    simp only [bind, EStateM.bind, hcheck]
    rfl

open Lower (Gives gives_pure gives_bind)

theorem gives_lowerKey_literal (t : Token) (raw : Option String) (span : Span) (computed : Bool) (depth : Nat) :
    Gives ((Node.mk (.literal t.document raw none) span).lowerKey computed depth)
      (· = literalName t span computed) := by
  intro l key l' h
  by_cases hdepth : depth < Lower.maxNesting
  · rw [lowerKey_literal t raw span computed hdepth] at h
    cases h
    rfl
  · cases computed with
    | false =>
      cases h
      rfl
    | true =>
      obtain ⟨c, l₁, hc, -⟩ := Lower.of_bind h
      obtain ⟨_, l₂, hcheck, -⟩ := Lower.of_bind hc
      rw [Lower.checkNesting, if_neg hdepth] at hcheck
      cases hcheck

/-! ## 6. Keys of parts -/

/-- The key of a part of an object literal. -/
def ObjectPart.key? : ObjectPart → Option PropertyName
  | .value key _ | .getter key _ | .setter key _ => some key
  | .spread _ | .ignored _ => none

/-- The key of a part of an object pattern. -/
def PatternPart.key? : PatternPart → Option PropertyName
  | .property key _ => some key
  | .rest _ => none

/-- The key of a member of a class. -/
def ClassMember.key? : ClassMember → Option PropertyName
  | .method key _ _ | .field key _ _ _ => some key
  | .accessor _ => none

/-- Whether the first of some parts has a key that comes down to a text. -/
def Leads {α : Type} (key? : α → Option PropertyName) (name : String) (parts : List α) : Prop :=
  ∃ part more key, parts = part :: more ∧ key? part = some key ∧ key.Spells name

variable {raw : Option String} {kspan : Span} {computed : Bool} {n : Node}

theorem leads_lowerProperties (ht : t.keyText? = some name) (hproto : name ≠ "__proto__")
    (hn : Parser.IsProperty (.mk (.literal t.document raw none) kspan) computed n) (rest : List Node) (depth : Nat) :
    Gives (Node.lowerProperties (n :: rest) depth) (Leads ObjectPart.key? name) := by
  obtain ⟨value, method, shorthand, span, rfl⟩ := hn
  refine (gives_lowerKey_literal t raw kspan computed depth).bind ?_
  rintro key rfl
  have hspells := spells_literalName ht kspan computed
  have hlast (part : ObjectPart) (hpart : part.key? = some (literalName t kspan computed)) : Gives (do
      return part :: (← Node.lowerProperties rest depth)) (Leads ObjectPart.key? name) :=
    gives_bind fun more => gives_pure ⟨part, more, _, rfl, hpart, hspells⟩
  have hvalue (c : Code) := (gives_pure (P := (· = ObjectPart.value (literalName t kspan computed) c)) rfl).bind
    fun part hpart => hlast part (hpart ▸ rfl)
  split
  · rename_i hfixed
    exact (hproto (fixedName_literalName ht hfixed).symm).elim
  · exact gives_bind fun c => hvalue c
  · exact gives_bind fun c => hvalue c
  · rename_i hkind
    cases hkind
  · rename_i hkind
    cases hkind

theorem leads_lowerPatternParts (ht : t.keyText? = some name)
    (hn : Parser.IsProperty (.mk (.literal t.document raw none) kspan) computed n) (rest : List Node)
    (mode : BindingMode) (depth : Nat) :
    Gives (Node.lowerPatternParts (n :: rest) mode depth) (Leads PatternPart.key? name) := by
  obtain ⟨value, method, shorthand, span, rfl⟩ := hn
  refine (gives_lowerKey_literal t raw kspan computed depth).bind ?_
  rintro key rfl
  exact gives_bind fun p => gives_bind fun more =>
    gives_pure ⟨_, more, _, rfl, rfl, spells_literalName ht kspan computed⟩

theorem leads_lowerMembers (ht : t.keyText? = some name)
    (hn : Parser.IsMember (.mk (.literal t.document raw none) kspan) computed n) (rest : List Node)
    (className : String) (depth : Nat) :
    Gives (Node.lowerMembers (n :: rest) className depth) fun lowered => Leads ClassMember.key? name lowered.2 := by
  have hkey := gives_lowerKey_literal t raw kspan computed depth
  have hspells := spells_literalName ht kspan computed
  have hlast (member : ClassMember) (hmember : member.key? = some (literalName t kspan computed)) : Gives (do
      let lowered ← Node.lowerMembers rest className depth
      pure (lowered.1, member :: lowered.2)) fun lowered => Leads ClassMember.key? name lowered.2 :=
    gives_bind fun lowered => gives_pure ⟨member, lowered.2, _, rfl, hmember, hspells⟩
  obtain ⟨⟨kind, vspan⟩, span, rfl⟩ | ⟨value, span, rfl⟩ := hn
  · cases kind with
    | function form id params body flags =>
      cases form with
      | expression =>
        refine hkey.bind ?_
        rintro key rfl
        exact gives_bind fun template => hlast (.method _ template false) rfl
      | _ => exact Lower.gives_fault _ _ _
    | _ => exact Lower.gives_fault _ _ _
  · cases value with
    | none =>
      refine hkey.bind ?_
      rintro key rfl
      exact hlast (.field _ none false false) rfl
    | some value =>
      refine hkey.bind ?_
      rintro key rfl
      dsimp only
      split
      · exact gives_bind fun init => hlast (.field _ (some init) _ false) rfl
      · exact gives_bind fun init => hlast (.field _ (some init) _ false) rfl

theorem isProperty_of_pattern {key : Node} (hn : Parser.IsProperty key computed n) {others pattern : List Node}
    (h : propertiesToPattern (n :: others) = .ok pattern) :
    ∃ n' rest, pattern = n' :: rest ∧ Parser.IsProperty key computed n' := by
  obtain ⟨value, method, shorthand, span, rfl⟩ := hn
  cases method with
  | false =>
    obtain ⟨value', -, h⟩ := except_bind_ok h
    obtain ⟨rest, -, rfl⟩ := except_map_ok h
    exact ⟨_, rest, rfl, value', false, shorthand, span, rfl⟩
  | true => cases h

/-! ## 7. Keys of properties, patterns and members -/

theorem Token.eq_of_isMark {t : Token} (h : t.isMark mark = true) : t = .punctuator mark := by
  cases t with
  | punctuator m => rw [of_decide_eq_true h]
  | _ => cases h

/-- Whether a key that is written between two states of a parser comes down to a text: it is read, and so it does in
object literals, in patterns that are assigned or bound, and in classes. -/
structure KeyIs (reach : Reach) (name : String) (computed : Bool) (p q : Parser) : Prop where
  read : ∃ key, Parser.propertyKey reach p = .ok (key, computed) q ∧
    ∀ depth < Lower.maxNesting, ∀ l, ∃ k, key.lowerKey computed depth l = .ok k l ∧ k.Spells name
  property : ∀ n r, Parser.objectProperty reach p = .ok n r → ∀ rest depth,
    Gives (Node.lowerProperties (n :: rest) depth) (Leads ObjectPart.key? name)
  assigned : ∀ n r, Parser.objectProperty reach p = .ok n r →
    ∀ others pattern, propertiesToPattern (n :: others) = .ok pattern → ∀ mode depth,
      Gives (Node.lowerPatternParts pattern mode depth) (Leads PatternPart.key? name)
  bound : ∀ n r, Parser.patternProperty reach p = .ok n r → ∀ rest mode depth,
    Gives (Node.lowerPatternParts (n :: rest) mode depth) (Leads PatternPart.key? name)
  /-- A constructor is no member that has a key. -/
  member : computed = true ∨ name ≠ "constructor" → ∀ n r, Parser.classMember reach p = .ok n r →
    ∀ rest className depth,
    Gives (Node.lowerMembers (n :: rest) className depth) fun lowered => Leads ClassMember.key? name lowered.2

/-- **Keys that are literals** come down to the text of the value of the literal, as they are and in brackets. Where a
name does not belong to it: an object literal has no property from a key `__proto__`, and a class has its constructor
from a key `constructor`. -/
theorem literal_keys (ht : t.keyText? = some name) (hproto : name ≠ "__proto__") (levels : Nat) {computed : Bool}
    {p q : Parser} (h : Parser.KeyWritten t computed p q) : KeyIs (Parser.reach (levels + 1)) name computed p q := by
  obtain ⟨raw, span, hkey⟩ := Parser.propertyKey_literal levels ht h
  constructor
  case read =>
    exact ⟨_, hkey, fun depth hdepth l =>
      ⟨_, lowerKey_literal t raw span computed hdepth l, spells_literalName ht span computed⟩⟩
  case property =>
    intro n r hn rest depth
    obtain ⟨raw, span, hn⟩ := Parser.objectProperty_literal ht h hn
    exact leads_lowerProperties ht hproto hn rest depth
  case assigned =>
    intro n r hn others pattern hpattern mode depth
    obtain ⟨raw, span, hn⟩ := Parser.objectProperty_literal ht h hn
    obtain ⟨n', rest, rfl, hn'⟩ := isProperty_of_pattern hn hpattern
    exact leads_lowerPatternParts ht hn' rest mode depth
  case bound =>
    intro n r hn rest mode depth
    obtain ⟨raw, span, hn⟩ := Parser.patternProperty_literal ht h hn
    exact leads_lowerPatternParts ht hn rest mode depth
  case member =>
    intro hname n r hn rest className depth
    obtain ⟨raw, span, hn⟩ := Parser.classMember_literal ht h hname hn
    exact leads_lowerMembers ht hn rest className depth

/-- Three tokens, one after the other. -/
def Parser.threeTokens : Parse (Token × Token × Token) := do
  let first ← Parser.advance
  let second ← Parser.advance
  let third ← Parser.advance
  return (first, second, third)

theorem keyWritten_of_threeTokens {p : Parser}
    (h : ((Parser.threeTokens.run' p).any fun tokens =>
      tokens.1.isMark .leftBracket && tokens.2.2.isMark .rightBracket && tokens.2.1.keyText? == some "16" &&
        tokens.2.1.text == "16") = true) (hp : p.depth < maxNesting) :
    ∃ x q, (Token.number x).keyText? = some "16" ∧ Parser.KeyWritten (.number x) true p q := by
  rw [EStateM.run', EStateM.run] at h
  cases hr : Parser.threeTokens p with
  | error e q => simp [hr] at h
  | ok tokens q =>
    obtain ⟨opening, key, closing⟩ := tokens
    simp only [hr, Option.any_some, Bool.and_eq_true, beq_iff_eq] at h
    obtain ⟨⟨⟨hleft, hright⟩, hname⟩, htext⟩ := h
    obtain ⟨_, p₁, hopen, hr⟩ := Parser.bind_ok hr
    obtain ⟨_, p₂, hkey, hr⟩ := Parser.bind_ok hr
    obtain ⟨_, p₃, hclose, hr⟩ := Parser.bind_ok hr
    cases hr
    obtain rfl := Token.eq_of_isMark hleft
    obtain rfl := Token.eq_of_isMark hright
    cases key with
    | number x => exact ⟨x, q, hname, .computed hopen hkey hclose hp⟩
    | string s =>
      obtain rfl : s = "16" := Option.some.inj hname
      exact absurd htext (by decide)
    | _ => cases hname

theorem literal_keys_brackets :
    ∃ x p q, Parser.KeyWritten (.number x) true p q ∧ KeyIs (Parser.reach 1) "16" true p q := by
  -- the key of `[0x10]`, with the bracket ahead
  let p : Parser := { Parser.ofText "0x10]" true true with current := .punctuator .leftBracket }
  obtain ⟨x, q, ht, h⟩ := keyWritten_of_threeTokens (p := p) (by decide +kernel) (by decide)
  exact ⟨x, p, q, h, literal_keys ht (by decide) 0 h⟩

end GuestScript
