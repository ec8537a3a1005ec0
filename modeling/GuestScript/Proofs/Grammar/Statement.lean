import GuestScript.Proofs.Grammar.Expression

/-!
# Statements fit

Given that the goals inside a production are reached soundly, the productions of statements give code that fits at the
depth at which they run, and the production of items gives items.
-/

namespace GuestScript.Parser

variable {reach : Reach} {depth : Nat}

/-! ## 1. Blocks and simple statements -/

section

variable (hr : Sound reach) (hdepth : depth ≤ maxNesting)

include hr hdepth

theorem gives_items {goesOn : Parse Bool} (hgoes : Keeps Parser.depth goesOn) :
    Gives depth (items reach goesOn) fun l => ∀ n ∈ l, (Part.item n).Fits depth := by
  refine keeps_get.then fun p => ?_
  have hround : ∀ acc : List Node, (∀ n ∈ acc, (Part.item n).Fits depth) →
      Gives depth (do pure ((← reach .item) :: acc)) fun l => ∀ n ∈ l, (Part.item n).Fits depth := fun acc hacc =>
    (hr.item hdepth).bind fun n hn => gives_pure (List.forall_mem_cons.2 ⟨hn, hacc⟩)
  exact (gives_rounds hgoes hround _ [] nofun).bind fun l hl =>
    gives_pure fun n hn => hl n (List.mem_reverse.1 hn)

omit hr hdepth in
theorem keeps_notAt {γ : Type} {view : Parser → γ} (mark : Punctuator) : Keeps view (notAt mark) :=
  (keeps_at mark).bind fun _ => keeps_pure _

/-- **A block fits.** -/
theorem gives_block : Gives depth (block reach) fun n => n.Fits .code depth := by
  refine keeps_start.then fun marker => (keeps_eat _).then fun _ => ?_
  refine (gives_items hr hdepth (keeps_notAt _)).bind fun body hbody => (keeps_eat _).then fun _ => ?_
  exact gives_code marker hdepth rfl (List.forall_mem_map.2 hbody)

omit hr hdepth in
/-- A declaration whose variables have the values that they need is code that fits. -/
theorem FitsDeclaration.fits (hdepth : depth ≤ maxNesting) {inHead : Bool} {n : Node} {p : Parser}
    (h : FitsDeclaration depth inHead n p) (hends : ¬ (inHead ∧ EndsHead p)) (span : Span) :
    (Node.mk n.kind span).Fits .code depth := by
  obtain ⟨ds, kind, hkind, hfits, hvalues⟩ := h
  rw [hkind]
  refine Node.Fits.of_codeParts hdepth rfl (List.forall_mem_map.2 fun d hd => ?_) span
  exact (hfits d hd).fits (hvalues.resolve_right hends d hd)

theorem gives_variableStatement : Gives depth (variableStatement reach) fun n => n.Fits .code depth := by
  refine keeps_start.then fun marker => ?_
  have hdeclaration : Gives depth (variableDeclaration reach false) fun n =>
      ∀ span, (Node.mk n.kind span).Fits .code depth := by
    intro p n p' hp h
    obtain ⟨hp', hn⟩ := variableDeclaration_yields hr hdepth false p n p' hp h
    exact ⟨hp', hn.fits hdepth (by simp)⟩
  exact hdeclaration.bind fun n hn => keeps_eatSemicolon.then fun _ => gives_finish marker hn

theorem gives_parenthesized : Gives depth (parenthesized reach) fun n => (Part.expression n).Fits depth :=
  (keeps_eat _).then fun _ => (gives_withIn (gives_expression hr hdepth)).bind fun _ he =>
    (keeps_eat _).then fun _ => gives_pure he

theorem gives_labeled (marker : Marker) (label : Node) (name : String) :
    Gives depth (labeled reach marker label name) fun n => n.Fits .code depth := by
  refine keeps_get.then fun p => gives_ite (fun _ => gives_failAt _ _) fun _ => ?_
  refine (keeps_discard keeps_advance).then fun _ => keeps_ahead.then fun token => ?_
  extract_lets isLoop
  refine (gives_modify ?_).bind fun _ _ => (hr.statement hdepth).bind fun body hbody => (gives_modify ?_).bind fun _ _ => ?_
  · exact fun _ => rfl
  · exact fun _ => rfl
  · exact gives_code marker hdepth rfl (List.forall_mem_singleton.2 (Node.Fits.code hbody rfl))

theorem gives_expressionOrLabeled : Gives depth (expressionOrLabeled reach) fun n => n.Fits .code depth := by
  refine keeps_start.then fun marker => (gives_expression hr hdepth).bind fun e he => ?_
  have hplain : Gives depth (do eatSemicolon; finish marker (.expressionStatement e none)) fun n =>
      n.Fits .code depth :=
    keeps_eatSemicolon.then fun _ => gives_code marker hdepth rfl (List.forall_mem_singleton.2 he)
  dsimp only
  split
  · exact (keeps_at _).then fun _ => gives_ite (fun _ => gives_labeled hr hdepth marker e _) fun _ => hplain
  · exact hplain

omit hr hdepth in
/-- What is given at most once holds of every node that it gives. -/
theorem gives_some {x : Parse Node} {P : Node → Prop} (h : Gives depth x P) :
    Gives depth (some <$> x) fun o => ∀ n ∈ o, P n := by
  refine h.map fun n hn => ?_
  rintro _ ⟨⟩
  exact hn

theorem gives_ifStatement : Gives depth (ifStatement reach) fun n => n.Fits .code depth := by
  refine keeps_start.then fun marker => (keeps_discard keeps_advance).then fun _ => ?_
  refine (gives_parenthesized hr hdepth).bind fun test htest => (hr.statement hdepth).bind fun consequent hconsequent => ?_
  refine (keeps_eatIfWord _).then fun _ => ?_
  extract_lets close
  have hclose : ∀ alternate : Option Node, (∀ n ∈ alternate, (Part.statement n).Fits depth) →
      Gives depth (close alternate) fun n => n.Fits .code depth := fun alternate halternate =>
    gives_code marker hdepth rfl (List.forall_mem_cons.2 ⟨htest, List.forall_mem_cons.2 ⟨hconsequent,
      List.forall_mem_map.2 fun n hn => halternate n (Option.mem_toList.1 hn)⟩⟩)
  exact gives_ite (fun _ => (gives_some (hr.statement hdepth)).bind hclose) fun _ => hclose none nofun

theorem gives_withStatement : Gives depth (withStatement reach) fun n => n.Fits .code depth := by
  refine keeps_start.then fun marker => keeps_get.then fun p => gives_ite (fun _ => gives_fail _) fun _ => ?_
  refine (keeps_discard keeps_advance).then fun _ => (gives_parenthesized hr hdepth).bind fun object hobject => ?_
  exact (hr.statement hdepth).bind fun body hbody =>
    gives_code marker hdepth rfl (forall_mem_pair.2 ⟨hobject, hbody⟩)

/-! ## 2. Loops -/

theorem gives_loopBody : Gives depth (loopBody reach) fun n => (Part.statement n).Fits depth := by
  refine (hr.statement hdepth).between ?_ ?_
  · exact fun _ => rfl
  · exact fun _ => rfl

theorem gives_whileStatement : Gives depth (whileStatement reach) fun n => n.Fits .code depth := by
  refine keeps_start.then fun marker => (keeps_discard keeps_advance).then fun _ => ?_
  refine (gives_parenthesized hr hdepth).bind fun test htest => (gives_loopBody hr hdepth).bind fun body hbody => ?_
  exact gives_code marker hdepth rfl (forall_mem_pair.2 ⟨htest, hbody⟩)

theorem gives_doWhileStatement : Gives depth (doWhileStatement reach) fun n => n.Fits .code depth := by
  refine keeps_start.then fun marker => (keeps_discard keeps_advance).then fun _ => ?_
  refine (gives_loopBody hr hdepth).bind fun body hbody => (keeps_eatWord _).then fun _ => ?_
  refine (gives_parenthesized hr hdepth).bind fun test htest => (keeps_discard (keeps_eatIf _)).then fun _ => ?_
  exact gives_code marker hdepth rfl (forall_mem_pair.2 ⟨hbody, htest⟩)

theorem gives_forInRest (marker : Marker) {left : Node} (hleft : left.Fits .target depth) :
    Gives depth (forInRest reach marker left) fun n => n.Fits .code depth := by
  refine (keeps_discard keeps_advance).then fun _ => (gives_expression hr hdepth).bind fun right hright => ?_
  refine (keeps_eat _).then fun _ => (gives_loopBody hr hdepth).bind fun body hbody => ?_
  exact gives_code marker hdepth rfl (forall_mem_triple.2 ⟨hleft, hright, hbody⟩)

theorem gives_forRest (marker : Marker) {init : Option Node} (hinit : ∀ n ∈ init, (Part.expression n).Fits depth) :
    Gives depth (forRest reach marker init) fun n => n.Fits .code depth := by
  refine (keeps_eat _).then fun _ => (keeps_at _).then fun _ => ?_
  extract_lets update
  have hupdate : ∀ test : Option Node, (∀ n ∈ test, (Part.expression n).Fits depth) →
      Gives depth (update test) fun n => n.Fits .code depth := by
    intro test htest
    refine (keeps_eat _).then fun _ => (keeps_at _).then fun _ => ?_
    extract_lets close
    have hclose : ∀ update : Option Node, (∀ n ∈ update, (Part.expression n).Fits depth) →
        Gives depth (close update) fun n => n.Fits .code depth := by
      intro update hupdate
      refine (keeps_eat _).then fun _ => (gives_loopBody hr hdepth).bind fun body hbody => ?_
      refine gives_code marker hdepth rfl (List.forall_mem_append.2 ⟨List.forall_mem_append.2
        ⟨List.forall_mem_append.2 ⟨?_, ?_⟩, ?_⟩, List.forall_mem_singleton.2 hbody⟩)
      · exact List.forall_mem_map.2 fun n hn => hinit n (Option.mem_toList.1 hn)
      · exact List.forall_mem_map.2 fun n hn => htest n (Option.mem_toList.1 hn)
      · exact List.forall_mem_map.2 fun n hn => hupdate n (Option.mem_toList.1 hn)
    exact gives_ite (fun _ => hclose none nofun) fun _ => (gives_some (gives_expression hr hdepth)).bind hclose
  exact gives_ite (fun _ => hupdate none nofun) fun _ => (gives_some (gives_expression hr hdepth)).bind hupdate

omit hr hdepth in
/-- What can be assigned to can be the variable of a loop over names. -/
theorem fits_target {n : Node} (h : n.Fits (.pattern .assign) depth) : n.Fits .target depth := by
  have htarget := h.isTarget
  obtain ⟨hdepth, _, hparts⟩ := h
  refine ⟨hdepth, .inl (by simp [Kind.suits.eq_def, htarget]), ?_⟩
  obtain ⟨kind, span⟩ := n
  cases kind with
  | variableDeclaration ds kind => cases htarget
  | _ => exact hparts

omit hr hdepth in
/-- What passes the check declares one variable without a value, which fits as the variable of a loop over names. -/
theorem gives_checkForInHead {head : Node} {inHead : Bool} {p : Parser} (hdepth : depth ≤ maxNesting)
    (h : FitsDeclaration depth inHead head p) :
    Gives depth (checkForInHead head) fun _ => head.Fits .target depth := by
  obtain ⟨head, span⟩ := head
  obtain ⟨ds, kind, rfl, hfits, _⟩ := h
  unfold checkForInHead
  split
  · exact gives_fail _
  · rename_i d kind' hvalue hkind
    cases hkind
    refine gives_pure ?_
    obtain ⟨id, init, hd, hid, _⟩ := List.forall_mem_singleton.1 hfits
    obtain ⟨dkind, dspan⟩ := d
    cases hd
    cases init with
    | some value => exact absurd rfl (hvalue id value dspan)
    | none => exact ⟨hdepth, .inl rfl, List.forall_mem_singleton.2 (hid _)⟩
  · exact gives_fail _
  · exact gives_unexpected

omit hr hdepth in
/-- Without the names to loop over ahead, the head of a loop is an expression or a declaration that fits. -/
theorem fits_head (hdepth : depth ≤ maxNesting) {declares : Bool} {head : Node} {p : Parser}
    (h : if declares then FitsDeclaration depth true head p else (Part.expression head).Fits depth)
    (hends : ¬ EndsHead p) : (Part.expression head).Fits depth := by
  cases declares with
  | false => exact h
  | true =>
    obtain ⟨kind, span⟩ := head
    have hcode := FitsDeclaration.fits hdepth h (fun h => hends h.2) span
    obtain ⟨ds, kind', rfl, _⟩ := h
    exact hcode

omit hr hdepth in
theorem withoutIn_ok {α : Type} {production : Parse α} {p p' : Parser} {a : α}
    (h : withoutIn production p = .ok a p') :
    ∃ p₁ p₂, production p₁ = .ok a p₂ ∧ p₁.depth = p.depth ∧ p'.depth = p₂.depth ∧ p'.current = p₂.current := by
  obtain ⟨_, p₁, hmodify, h⟩ := bind_ok h
  cases hmodify
  obtain ⟨a', p₂, hproduction, h⟩ := bind_ok h
  obtain ⟨_, p₃, hmodify, h⟩ := bind_ok h
  cases hmodify
  cases h
  exact ⟨_, p₂, hproduction, rfl, rfl, rfl⟩

omit hr hdepth in
theorem endsHead_congr {p p' : Parser} (h : p'.current = p.current) : EndsHead p' ↔ EndsHead p := by
  simp [EndsHead, h]

theorem gives_forStatement : Gives depth (forStatement reach) fun n => n.Fits .code depth := by
  refine keeps_start.then fun marker => (keeps_discard keeps_advance).then fun _ => (keeps_eat _).then fun _ => ?_
  refine keeps_ahead.then fun token => ?_
  extract_lets declares
  refine (keeps_at _).then fun _ => gives_ite (fun _ => gives_forRest hr hdepth marker nofun) fun _ => ?_
  clear_value declares
  intro p n p' hp h
  obtain ⟨head, p₁, hhead, h⟩ := bind_ok h
  obtain ⟨hp₁, hhead⟩ : p₁.depth = depth ∧
      if declares then FitsDeclaration depth true head p₁ else (Part.expression head).Fits depth := by
    obtain ⟨q, q', hq, hdq, hdp, hcurrent⟩ := withoutIn_ok hhead
    cases declares with
    | true =>
      obtain ⟨hq', ds, kind, hkind, hfits, hvalues⟩ := variableDeclaration_yields hr hdepth true q head q' (hdq.trans hp) hq
      refine ⟨hdp.trans hq', ds, kind, hkind, hfits, ?_⟩
      exact hvalues.imp_right fun h => ⟨h.1, (endsHead_congr hcurrent).2 h.2⟩
    | false =>
      obtain ⟨hq', hfits⟩ := gives_expression hr hdepth q head q' (hdq.trans hp) hq
      exact ⟨hdp.trans hq', hfits⟩
  obtain ⟨isOf, p₂, hof, hrest⟩ := bind_ok h
  obtain ⟨rfl, hof⟩ := atOf_ok hof
  split at hrest
  · exact gives_unsupported _ _ _ _ hp₁ hrest
  rename_i hnotOf
  obtain ⟨isIn, p₃, hin, hloop⟩ := bind_ok hrest
  cases hin
  split at hloop
  · cases declares with
    | true =>
      have hgives : Gives depth (do checkForInHead head; forInRest reach marker head) fun n => n.Fits .code depth :=
        (gives_checkForInHead hdepth hhead).bind fun _ htarget => gives_forInRest hr hdepth marker htarget
      exact hgives _ _ _ hp₁ hloop
    | false =>
      have hcode : head.Fits .code depth := Node.Fits.mono hhead (Nat.le_add_right _ _)
      have hgives : Gives depth (do forInRest reach marker (← assignmentTarget true head)) fun n =>
          n.Fits .code depth :=
        (gives_assignmentTarget hcode true).bind fun target htarget =>
          gives_forInRest hr hdepth marker (fits_target htarget.1)
      exact hgives _ _ _ hp₁ hloop
  · rename_i hnotIn
    have hends : ¬ EndsHead p₂ := fun hends => hends.elim hnotIn fun h => hnotOf (hof.2 h)
    refine gives_forRest hr hdepth marker ?_ _ _ _ hp₁ hloop
    rintro _ ⟨⟩
    exact fits_head hdepth hhead hends

/-! ## 3. Jumps -/

omit hr hdepth in
theorem keeps_checkJump {γ : Type} {view : Parser → γ} (marker : Marker) (isBreak : Bool) (label : Option String) :
    Keeps view (checkJump marker isBreak label) := by
  refine keeps_get.bind fun p => ?_
  cases label with
  | none => exact keeps_ite (keeps_failAt _ _) (keeps_pure _)
  | some name =>
    dsimp only
    split
    · exact keeps_failAt _ _
    · exact keeps_ite (keeps_failAt _ _) (keeps_pure _)

omit hr hdepth in
theorem gives_jumpStatement (hdepth : depth ≤ maxNesting) : Gives depth jumpStatement fun n => n.Fits .code depth := by
  refine keeps_start.then fun marker => keeps_advance.then fun token => keeps_optionalLabel.then fun label => ?_
  refine (keeps_checkJump _ _ _).then fun _ => keeps_eatSemicolon.then fun _ => ?_
  split
  · exact gives_leaf marker hdepth rfl rfl
  · exact gives_leaf marker hdepth rfl rfl

theorem gives_returnStatement : Gives depth (returnStatement reach) fun n => n.Fits .code depth := by
  refine keeps_start.then fun marker => keeps_get.then fun p => gives_ite (fun _ => gives_fail _) fun _ => ?_
  refine (keeps_discard keeps_advance).then fun _ => keeps_get.then fun p => ?_
  extract_lets ends close
  have hclose : ∀ argument : Option Node, (∀ n ∈ argument, (Part.expression n).Fits depth) →
      Gives depth (close argument) fun n => n.Fits .code depth := fun argument h =>
    keeps_eatSemicolon.then fun _ =>
      gives_code marker hdepth rfl (List.forall_mem_map.2 fun n hn => h n (Option.mem_toList.1 hn))
  exact gives_ite (fun _ => hclose none nofun) fun _ => (gives_some (gives_expression hr hdepth)).bind hclose

theorem gives_throwStatement : Gives depth (throwStatement reach) fun n => n.Fits .code depth := by
  refine keeps_start.then fun marker => (keeps_discard keeps_advance).then fun _ => keeps_get.then fun p => ?_
  refine gives_ite (fun _ => gives_fail _) fun _ => (gives_expression hr hdepth).bind fun argument h => ?_
  exact keeps_eatSemicolon.then fun _ => gives_code marker hdepth rfl (List.forall_mem_singleton.2 h)

/-! ## 4. Switches and faults -/

omit hr hdepth in
theorem keeps_caseGoesOn {γ : Type} {view : Parser → γ} : Keeps view caseGoesOn := by
  refine keeps_ahead.bind fun token => ?_
  split <;> exact keeps_pure _

theorem gives_switchCases :
    ∀ (fuel : Nat) (hasDefault : Bool) (acc : List Node), (∀ n ∈ acc, n.Fits .case depth) →
      Gives depth (switchCases reach fuel hasDefault acc) fun l => ∀ n ∈ l, n.Fits .case depth
  | 0, _, _, hacc => gives_pure hacc
  | fuel + 1, hasDefault, acc, hacc => by
    refine (keeps_at _).then fun _ => gives_ite (fun _ => gives_pure hacc) fun _ => keeps_start.then fun marker => ?_
    refine keeps_advance.then fun token => ?_
    extract_lets rest
    have hrest : ∀ (test : Option Node) (isDefault : Bool), (∀ n ∈ test, (Part.expression n).Fits depth) →
        Gives depth (rest (test, isDefault)) fun l => ∀ n ∈ l, n.Fits .case depth := by
      intro test isDefault htest
      refine (keeps_eat _).then fun _ => (gives_items hr hdepth keeps_caseGoesOn).bind fun consequent hconsequent => ?_
      have hcase : Gives depth (finish marker (.switchCase test consequent)) fun n => n.Fits .case depth :=
        gives_finish marker fun _ => ⟨hdepth, .inl rfl, List.forall_mem_append.2
          ⟨List.forall_mem_map.2 fun n hn => htest n (Option.mem_toList.1 hn), List.forall_mem_map.2 hconsequent⟩⟩
      exact hcase.bind fun n hn => gives_switchCases fuel _ (n :: acc) (List.forall_mem_cons.2 ⟨hn, hacc⟩)
    split
    · refine (gives_expression hr hdepth).bind fun test htest => hrest (some test) false ?_
      rintro _ ⟨⟩
      exact htest
    · refine gives_ite (fun _ => ?_) fun _ => hrest none true (by simp)
      exact (gives_failAt (P := fun _ => False) _ _).bind fun _ h => h.elim
    · exact (gives_failAt (P := fun _ => False) _ _).bind fun _ h => h.elim

theorem gives_switchStatement : Gives depth (switchStatement reach) fun n => n.Fits .code depth := by
  refine keeps_start.then fun marker => (keeps_discard keeps_advance).then fun _ => ?_
  refine (gives_parenthesized hr hdepth).bind fun discriminant h => (keeps_eat _).then fun _ => ?_
  refine (gives_modify ?_).bind fun _ _ => keeps_get.then fun p => ?_
  · exact fun _ => rfl
  refine (gives_switchCases hr hdepth _ _ [] nofun).bind fun cases hcases => (gives_modify ?_).bind fun _ _ => ?_
  · exact fun _ => rfl
  refine (keeps_eat _).then fun _ => gives_code marker hdepth rfl ?_
  exact List.forall_mem_cons.2 ⟨h, List.forall_mem_map.2 fun n hn => hcases n (List.mem_reverse.1 hn)⟩

theorem gives_catchClause : Gives depth (catchClause reach) fun n => n.Fits .handler depth := by
  refine keeps_start.then fun marker => (keeps_discard keeps_advance).then fun _ => (keeps_eatIf _).then fun _ => ?_
  extract_lets rest
  have hrest : ∀ param : Option Node, (∀ n ∈ param, n.Fits (.pattern .parameter) depth) →
      Gives depth (rest param) fun n => n.Fits .handler depth := fun param hparam =>
    (gives_block hr hdepth).bind fun body hbody => gives_finish marker fun _ => ⟨hdepth, .inl rfl,
      List.forall_mem_append.2 ⟨List.forall_mem_map.2 fun n hn => hparam n (Option.mem_toList.1 hn),
        List.forall_mem_singleton.2 hbody⟩⟩
  refine gives_ite (fun _ => ?_) fun _ => hrest none nofun
  refine (hr.bindingTarget hdepth).bind fun param h => (keeps_eat _).then fun _ => hrest (some param) ?_
  rintro _ ⟨⟩
  exact h .parameter

theorem gives_tryStatement : Gives depth (tryStatement reach) fun n => n.Fits .code depth := by
  refine keeps_start.then fun marker => (keeps_discard keeps_advance).then fun _ => ?_
  refine (gives_block hr hdepth).bind fun body hbody => (keeps_atWord _).then fun _ => ?_
  extract_lets rest
  have hrest : ∀ handler : Option Node, (∀ n ∈ handler, n.Fits .handler depth) →
      Gives depth (rest handler) fun n => n.Fits .code depth := by
    intro handler hhandler
    refine (keeps_eatIfWord _).then fun _ => ?_
    extract_lets close
    have hclose : ∀ finalizer : Option Node, (∀ n ∈ finalizer, n.Fits .code depth) →
        Gives depth (close finalizer) fun n => n.Fits .code depth := fun finalizer hfinalizer =>
      gives_ite (fun _ => gives_fail _) fun _ => gives_code marker hdepth rfl (List.forall_mem_cons.2 ⟨hbody,
        List.forall_mem_append.2 ⟨List.forall_mem_map.2 fun n hn => hhandler n (Option.mem_toList.1 hn),
          List.forall_mem_map.2 fun n hn => hfinalizer n (Option.mem_toList.1 hn)⟩⟩)
    exact gives_ite (fun _ => (gives_some (gives_block hr hdepth)).bind hclose) fun _ => hclose none nofun
  exact gives_ite (fun _ => (gives_some (gives_catchClause hr hdepth)).bind hrest) fun _ => hrest none nofun

/-! ## 5. Statements and items -/

/-- **A statement fits.** -/
theorem gives_statement : Gives depth (statement reach) fun n => n.Fits .code depth := by
  refine keeps_start.then fun marker => keeps_ahead.then fun token => ?_
  split
  · exact gives_block hr hdepth
  · exact (keeps_discard keeps_advance).then fun _ => gives_leaf marker hdepth rfl rfl
  · exact gives_variableStatement hr hdepth
  · exact gives_ifStatement hr hdepth
  · exact gives_forStatement hr hdepth
  · exact gives_whileStatement hr hdepth
  · exact gives_doWhileStatement hr hdepth
  · exact gives_jumpStatement hdepth
  · exact gives_jumpStatement hdepth
  · exact gives_returnStatement hr hdepth
  · exact gives_withStatement hr hdepth
  · exact gives_switchStatement hr hdepth
  · exact gives_throwStatement hr hdepth
  · exact gives_tryStatement hr hdepth
  · exact (keeps_discard keeps_advance).then fun _ => keeps_eatSemicolon.then fun _ => gives_leaf marker hdepth rfl rfl
  · exact keeps_get.then fun p => gives_ite (fun _ => gives_fail _) fun _ =>
      (gives_function hr hdepth marker _).mono fun _ h => h.1
  · exact gives_fail _
  · exact gives_fail _
  · exact gives_fail _
  · exact gives_unsupported _
  · exact gives_unsupported _
  · exact gives_fail _
  · exact gives_expressionOrLabeled hr hdepth

omit hr hdepth in
/-- A declaration in a list is not charged for. -/
theorem fits_declaration {n : Node} (h : n.Fits .code depth) (hdeclaration : n.isDeclaration) :
    (Part.item n).Fits depth := by
  have hitem := h.item
  simpa [Part.item, Part.Fits, hdeclaration] using hitem

/-- A declaration of variables in a list fits. -/
theorem lexicalStatement_ok {p p' : Parser} {n : Node} (hp : p.depth = depth)
    (hword : p.current.isWord .varWord = false) (h : variableStatement reach p = .ok n p') :
    p'.depth = depth ∧ (Part.item n).Fits depth := by
  obtain ⟨hp', hfits⟩ := gives_variableStatement hr hdepth p n p' hp h
  refine ⟨hp', fits_declaration hfits ?_⟩
  obtain ⟨marker, p₁, hm, h⟩ := bind_ok h
  cases hm
  obtain ⟨declaration, p₂, hdeclaration, h⟩ := bind_ok h
  obtain ⟨_, p₃, _, h⟩ := bind_ok h
  cases h
  have hlexical := variableDeclaration_isDeclaration hdeclaration hword
  exact hlexical

/-- **An item fits.** A declaration is read at the depth of the list, and every other statement one level deeper. -/
theorem gives_item : Gives depth (item reach) fun n => (Part.item n).Fits depth := by
  intro p n p' hp h
  obtain ⟨marker, p₁, hm, h⟩ := bind_ok h
  cases hm
  obtain ⟨token, p₂, ht, h⟩ := bind_ok h
  cases ht
  have hfunction := (gives_function hr hdepth { start := p.currentStart, position := p.currentPosition }
    .declaration).mono fun n hn => fits_declaration hn.1 (hn.2 rfl)
  have hclass := (gives_classLike hr hdepth { start := p.currentStart, position := p.currentPosition }
    .declaration).mono fun n hn => fits_declaration hn.1 (hn.2 rfl)
  have hstatement := (hr.statement hdepth).mono fun n hn => fits_item (Node.Fits.item hn) (Nat.le_refl _)
  generalize hcurrent : p.current = token at h
  split at h
  · exact hfunction p n p' hp h
  · exact hclass p n p' hp h
  · exact lexicalStatement_ok hr hdepth hp (by rw [hcurrent]; rfl) h
  · exact lexicalStatement_ok hr hdepth hp (by rw [hcurrent]; rfl) h
  · exact hstatement p n p' hp h

end

end GuestScript.Parser
