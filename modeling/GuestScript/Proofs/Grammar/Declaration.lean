import GuestScript.Proofs.Grammar.Cover
import GuestScript.Proofs.Grammar.Production
import Mathlib.Data.List.ReduceOption

/-!
# Patterns, functions and classes fit

Given that the goals inside a production are reached soundly (`Parser.Sound`), the productions of patterns, variables,
functions and classes give trees that fit the places that these are for, at the depth at which they run.
-/

namespace GuestScript.Parser

variable {n : Node} {params : List Node} {p p' : Parser}

/-- Whether every goal gives a tree that fits, one level deeper for the goals that are charged for. -/
structure Sound (reach : Reach) : Prop where
  item {depth : Nat} (hdepth : depth ≤ maxNesting) :
    Gives depth (reach .item) fun n => (Part.item n).Fits depth
  statement {depth : Nat} (hdepth : depth ≤ maxNesting) :
    Gives depth (reach .statement) fun n => (Part.statement n).Fits depth
  assignment {depth : Nat} (hdepth : depth ≤ maxNesting) :
    Gives depth (reach .assignment) fun n => (Part.operand n).Fits depth
  unary {depth : Nat} (hdepth : depth ≤ maxNesting) :
    Gives depth (reach .unary) fun n => (Part.operand n).Fits depth
  newExpression {depth : Nat} (hdepth : depth ≤ maxNesting) :
    Gives depth (reach .newExpression) fun n => (Part.operand n).Fits depth
  /-- What stands to the left was read above, and so is what the operators make of it. -/
  binaryRest {depth depth' : Nat} (hdepth : depth ≤ maxNesting) (hle : depth' ≤ depth) (marker : Marker) {left : Node}
    (hleft : left.Fits .code depth') (least : Nat) :
    Gives depth (reach (.binaryRest marker left least)) fun n => n.Fits .code depth'
  leftHandSide {depth : Nat} (hdepth : depth ≤ maxNesting) :
    Gives depth (reach .leftHandSide) fun n => n.Fits .code depth
  bindingTarget {depth : Nat} (hdepth : depth ≤ maxNesting) :
    Gives depth (reach .bindingTarget) fun n => ∀ mode, n.Fits (.pattern mode) depth

variable {reach : Reach} {depth : Nat}

/-- A node that is closed is code that fits when its parts do. -/
theorem gives_code (marker : Marker) {kind : Kind} (hdepth : depth ≤ maxNesting) (hcode : kind.isCode)
    (hparts : ∀ p ∈ kind.codeParts, p.Fits depth) : Gives depth (finish marker kind) fun n => n.Fits .code depth :=
  gives_finish marker (Node.Fits.of_codeParts hdepth hcode hparts)

/-- A node without parts that is closed is code that fits. -/
theorem gives_leaf (marker : Marker) {kind : Kind} (hdepth : depth ≤ maxNesting) (hcode : kind.isCode)
    (hparts : kind.codeParts = []) : Gives depth (finish marker kind) fun n => n.Fits .code depth :=
  gives_finish marker (Node.Fits.leaf hdepth hcode hparts)

/-- A name fits wherever something is bound or assigned to. -/
theorem fits_name (hdepth : depth ≤ maxNesting) (name : String) (span : Span) (mode : BindingMode) :
    (Node.mk (.identifier name) span).Fits (.pattern mode) depth :=
  ⟨hdepth, .inl rfl, nofun⟩

/-- An expression fits below what it is an operand of. -/
theorem fits_expression (h : (Part.operand n).Fits depth) : (Part.expression n).Fits depth := by
  refine Node.Fits.mono h (Nat.add_le_add_left ?_ depth)
  dsimp only [Part.expression, Part.expressionGuards, Part.operand]
  split <;> omega

/-! ## 1. Property keys -/

theorem fits_plainKey (hdepth : depth ≤ maxNesting)
    (h : (∃ name, n.kind = .identifier name) ∨ ∃ value raw, n.kind = .literal value raw none) :
    (Part.key false n).Fits depth := by
  obtain ⟨kind, span⟩ := n
  rcases h with ⟨name, rfl⟩ | ⟨value, raw, rfl⟩
  · exact ⟨hdepth, .inl rfl, nofun⟩
  · exact ⟨hdepth, .inl rfl, nofun⟩

section

variable (hr : Sound reach) (hdepth : depth ≤ maxNesting)

include hr hdepth

/-- **A key fits.** -/
theorem gives_propertyKey : Gives depth (propertyKey reach) fun key => (Part.key key.2 key.1).Fits depth := by
  refine keeps_start.then fun marker => keeps_ahead.then fun token => ?_
  split
  · refine (keeps_discard keeps_advance).then fun _ => (gives_withIn (hr.assignment hdepth)).bind fun key hkey => ?_
    exact (keeps_eat _).then fun _ => gives_pure (Node.Fits.computedKey (fits_expression hkey))
  · exact (gives_literal _).bind fun key hkey => gives_pure (fits_plainKey hdepth (.inr ⟨_, hkey⟩))
  · exact (gives_literal _).bind fun key hkey => gives_pure (fits_plainKey hdepth (.inr ⟨_, hkey⟩))
  · exact gives_unsupported _
  · refine keeps_propertyNameAhead.then fun name => ?_
    cases name with
    | none => exact gives_unexpected
    | some name =>
      refine (keeps_discard keeps_advance).then fun _ => ?_
      exact (gives_finish marker fun _ => ⟨name, rfl⟩).bind fun key hkey =>
        gives_pure (fits_plainKey hdepth (.inl hkey))

omit hr hdepth in
theorem keeps_afterModifier {γ : Type} {view : Parser → γ} : Keeps view afterModifier := by
  refine keeps_ahead.bind fun token => ?_
  split <;> exact keeps_pure _

/-! ## 2. Patterns -/

omit hr hdepth in
/-- A value that has to be assigned fits as one. -/
theorem fits_value {target : Node} (h : (Part.operand n).Fits depth) : (Part.value target n).Fits depth := by
  have hcode : n.Fits .code (depth + 1) := h
  cases hname : target.name?.isSome with
  | true => simpa [Part.value, Part.Fits, hname] using hcode.code rfl
  | false => simpa [Part.value, Part.Fits, hname] using hcode

omit hr hdepth in
theorem gives_assignmentPattern (marker : Marker) (hdepth : depth ≤ maxNesting) {target right : Node}
    (htarget : ∀ mode, target.Fits (.pattern mode) depth) (hright : (Part.operand right).Fits depth) :
    Gives depth (finish marker (.assignmentPattern target right)) fun n => ∀ mode, n.Fits (.pattern mode) depth :=
  gives_finish marker fun _ mode =>
    ⟨hdepth, .inl rfl, forall_mem_pair.2 ⟨htarget mode, fits_value hright⟩⟩

theorem gives_bindingElement : Gives depth (bindingElement reach) fun n => ∀ mode, n.Fits (.pattern mode) depth := by
  refine keeps_start.then fun marker => (hr.bindingTarget hdepth).bind fun target htarget => ?_
  refine (keeps_eatIf _).then fun _ => gives_ite (fun _ => ?_) fun _ => gives_pure htarget
  refine (gives_withIn (hr.assignment hdepth)).bind fun right hright => ?_
  exact gives_assignmentPattern marker hdepth htarget hright

/-- Whether a node fits where the rest of a pattern or of the parameters may stand. -/
def FitsRest (depth : Nat) (n : Node) : Prop :=
  n.Fits .parameter depth ∧ ∀ mode, n.Fits (.patternElement mode) depth ∧ n.Fits (.patternPart mode) depth

omit hr hdepth in
theorem gives_rest (marker : Marker) {argument : Node} (h : ∀ mode, argument.Fits (.pattern mode) depth) :
    Gives depth (finish marker (.restElement argument)) (FitsRest depth) :=
  gives_finish marker fun span =>
    ⟨⟨(h .parameter).depth_le, .inl rfl, List.forall_mem_singleton.2 (h .parameter)⟩, fun mode => (h mode).rest span⟩

theorem gives_restElement : Gives depth (restElement reach) (FitsRest depth) := by
  refine keeps_start.then fun marker => (keeps_eat _).then fun _ => (hr.bindingTarget hdepth).bind fun argument h => ?_
  exact (keeps_at _).then fun _ => gives_ite (fun _ => gives_fail _) fun _ => gives_rest marker h

omit hr hdepth in
theorem keeps_eatSeparator (close : Punctuator) : Keeps Parser.depth (eatSeparator close) :=
  (keeps_at close).bind fun _ => keeps_ite (keeps_pure _) (keeps_eat _)

omit hr hdepth in
/-- What holds of the elements and of the rest of a list holds of all that it collects. -/
theorem gives_restList {α : Type} {P : α → Prop} {close : Punctuator} {rest element : Parse α}
    (hrest : Gives depth rest P) (helement : Gives depth element P) :
    ∀ (fuel : Nat) (acc : List α), (∀ a ∈ acc, P a) →
      Gives depth (restList close rest element fuel acc) fun l => ∀ a ∈ l, P a
  | 0, _, hacc => gives_pure hacc
  | fuel + 1, acc, hacc => by
    refine (keeps_at _).then fun _ => gives_ite (fun _ => gives_pure hacc) fun _ => ?_
    refine (keeps_at _).then fun _ => gives_ite (fun _ => ?_) fun _ => ?_
    · exact hrest.bind fun a ha => gives_pure (List.forall_mem_cons.2 ⟨ha, hacc⟩)
    · refine helement.bind fun a ha => (keeps_eatSeparator close).then fun _ => ?_
      exact gives_restList hrest helement fuel (a :: acc) (List.forall_mem_cons.2 ⟨ha, hacc⟩)

theorem gives_arrayPatternElements :
    ∀ (fuel : Nat) (acc : List (Option Node)), (∀ n, some n ∈ acc → ∀ mode, n.Fits (.patternElement mode) depth) →
      Gives depth (arrayPatternElements reach fuel acc) fun elements =>
        ∀ n, some n ∈ elements → ∀ mode, n.Fits (.patternElement mode) depth
  | 0, _, hacc => gives_pure hacc
  | fuel + 1, acc, hacc => by
    refine (keeps_at _).then fun _ => gives_ite (fun _ => gives_pure hacc) fun _ => ?_
    refine (keeps_eatIf _).then fun _ => gives_ite (fun _ => ?_) fun _ => ?_
    · exact gives_arrayPatternElements fuel (none :: acc) fun n hn => hacc n (by simpa using hn)
    refine (keeps_at _).then fun _ => gives_ite (fun _ => ?_) fun _ => ?_
    · refine (gives_restElement hr hdepth).bind fun rest hrest => gives_pure fun n hn => ?_
      cases hn with
      | head => exact fun mode => (hrest.2 mode).1
      | tail _ hn => exact hacc n hn
    · refine (gives_bindingElement hr hdepth).bind fun e he => (keeps_eatSeparator _).then fun _ => ?_
      refine gives_arrayPatternElements fuel (some e :: acc) fun n hn => ?_
      cases hn with
      | head => exact fun mode => (he mode).patternElement
      | tail _ hn => exact hacc n hn

theorem gives_arrayPattern : Gives depth (arrayPattern reach) fun n => ∀ mode, n.Fits (.pattern mode) depth := by
  refine keeps_start.then fun marker => (keeps_eat _).then fun _ => keeps_get.then fun p => ?_
  refine (gives_arrayPatternElements hr hdepth _ [] nofun).bind fun elements helements => ?_
  refine (keeps_eat _).then fun _ => gives_finish marker fun _ mode => ⟨hdepth, .inl rfl, ?_⟩
  refine List.forall_mem_map.2 fun n hn => helements n ?_ mode
  exact List.mem_reverse.1 (List.reduceOption_mem_iff.1 hn)

omit hr hdepth in
/-- The key of a shorthand property is a plain name. -/
theorem gives_shorthandName (key : Node) (computed : Bool) :
    Gives depth (shorthandName key computed) fun name => key.kind = .identifier name ∧ computed = false := by
  unfold shorthandName
  split
  · rename_i name hkey
    exact keeps_get.then fun _ => gives_ite (fun _ => gives_unexpected) fun _ => gives_pure ⟨hkey, rfl⟩
  · exact gives_unexpected

theorem gives_patternProperty :
    Gives depth (patternProperty reach) fun n => ∀ mode, n.Fits (.patternPart mode) depth := by
  refine keeps_start.then fun marker => (gives_propertyKey hr hdepth).bind fun ⟨key, computed⟩ hkey => ?_
  -- the key and the value fit with every value that does
  have hclose : ∀ {value : Node} {shorthand computed : Bool}, (Part.key computed key).Fits depth →
      (∀ mode, value.Fits (.pattern mode) depth) →
      Gives depth (finish marker (.property key value .init false shorthand computed)) fun n =>
        ∀ mode, n.Fits (.patternPart mode) depth := fun hkey hvalue =>
    gives_finish marker fun _ mode => ⟨hdepth, .inl rfl, forall_mem_pair.2 ⟨hkey, hvalue mode⟩⟩
  refine (keeps_eatIf _).then fun _ => gives_ite (fun _ => ?_) fun _ => ?_
  · exact (gives_bindingElement hr hdepth).bind fun value hvalue => hclose hkey hvalue
  · refine (gives_shorthandName key computed).bind fun name hname => (keeps_checkBinding name).then fun _ => ?_
    obtain ⟨hkind, rfl⟩ := hname
    have hid := fits_name hdepth name key.span
    refine (keeps_eatIf _).then fun _ => gives_ite (fun _ => ?_) fun _ => hclose hkey hid
    refine (gives_withIn (hr.assignment hdepth)).bind fun right hright => ?_
    exact (gives_assignmentPattern marker hdepth hid hright).bind fun value hvalue => hclose hkey hvalue

omit hr hdepth in
theorem gives_bindingIdentifierPattern (hdepth : depth ≤ maxNesting) :
    Gives depth bindingIdentifier fun n => ∀ mode, n.Fits (.pattern mode) depth := by
  refine gives_bindingIdentifier.mono fun n hn => ?_
  obtain ⟨kind, span⟩ := n
  obtain ⟨name, rfl⟩ := hn
  exact fits_name hdepth name span

omit hr hdepth in
theorem gives_objectRest (hdepth : depth ≤ maxNesting) : Gives depth objectRest (FitsRest depth) :=
  keeps_start.then fun marker => (keeps_discard keeps_advance).then fun _ =>
    (gives_bindingIdentifierPattern hdepth).bind fun _ h => gives_rest marker h

theorem gives_objectPattern : Gives depth (objectPattern reach) fun n => ∀ mode, n.Fits (.pattern mode) depth := by
  refine keeps_start.then fun marker => (keeps_eat _).then fun _ => keeps_get.then fun p => ?_
  have hrest := (gives_objectRest hdepth).mono fun n hn mode => (hn.2 mode).2
  refine (gives_restList hrest (gives_patternProperty hr hdepth) _ [] nofun).bind fun properties hproperties => ?_
  refine (keeps_eat _).then fun _ => gives_finish marker fun _ mode => ⟨hdepth, .inl rfl, ?_⟩
  exact List.forall_mem_map.2 fun n hn => hproperties n (List.mem_reverse.1 hn) mode

/-- **A name or a pattern that is bound fits wherever it is bound.** -/
theorem gives_bindingTarget : Gives depth (bindingTarget reach) fun n => ∀ mode, n.Fits (.pattern mode) depth := by
  refine (keeps_at _).then fun _ => gives_ite (fun _ => ?_) fun _ => ?_
  · exact (keeps_requireModern _).then fun _ => gives_arrayPattern hr hdepth
  refine (keeps_at _).then fun _ => gives_ite (fun _ => ?_) fun _ => gives_bindingIdentifierPattern hdepth
  exact (keeps_requireModern _).then fun _ => gives_objectPattern hr hdepth

/-! ## 3. Functions -/

omit hr hdepth in
/-- An item fits where the statements of a body stand, whatever it costs to reach it. -/
theorem fits_item (h : n.Fits .item depth) {depth' : Nat} (hle : depth' + 1 ≤ depth) : (Part.item n).Fits depth' := by
  refine h.mono (Nat.le_trans (Nat.add_le_add_left ?_ depth') hle)
  unfold Part.item
  dsimp only
  split <;> omega

omit hr hdepth in
/-- A directive is an item like the expression statement that it was read as. -/
theorem fits_directive {e : Node} {text : Option String} {span : Span}
    (h : (Part.item (.mk (.expressionStatement e text) span)).Fits depth) (text' : Option String) :
    (Part.item (.mk (.expressionStatement e text') span)).Fits depth := by
  obtain ⟨hdepth, hsuits, hparts⟩ := h
  exact ⟨hdepth, hsuits, hparts⟩

theorem gives_bodyItems {atEnd : Parse Bool} (hend : Keeps Parser.depth atEnd) :
    ∀ (fuel : Nat) (prologue : Bool) (acc : List Node), (∀ n ∈ acc, (Part.item n).Fits depth) →
      Gives depth (bodyItems reach atEnd fuel prologue acc) fun items => ∀ n ∈ items, (Part.item n).Fits depth
  | 0, _, _, hacc => gives_pure hacc
  | fuel + 1, prologue, acc, hacc => by
    have ih := gives_bodyItems hend fuel
    refine hend.then fun _ => gives_ite (fun _ => gives_pure hacc) fun _ => keeps_get.then fun before => ?_
    refine (hr.item hdepth).bind fun item hitem => ?_
    dsimp only
    split
    · refine gives_ite (fun _ => ?_) fun _ => ih _ _ (List.forall_mem_cons.2 ⟨hitem, hacc⟩)
      refine (keeps_sourceSlice _ _).then fun text => ?_
      have hacc' : ∀ n ∈ _ :: acc, (Part.item n).Fits depth :=
        List.forall_mem_cons.2 ⟨fits_directive hitem (some text), hacc⟩
      refine gives_ite (fun _ => (keeps_modify ?_).then fun _ => ih _ _ hacc') fun _ => ih _ _ hacc'
      exact fun _ => rfl
    · exact ih _ _ (List.forall_mem_cons.2 ⟨hitem, hacc⟩)

/-- The body of a function is a block. -/
theorem gives_functionBody :
    Gives depth (functionBody reach) fun n => n.Fits .code depth ∧ ∃ items, n.kind = .blockStatement items := by
  refine keeps_start.then fun marker => (keeps_eat _).then fun _ => keeps_get.then fun p => keeps_get.then fun p' => ?_
  refine (gives_bodyItems hr hdepth (keeps_at _) _ _ [] nofun).bind fun items hitems => ?_
  refine (keeps_modify ?_).then fun _ => (keeps_eat _).then fun _ => gives_finish marker fun span => ⟨?_, _, rfl⟩
  · exact fun _ => rfl
  · refine Node.Fits.of_codeParts hdepth rfl (List.forall_mem_map.2 fun n hn => ?_) span
    exact hitems n (List.mem_reverse.1 hn)

theorem gives_parameters : Gives depth (parameters reach) fun params => ∀ n ∈ params, n.Fits .parameter depth := by
  refine (keeps_eat _).then fun _ => keeps_get.then fun p => ?_
  have hrest := (gives_restElement hr hdepth).mono fun n hn => hn.1
  have helement := (gives_bindingElement hr hdepth).mono fun n hn => (hn .parameter).parameter
  refine (gives_restList hrest helement _ [] nofun).bind fun params hparams => ?_
  exact (keeps_eat _).then fun _ => gives_pure fun n hn => hparams n (List.mem_reverse.1 hn)

omit hr hdepth in
/-- A body that is a block is not charged for, and every other one is. -/
theorem fits_functionParts {body : Node} (hparams : ∀ n ∈ params, n.Fits .parameter depth)
    (hbody : body.Fits .code (depth + 1) ∨ body.Fits .code depth ∧ ∃ items, body.kind = .blockStatement items) :
    ∀ p ∈ functionParts params body, p.Fits depth := by
  refine List.forall_mem_append.2 ⟨List.forall_mem_map.2 hparams, List.forall_mem_singleton.2 ?_⟩
  rcases hbody with hbody | ⟨hbody, items, hblock⟩
  · refine (hbody.code rfl).mono (Nat.add_le_add_left ?_ depth)
    dsimp only [Part.body]
    split <;> omega
  · simpa [Part.Fits, Part.body, hblock] using hbody.code rfl

theorem gives_functionRest (form : FunctionForm) (id : Option Node) :
    Gives depth (functionRest reach form id) fun kind => ∃ params body, kind = .function form id params body {} ∧
      ∀ p ∈ functionParts params body, p.Fits depth := by
  refine gives_inFunction ((gives_parameters hr hdepth).bind fun params hparams => ?_)
  refine (gives_functionBody hr hdepth).bind fun body hbody => gives_pure ⟨params, body, rfl, ?_⟩
  exact fits_functionParts hparams (.inr hbody)

omit hr hdepth in
/-- A function whose parts fit is code that fits. -/
theorem fits_function {form : FunctionForm} {id : Option Node} {body : Node} {flags : FunctionFlags}
    (hdepth : depth ≤ maxNesting) (hplain : flags.isPlain) (hparts : ∀ p ∈ functionParts params body, p.Fits depth)
    (span : Span) :
    (Node.mk (.function form id params body flags) span).Fits .code depth := by
  refine Node.Fits.of_codeParts hdepth (by exact hplain) ?_ span
  cases form with
  | declaration => exact List.forall_mem_map.2 hparts
  | _ => exact hparts

/-- **A function fits**, and declares something if it is a declaration. -/
theorem gives_function (marker : Marker) (form : FunctionForm) :
    Gives depth (function reach marker form) fun n =>
      n.Fits .code depth ∧ (form = .declaration → n.isDeclaration) := by
  refine (keeps_eatWord _).then fun _ => (keeps_at _).then fun _ => gives_ite (fun _ => gives_unsupported _) fun _ => ?_
  have hrest : ∀ id, Gives depth (do finish marker (← functionRest reach form id)) fun n =>
      n.Fits .code depth ∧ (form = .declaration → n.isDeclaration) := by
    intro id
    refine (gives_functionRest hr hdepth form id).bind fun kind hkind => ?_
    obtain ⟨params, body, rfl, hparts⟩ := hkind
    refine gives_finish marker fun span => ⟨fits_function hdepth rfl hparts span, ?_⟩
    rintro rfl
    rfl
  -- a name follows where the function is a declaration or a name is ahead
  have hnamed : ∀ named : Bool, Gives depth
      (do
        let id ← if named then some <$> bindingIdentifier else pure none
        finish marker (← functionRest reach form id))
      fun n => n.Fits .code depth ∧ (form = .declaration → n.isDeclaration) := by
    intro named
    refine gives_ite (fun _ => ?_) fun _ => hrest none
    exact (keeps_map keeps_bindingIdentifier).then fun id => hrest id
  exact gives_ite (fun _ => hnamed true) fun _ => Keeps.then ((keeps_at _).bind fun _ => keeps_pure _) hnamed

/-- **A method fits** where a function and where a method may stand. -/
theorem gives_method (marker : Marker) :
    Gives depth (method reach marker) fun n => n.Fits .code depth ∧ n.Fits .method depth := by
  refine (gives_functionRest hr hdepth .expression none).bind fun kind hkind => ?_
  obtain ⟨params, body, rfl, hparts⟩ := hkind
  exact gives_finish marker fun span => ⟨fits_function hdepth rfl hparts span, hdepth, .inl rfl, hparts⟩

omit hr hdepth in
theorem keeps_checkAccessor {γ : Type} {view : Parser → γ} (kind : PropertyKind) (value : Node) : Keeps view (checkAccessor kind value) := by
  unfold checkAccessor
  dsimp only
  split
  · exact keeps_failAt _ _
  · exact keeps_failAt _ _
  · exact keeps_pure _
  · exact keeps_failAt _ _
  · exact keeps_pure _

/-- **An arrow function fits** when its parameters do. -/
theorem gives_arrowBody (marker : Marker) (hparams : ∀ n ∈ params, n.Fits .parameter depth) :
    Gives depth (arrowBody reach marker params) fun n => n.Fits .code depth := by
  refine (keeps_requireModern _).then fun _ => (keeps_eat _).then fun _ => keeps_get.then fun p => ?_
  have hclose : ∀ body isExpression, (∀ q ∈ functionParts params body, q.Fits depth) →
      Gives depth (finish marker (.function .arrow none params body { expression := isExpression })) fun n =>
        n.Fits .code depth := fun _ _ hparts =>
    gives_finish marker (fits_function hdepth rfl hparts)
  have hbody : Gives depth
      (inFunction do
        if ← at? .leftBrace then pure (← functionBody reach, false)
        else
          modify fun q => { q with noIn := p.noIn }
          pure (← reach .assignment, true))
      fun body => ∀ q ∈ functionParts params body.1, q.Fits depth := by
    refine gives_inFunction ((keeps_at _).then fun _ => gives_ite (fun _ => ?_) fun _ => ?_)
    · exact (gives_functionBody hr hdepth).bind fun body hbody => gives_pure (fits_functionParts hparams (.inr hbody))
    · refine (keeps_modify ?_).then fun _ => (hr.assignment hdepth).bind fun body hbody => ?_
      · exact fun _ => rfl
      · exact gives_pure (fits_functionParts hparams (.inl hbody))
  exact hbody.bind fun body hparts => hclose _ _ hparts

/-! ## 4. Classes -/

theorem gives_memberHead : Gives depth (memberHead reach) fun head => (Part.key head.computed head.key).Fits depth := by
  refine keeps_start.then fun keyMarker => (gives_propertyKey hr hdepth).bind fun ⟨key, computed⟩ hkey => ?_
  dsimp -zeta only at hkey ⊢
  refine keeps_afterModifier.then fun _ => ?_
  extract_lets isStatic rest
  have hrest : ∀ head : MemberHead, (Part.key head.computed head.key).Fits depth →
      Gives depth (rest head) fun head => (Part.key head.computed head.key).Fits depth := by
    intro head hhead
    refine gives_ite (fun _ => ?_) fun _ => gives_pure hhead
    refine keeps_afterModifier.then fun _ => gives_ite (fun _ => ?_) fun _ => gives_pure hhead
    refine gives_ite (fun _ => gives_unsupported _) fun _ => keeps_start.then fun _ => ?_
    exact (gives_propertyKey hr hdepth).bind fun ⟨key, computed⟩ hkey => gives_pure hkey
  refine gives_ite (fun _ => ?_) fun _ => hrest _ hkey
  refine (keeps_at _).then fun _ => gives_ite (fun _ => ?_) fun _ => keeps_start.then fun _ => ?_
  · exact (gives_fail (P := fun _ => False) _).bind fun _ h => h.elim
  · exact (gives_propertyKey hr hdepth).bind fun ⟨key, computed⟩ hkey => hrest _ hkey

omit hr hdepth in
/-- What fits as a method makes a member. -/
theorem methodDefinition_isMember {value : Node} (h : value.Fits .method depth) (key : Node) (kind : MethodKind)
    (computed isStatic : Bool) : (Kind.methodDefinition key value kind computed isStatic).isMember := by
  obtain ⟨_, hsuits, _⟩ := h
  obtain ⟨vkind, span⟩ := value
  cases vkind with
  | function form id params body flags =>
    cases form with
    | expression => rfl
    | _ => exact absurd hsuits nofun
  | _ => exact absurd hsuits nofun

theorem gives_classMethod (marker : Marker) {head : MemberHead} (hkey : (Part.key head.computed head.key).Fits depth) :
    Gives depth (classMethod reach marker head) fun n => n.Fits .member depth := by
  refine (gives_method hr hdepth _).bind fun value hvalue => ?_
  have hclose : ∀ kind : MethodKind,
      Gives depth (finish marker (.methodDefinition head.key value kind head.computed head.isStatic)) fun n =>
        n.Fits .member depth := fun kind =>
    gives_finish marker fun _ =>
      ⟨hdepth, .inl (methodDefinition_isMember hvalue.2 head.key kind head.computed head.isStatic),
        forall_mem_pair.2 ⟨hkey, hvalue.2⟩⟩
  dsimp only
  split
  · refine gives_ite (fun _ => ?_) fun _ => (keeps_checkAccessor _ _).then fun _ => hclose _
    exact Keeps.then (keeps_failAt _ _) hclose
  · exact hclose _

theorem gives_classField (marker : Marker) {head : MemberHead} (hkey : (Part.key head.computed head.key).Fits depth) :
    Gives depth (classField reach marker head) fun n => n.Fits .member depth := by
  refine gives_ite (fun _ => gives_failAt _ _) fun _ => (keeps_eatIf _).then fun _ => ?_
  extract_lets close
  have hclose : ∀ value : Option Node, (∀ n ∈ value, (Part.operand n).Fits depth) →
      Gives depth (close value) fun n => n.Fits .member depth := by
    intro value hvalue
    refine keeps_eatSemicolon.then fun _ => gives_finish marker fun _ => ⟨hdepth, .inl rfl, ?_⟩
    refine List.forall_mem_cons.2 ⟨hkey, List.forall_mem_map.2 fun n hn => ?_⟩
    exact Node.Fits.code (hvalue n (Option.mem_toList.1 hn)) rfl
  refine gives_ite (fun _ => ?_) fun _ => hclose none nofun
  refine ((gives_inFunction (hr.assignment hdepth)).map fun n hn => ?_).bind fun value hvalue => hclose value hvalue
  rintro _ ⟨⟩
  exact hn

theorem gives_classMember : Gives depth (classMember reach) fun n => n.Fits .member depth := by
  refine keeps_start.then fun marker => (keeps_at _).then fun _ => gives_ite (fun _ => gives_unsupported _) fun _ => ?_
  refine (gives_memberHead hr hdepth).bind fun head hkey => (keeps_at _).then fun _ => gives_ite (fun _ => ?_) fun _ => ?_
  · exact gives_classMethod hr hdepth marker hkey
  · exact gives_ite (fun _ => gives_unexpected) fun _ => gives_classField hr hdepth marker hkey

theorem gives_classMembers :
    ∀ (fuel : Nat) (hasConstructor : Bool) (acc : List Node), (∀ n ∈ acc, n.Fits .member depth) →
      Gives depth (classMembers reach fuel hasConstructor acc) fun members => ∀ n ∈ members, n.Fits .member depth
  | 0, _, _, hacc => gives_pure hacc
  | fuel + 1, hasConstructor, acc, hacc => by
    have ih := gives_classMembers fuel
    refine (keeps_at _).then fun _ => gives_ite (fun _ => gives_pure hacc) fun _ => ?_
    refine (keeps_eatIf _).then fun _ => gives_ite (fun _ => ih _ _ hacc) fun _ => ?_
    refine (gives_classMember hr hdepth).bind fun member hmember => ?_
    exact gives_ite (fun _ => gives_failAt _ _) fun _ => ih _ _ (List.forall_mem_cons.2 ⟨hmember, hacc⟩)

/-- **A class fits**, and declares something if it is a declaration. -/
theorem gives_classLike (marker : Marker) (form : ClassForm) :
    Gives depth (classLike reach marker form) fun n =>
      n.Fits .code depth ∧ (form = .declaration → n.isDeclaration) := by
  refine (keeps_requireModern _).then fun _ => (keeps_eatWord _).then fun _ => keeps_get.then fun p => ?_
  refine (keeps_modify ?_).then fun _ => ?_
  · exact fun _ => rfl
  refine keeps_identifierAhead.then fun _ => ?_
  extract_lets heritage
  have hheritage : ∀ id, Gives depth (heritage id) fun n =>
      n.Fits .code depth ∧ (form = .declaration → n.isDeclaration) := by
    intro id
    refine (keeps_eatIfWord _).then fun _ => ?_
    extract_lets members
    have hmembers : ∀ superClass : Option Node, (∀ n ∈ superClass, n.Fits .code depth) →
        Gives depth (members superClass) fun n => n.Fits .code depth ∧ (form = .declaration → n.isDeclaration) := by
      intro superClass hsuper
      refine keeps_start.then fun bodyMarker => (keeps_eat _).then fun _ => keeps_get.then fun _ => ?_
      refine (gives_classMembers hr hdepth _ _ [] nofun).bind fun list hlist => (keeps_eat _).then fun _ => ?_
      have hbody : Gives depth (finish bodyMarker (.classBody list.reverse)) fun n => n.Fits .classBody depth :=
        gives_finish bodyMarker fun _ =>
          ⟨hdepth, .inl rfl, List.forall_mem_map.2 fun n hn => hlist n (List.mem_reverse.1 hn)⟩
      refine hbody.bind fun body hbody => (keeps_modify ?_).then fun _ => gives_finish marker fun span => ⟨?_, ?_⟩
      · exact fun _ => rfl
      · refine Node.Fits.of_codeParts hdepth rfl ?_ span
        refine List.forall_mem_append.2 ⟨List.forall_mem_map.2 fun n hn => ?_, List.forall_mem_singleton.2 hbody⟩
        exact hsuper n (Option.mem_toList.1 hn)
      · rintro rfl
        rfl
    refine gives_ite (fun _ => ?_) fun _ => hmembers none nofun
    refine ((hr.leftHandSide hdepth).map fun n hn => ?_).bind fun superClass hsuper => hmembers superClass hsuper
    rintro _ ⟨⟩
    exact hn
  refine gives_ite (fun _ => ?_) fun _ => gives_ite (fun _ => ?_) fun _ => hheritage none
  · exact (keeps_map keeps_bindingIdentifier).then fun id => hheritage id
  · exact keeps_unexpected.then fun id => hheritage id

/-! ## 5. Variables

In the head of a loop, a variable may lack the value that it needs elsewhere, if the names to loop over are ahead. So
what is said of a declaration depends on the token that stands after it. -/

/-- Whether the word is ahead that stands after the variable of a loop over names or values. -/
def EndsHead (p : Parser) : Prop :=
  p.current.isWord .inWord ∨ ∃ name, p.current = .identifier name ∧ name == "of"

/-- Whether a node declares a variable whose parts fit. -/
def FitsDeclarator (depth : Nat) (n : Node) : Prop :=
  ∃ id init, n.kind = .variableDeclarator id init ∧ (∀ mode, id.Fits (.pattern mode) depth) ∧
    ∀ value ∈ init, (Part.operand value).Fits depth

omit hr hdepth in
/-- A variable that has the value it needs fits. -/
theorem FitsDeclarator.fits (h : FitsDeclarator depth n) {kind : VariableKind} (hvalue : n.kind.isDeclarator kind) :
    n.Fits (.declarator kind) depth := by
  obtain ⟨kind', span⟩ := n
  obtain ⟨id, init, rfl, hid, hinit⟩ := h
  refine ⟨(hid .assign).depth_le, .inl hvalue, ?_⟩
  refine List.forall_mem_cons.2 ⟨hid _, List.forall_mem_map.2 fun value hv => ?_⟩
  exact fits_value (hinit value (Option.mem_toList.1 hv))

omit hr hdepth in
theorem eatIf_false {mark : Punctuator} (h : eatIf mark p = .ok false p') : p' = p ∧ p.current.isMark mark = false := by
  obtain ⟨c, p₁, hc, h⟩ := bind_ok h
  cases hc
  split at h
  · obtain ⟨_, _, _, h⟩ := bind_ok h
    cases h
  · cases h
    exact ⟨rfl, by simp_all⟩

omit hr hdepth in
theorem eatIf_true {mark : Punctuator} (h : eatIf mark p = .ok true p') : p.current.isMark mark := by
  obtain ⟨c, p₁, hc, h⟩ := bind_ok h
  cases hc
  split at h
  · assumption
  · cases h

omit hr hdepth in
theorem atOf_ok {c : Bool} (h : atOf p = .ok c p') :
    p' = p ∧ (c ↔ ∃ name, p.current = .identifier name ∧ name == "of") := by
  obtain ⟨token, p₁, ht, h⟩ := bind_ok h
  cases ht
  cases hcurrent : p.current with
  | identifier name =>
    rw [hcurrent] at h
    cases h
    simp
  | _ =>
    rw [hcurrent] at h
    cases h
    simp

/-- Whether everything that a production gives has a property together with the state after it. -/
def Yields {α : Type} (depth : Nat) (x : Parse α) (P : α → Parser → Prop) : Prop :=
  ∀ p a p', p.depth = depth → x p = .ok a p' → p'.depth = depth ∧ P a p'

omit hr hdepth in
theorem Keeps.yields {α β : Type} {x : Parse α} {f : α → Parse β} {P : β → Parser → Prop} (hx : Keeps Parser.depth x)
    (hf : ∀ a, Yields depth (f a) P) : Yields depth (x >>= f) P := by
  intro p b p' hp h
  obtain ⟨a, p₁, ha, hb⟩ := bind_ok h
  exact hf a p₁ b p' ((hx p a p₁ ha).trans hp) hb

theorem initializer_yields (kind : VariableKind) (inHead : Bool) (id : Node) :
    Yields depth (initializer reach kind inHead id) fun init p' => (∀ value ∈ init, (Part.operand value).Fits depth) ∧
      ((init.isSome || (kind ≠ .const && id.name?.isSome)) ∨ inHead ∧ EndsHead p') := by
  intro p init p' hp h
  obtain ⟨c, p₁, hc, h⟩ := bind_ok h
  have hp₁ : p₁.depth = depth := (keeps_eatIf _ _ _ _ hc).trans hp
  cases c with
  | true =>
    obtain ⟨value, p₂, hvalue, h⟩ := bind_ok h
    cases h
    obtain ⟨hp₂, hfits⟩ := hr.assignment hdepth _ _ _ hp₁ hvalue
    refine ⟨hp₂, ?_, .inl rfl⟩
    rintro _ ⟨⟩
    exact hfits
  | false =>
    obtain ⟨isIn, p₂, hin, h⟩ := bind_ok h
    cases hin
    obtain ⟨isOf, p₃, hof, h⟩ := bind_ok h
    obtain ⟨rfl, hof⟩ := atOf_ok hof
    split at h
    · rename_i hends
      cases h
      refine ⟨hp₁, nofun, .inr ?_⟩
      simp only [Bool.and_eq_true, Bool.or_eq_true] at hends
      exact ⟨hends.1, hends.2.imp_right hof.1⟩
    split at h
    · exact (gives_fail (P := fun _ => False) _ _ _ _ rfl h).2.elim
    split at h
    · exact (gives_fail (P := fun _ => False) _ _ _ _ rfl h).2.elim
    · rename_i hconst hname
      cases h
      refine ⟨hp₁, nofun, .inl ?_⟩
      cases hid : id.name? <;> simp_all

theorem declarator_yields (kind : VariableKind) (inHead : Bool) :
    Yields depth (declarator reach kind inHead) fun n p' =>
      FitsDeclarator depth n ∧ (n.kind.isDeclarator kind ∨ inHead ∧ EndsHead p') := by
  intro p n p' hp h
  obtain ⟨marker, p₁, hm, h⟩ := bind_ok h
  cases hm
  obtain ⟨id, p₂, hid, h⟩ := bind_ok h
  obtain ⟨hp₂, hid⟩ := hr.bindingTarget hdepth _ _ _ hp hid
  split at h
  · cases h
  · obtain ⟨init, p₃, hinit, h⟩ := bind_ok h
    cases h
    obtain ⟨hp₃, hinit, hvalue⟩ := initializer_yields hr hdepth kind inHead id _ _ _ hp₂ hinit
    exact ⟨hp₃, ⟨id, init, rfl, hid, hinit⟩, hvalue⟩

omit hr hdepth in
/-- Where a comma is ahead, the names to loop over are not. -/
theorem not_endsHead (h : p.current.isMark .comma) : ¬ EndsHead p := by
  rintro (hin | ⟨name, hof, _⟩)
  · cases hcurrent : p.current <;> simp_all [Token.isMark, Token.isWord]
  · simp [Token.isMark, hof] at h

/-- When another variable follows, no names to loop over are ahead, so the ones before it have what they need. -/
theorem moreDeclarators_ok (kind : VariableKind) (inHead : Bool) :
    ∀ (fuel : Nat) (acc ds : List Node) (p p' : Parser), p.depth = depth → (∀ n ∈ acc, FitsDeclarator depth n) →
      ((∀ n ∈ acc, n.kind.isDeclarator kind) ∨ inHead ∧ EndsHead p) →
      moreDeclarators reach kind inHead fuel acc p = .ok ds p' →
      p'.depth = depth ∧ (∀ n ∈ ds, FitsDeclarator depth n) ∧
        ((∀ n ∈ ds, n.kind.isDeclarator kind) ∨ inHead ∧ EndsHead p')
  | 0, _, _, _, _, hp, hacc, hvalues, h => by
    cases h
    exact ⟨hp, hacc, hvalues⟩
  | fuel + 1, acc, ds, p, p', hp, hacc, hvalues, h => by
    obtain ⟨c, p₁, hc, h⟩ := bind_ok h
    have hp₁ : p₁.depth = depth := (keeps_eatIf _ _ _ _ hc).trans hp
    cases c with
    | false =>
      have hsame := (eatIf_false hc).1
      cases h
      exact ⟨hp₁, hacc, hsame ▸ hvalues⟩
    | true =>
      have hvalues : ∀ n ∈ acc, n.kind.isDeclarator kind :=
        hvalues.resolve_right fun h => not_endsHead (eatIf_true hc) h.2
      obtain ⟨n, p₂, hn, h⟩ := bind_ok h
      obtain ⟨hp₂, hn, hvalue⟩ := declarator_yields hr hdepth kind inHead _ _ _ hp₁ hn
      refine moreDeclarators_ok kind inHead fuel (n :: acc) ds p₂ p' hp₂ ?_ ?_ h
      · exact List.forall_mem_cons.2 ⟨hn, hacc⟩
      · exact hvalue.imp_left fun hvalue => List.forall_mem_cons.2 ⟨hvalue, hvalues⟩

/-- Whether a node declares variables whose parts fit, which have the values that they need unless the names to loop
over are ahead. -/
def FitsDeclaration (depth : Nat) (inHead : Bool) (n : Node) (p : Parser) : Prop :=
  ∃ ds kind, n.kind = .variableDeclaration ds kind ∧ (∀ d ∈ ds, FitsDeclarator depth d) ∧
    ((∀ d ∈ ds, d.kind.isDeclarator kind) ∨ inHead ∧ EndsHead p)

/-- **A declaration of variables fits.** -/
theorem variableDeclaration_yields (inHead : Bool) :
    Yields depth (variableDeclaration reach inHead) (FitsDeclaration depth inHead) := by
  refine keeps_start.yields fun marker => keeps_ahead.yields fun token => ?_
  extract_lets rest
  have hrest : ∀ kind, Yields depth (rest kind) (FitsDeclaration depth inHead) := by
    intro kind
    unfold rest
    extract_lets declarators
    have hdeclarators : Yields depth (declarators ()) (FitsDeclaration depth inHead) := by
      refine (keeps_discard keeps_advance).yields fun _ p n p' hp h => ?_
      obtain ⟨first, p₁, hfirst, h⟩ := bind_ok h
      obtain ⟨hp₁, hfirst, hvalue⟩ := declarator_yields hr hdepth kind inHead _ _ _ hp hfirst
      obtain ⟨q, p₂, hq, h⟩ := bind_ok h
      cases hq
      obtain ⟨ds, p₃, hds, h⟩ := bind_ok h
      cases h
      obtain ⟨hp₃, hfits, hvalues⟩ := moreDeclarators_ok hr hdepth kind inHead _ [first] ds p₁ p' hp₁
        (List.forall_mem_singleton.2 hfirst) (hvalue.imp_left List.forall_mem_singleton.2) hds
      refine ⟨hp₃, ds.reverse, kind, rfl, fun d hd => hfits d (List.mem_reverse.1 hd), ?_⟩
      exact hvalues.imp_left fun hvalues d hd => hvalues d (List.mem_reverse.1 hd)
    split
    · exact (keeps_requireModern _).yields fun _ => hdeclarators
    · exact hdeclarators
  split
  · exact hrest .var
  · exact hrest .let
  · exact hrest .const
  · exact keeps_unexpected.yields hrest

end

/-- Whether everything that a production gives has a property, at whatever depth it runs. -/
def Results {α : Type} (x : Parse α) (P : α → Prop) : Prop :=
  ∀ p a p', x p = .ok a p' → P a

theorem results_bind {α β : Type} {x : Parse α} {f : α → Parse β} {P : β → Prop} (hf : ∀ a, Results (f a) P) :
    Results (x >>= f) P := by
  intro p b p' h
  obtain ⟨a, p₁, _, hb⟩ := bind_ok h
  exact hf a p₁ b p' hb

/-- What a production gives for every token with a property, it gives where such a token is ahead. -/
theorem ahead_results {α : Type} {c : Token → Prop} {f : Token → Parse α} {P : α → Prop}
    (hf : ∀ token, c token → Results (f token) P) {a : α} (hc : c p.current) (h : (ahead >>= f) p = .ok a p') :
    P a := by
  obtain ⟨token, p₁, ht, h⟩ := bind_ok h
  cases ht
  exact hf p.current hc p a p' h

/-- A declaration that does not start with the word for variables declares something in a list. -/
theorem variableDeclaration_isDeclaration {inHead : Bool} (h : variableDeclaration reach inHead p = .ok n p')
    (hword : p.current.isWord .varWord = false) :
    n.isDeclaration := by
  obtain ⟨marker, p₁, hm, h₁⟩ := bind_ok h
  cases hm
  refine ahead_results (c := fun token => token.isWord .varWord = false) (P := fun n => n.isDeclaration)
    (fun token htoken => ?_) hword h₁
  extract_lets rest
  have hrest : ∀ kind : VariableKind, kind ≠ .var → Results (rest kind) fun n => n.isDeclaration := by
    intro kind hkind
    unfold rest
    extract_lets declarators
    have hdeclarators : Results (declarators ()) fun n => n.isDeclaration := by
      refine results_bind fun _ => results_bind fun first => results_bind fun _ => results_bind fun ds => ?_
      intro p n p' h
      cases h
      simpa [Node.isDeclaration, Node.kind] using hkind
    rw [if_pos hkind]
    exact results_bind fun _ => hdeclarators
  split
  · cases htoken
  · exact hrest .let nofun
  · exact hrest .const nofun
  · intro p n p' h
    obtain ⟨kind, p₁, hunexpected, _⟩ := bind_ok h
    exact (gives_unexpected (P := fun _ => False) p kind p₁ rfl hunexpected).2.elim

end GuestScript.Parser
