import GuestScript.Proofs.Grammar.Place

/-!
# Patterns that were read as expressions

The left side of an assignment and the parameters of an arrow function are read as expressions. What `Node.toPattern`
makes of an expression that fits is a pattern that fits (`Node.Fits.toPattern`), and the default values of shorthand
properties, which are leftovers in an expression, are none in a pattern. As parameters, the same patterns still fit,
but the members among them are left over (`Node.Fits.toParameter`).
-/

namespace GuestScript

variable {depth : Nat}

/-! ## 1. Patterns of an assignment -/

section

variable {ε α β : Type} {x : Except ε α}

theorem except_map_ok {f : α → β} {b : β} (h : f <$> x = .ok b) : ∃ a, x = .ok a ∧ b = f a := by
  cases x with
  | error e => cases h
  | ok a => exact ⟨a, rfl, (Except.ok.inj h).symm⟩

theorem except_bind_ok {f : α → Except ε β} {b : β} (h : (x >>= f) = .ok b) : ∃ a, x = .ok a ∧ f a = .ok b := by
  cases x with
  | error e => cases h
  | ok a => exact ⟨a, rfl, h⟩

end

/-- What something can be assigned to stays as it is. -/
theorem Node.toPattern_of_isTarget {n p : Node} (h : n.kind.isTarget .assign) (hp : n.toPattern = .ok p) : p = n := by
  obtain ⟨kind, span⟩ := n
  cases kind with
  | identifier _ | assignmentPattern _ _ | objectPattern _ | arrayPattern _ =>
    cases hp
    rfl
  | memberExpression _ _ _ optional =>
    cases optional <;> cases hp
    rfl
  | _ => cases h

namespace Node.Fits

/-- What fits as the target of an assignment is one. -/
theorem isTarget {n : Node} (h : n.Fits (.pattern .assign) depth) : n.kind.isTarget .assign := by
  obtain ⟨_, hsuits, _⟩ := h
  refine hsuits.resolve_right ?_
  obtain ⟨kind, span⟩ := n
  cases kind <;> exact nofun

/-- The parts of a member that is code fit those of a member that is assigned to. -/
theorem member {object key : Node} {computed optional : Bool} {span : Span}
    (h : (Node.mk (.memberExpression object key computed optional) span).Fits .code depth) (mode : BindingMode) :
    ∀ p ∈ (Kind.memberExpression object key computed optional).patternParts mode, p.Fits depth := by
  have hparts := List.forall_mem_cons.1 h.parts
  have hobject : object.Fits .object depth := hparts.1
  exact List.forall_mem_cons.2 ⟨hobject.ofCode rfl rfl, hparts.2⟩

/-- A name, or a member that is code, can be assigned to. -/
theorem simpleTarget {n : Node} (h : n.Fits .code depth) (htarget : n.kind.isSimpleTarget) :
    n.Fits (.pattern .assign) depth := by
  obtain ⟨kind, span⟩ := n
  cases kind with
  | identifier name => exact ⟨h.depth_le, .inl rfl, nofun⟩
  | memberExpression object key computed optional => exact ⟨h.depth_le, .inl rfl, h.member .assign⟩
  | _ => cases htarget

end Node.Fits

/-- The element of an array literal is code or spreads it. -/
theorem Node.Fits.codeElement {n : Node} (h : n.Fits .element depth) (hspread : n.kind.isSpread = false) :
    n.Fits .code depth := by
  obtain ⟨hdepth, hsuits, hparts⟩ := h
  have hcode : n.kind.isCode := by simpa [Kind.suits.eq_def, Kind.isLeftover.eq_def, hspread] using hsuits
  refine ⟨hdepth, .inl hcode, ?_⟩
  obtain ⟨kind, span⟩ := n
  cases kind with
  | spreadElement argument => cases hspread
  | _ => exact hparts

/-- The value of a property is code, or its default value is left over. -/
theorem Node.Fits.propertyValue {n : Node} (h : n.Fits .named depth) :
    n.Fits .code depth ∨ n.Fits (.pattern .assign) depth := by
  obtain ⟨hdepth, hsuits, hparts⟩ := h
  cases hsuits with
  | inl hcode => exact .inl ⟨hdepth, .inl hcode, hparts⟩
  | inr hleftover =>
    right
    obtain ⟨kind, span⟩ := n
    cases kind with
    | assignmentPattern left right => exact ⟨hdepth, .inl rfl, hparts⟩
    | _ => cases hleftover

mutual

/-- **A pattern that is made of an expression that fits, fits.** -/
theorem Node.Fits.toPattern : ∀ {n p : Node} {depth : Nat}, n.Fits .code depth → n.toPattern = .ok p →
    p.Fits (.pattern .assign) depth
  | .mk kind span, p, depth, h, hp => by
    cases kind with
    | identifier name =>
      cases hp
      exact h.simpleTarget rfl
    | memberExpression object key computed optional =>
      obtain rfl := Node.toPattern_of_isTarget rfl hp
      exact h.simpleTarget rfl
    | assignmentExpression operator left right =>
      cases operator with
      | plain =>
        have hparts := List.forall_mem_cons.1 h.parts
        have hleft : left.Fits (.pattern .assign) _ := hparts.1
        obtain ⟨left', hl, rfl⟩ := except_map_ok hp
        obtain rfl := Node.toPattern_of_isTarget hleft.isTarget hl
        exact ⟨h.depth_le, .inl rfl, h.parts⟩
      | _ => cases hp
    | arrayExpression elements =>
      obtain ⟨elements', he, rfl⟩ := except_map_ok hp
      refine ⟨h.depth_le, .inl rfl, List.forall_mem_map.2 ?_⟩
      exact elementsToPattern_fits (fun n hn => h.parts _ (List.mem_map_of_mem hn)) he
    | objectExpression properties =>
      obtain ⟨properties', hq, rfl⟩ := except_map_ok hp
      refine ⟨h.depth_le, .inl rfl, List.forall_mem_map.2 ?_⟩
      exact propertiesToPattern_fits (fun n hn => h.parts _ (List.mem_map_of_mem hn)) hq
    | objectPattern _ | arrayPattern _ | assignmentPattern _ _ | restElement _ => cases h.isCode
    | _ => cases hp

/-- Of the elements of an array literal, those of a pattern are made. -/
theorem elementsToPattern_fits : ∀ {elements elements' : List (Option Node)} {depth : Nat},
    (∀ n ∈ elements.reduceOption, n.Fits .element (depth + 1)) → elementsToPattern elements = .ok elements' →
      ∀ n ∈ elements'.reduceOption, n.Fits (.patternElement .assign) depth
  | [], _, _, _, hp => by
    cases hp
    exact nofun
  | none :: rest, _, depth, h, hp => by
    obtain ⟨rest', hr, rfl⟩ := except_map_ok hp
    have hrest : ∀ n ∈ rest.reduceOption, n.Fits .element (depth + 1) := h
    have hrest' : ∀ n ∈ rest'.reduceOption, n.Fits (.patternElement .assign) depth :=
      elementsToPattern_fits hrest hr
    exact hrest'
  | some (.mk kind span) :: rest, elements', depth, h, hp => by
    obtain ⟨helement, hrest⟩ :
        (Node.mk kind span).Fits .element (depth + 1) ∧ ∀ n ∈ rest.reduceOption, n.Fits .element (depth + 1) :=
      List.forall_mem_cons.1 h
    -- a spread is the last element, and every other one is code
    cases hspread : kind.isSpread with
    | true =>
      cases kind with
      | spreadElement argument =>
        cases rest with
        | nil =>
          obtain ⟨argument', ha, rfl⟩ := except_map_ok hp
          have hargument : argument.Fits .code (depth + 1) := helement.parts _ List.mem_cons_self
          have hrest' := ((hargument.mono (Nat.le_succ depth)).toPattern ha).rest span
          exact List.forall_mem_singleton.2 hrest'.1
        | cons _ _ => cases hp
      | _ => cases hspread
    | false =>
      have hcode := (helement.codeElement hspread).mono (Nat.le_succ depth)
      have hp' : (do pure (some (← (Node.mk kind span).toPattern) :: (← elementsToPattern rest))) = .ok elements' := by
        cases kind with
        | spreadElement argument => cases hspread
        | _ => exact hp
      obtain ⟨element', he, hp'⟩ := except_bind_ok hp'
      obtain ⟨rest', hr, rfl⟩ := except_map_ok hp'
      exact List.forall_mem_cons.2 ⟨(hcode.toPattern he).patternElement, elementsToPattern_fits hrest hr⟩

/-- Of the properties of an object literal, those of a pattern are made. -/
theorem propertiesToPattern_fits : ∀ {properties properties' : List Node} {depth : Nat},
    (∀ n ∈ properties, n.Fits .property depth) → propertiesToPattern properties = .ok properties' →
    ∀ n ∈ properties', n.Fits (.patternPart .assign) depth
  | [], _, _, _, hp => by
    cases hp
    exact fun _ hn => absurd hn List.not_mem_nil
  | .mk kind span :: rest, _, depth, h, hp => by
    obtain ⟨hproperty, hrest⟩ := List.forall_mem_cons.1 h
    cases kind with
    | spreadElement argument =>
      cases rest with
      | nil =>
        obtain ⟨argument', ha, rfl⟩ := except_map_ok hp
        have hargument : argument.Fits .code (depth + 1) := hproperty.parts _ List.mem_cons_self
        have hrest' := ((hargument.mono (Nat.le_succ depth)).toPattern ha).rest span
        exact List.forall_mem_singleton.2 hrest'.2
      | cons _ _ => cases hp
    | property key value kind method shorthand computed =>
      cases kind with
      | init =>
        cases method with
        | false =>
          obtain ⟨value', hv, hp⟩ := except_bind_ok hp
          obtain ⟨rest', hr, rfl⟩ := except_map_ok hp
          obtain ⟨hkey, hvalue⟩ := forall_mem_pair.1 hproperty.parts
          have hnamed : value.Fits .named depth := Node.Fits.mono hvalue (Nat.le_add_right _ _)
          have hvalue' : value'.Fits (.pattern .assign) depth := by
            cases hnamed.propertyValue with
            | inl hcode => exact hcode.toPattern hv
            | inr hpattern =>
              obtain rfl := Node.toPattern_of_isTarget hpattern.isTarget hv
              exact hpattern
          refine List.forall_mem_cons.2 ⟨⟨hproperty.depth_le, .inl rfl, ?_⟩, propertiesToPattern_fits hrest hr⟩
          exact forall_mem_pair.2 ⟨hkey, hvalue'⟩
        | true => cases hp
      | _ => cases hp
    | _ => cases hp

end

/-- What is made of a literal takes a value apart. -/
theorem Node.toPattern_isPattern {n p : Node}
    (h : (∃ elements, n.kind = .arrayExpression elements) ∨ ∃ properties, n.kind = .objectExpression properties)
    (hp : n.toPattern = .ok p) : p.kind.isPattern := by
  obtain ⟨kind, span⟩ := n
  rcases h with ⟨elements, rfl⟩ | ⟨properties, rfl⟩
  · obtain ⟨elements', _, rfl⟩ := except_map_ok hp
    rfl
  · obtain ⟨properties', _, rfl⟩ := except_map_ok hp
    rfl

/-! ## 2. Parameters -/

/-- The place of a parameter for the place of what is assigned to. -/
def Place.asParameter : Place → Place
  | .pattern .assign => .pattern .parameter
  | .patternPart .assign => .patternPart .parameter
  | .patternElement .assign => .patternElement .parameter
  | place => place

/-- The part in the place of a parameter. -/
def Part.asParameter (p : Part) : Part :=
  { p with place := p.place.asParameter }

/-- The parts of a parameter are those of a pattern of an assignment, as parameters. -/
theorem Kind.patternParts_asParameter (kind : Kind) :
    kind.patternParts .parameter = (kind.patternParts .assign).map Part.asParameter := by
  cases kind with
  | objectPattern properties => simp [patternParts.eq_def, Function.comp_def, Part.asParameter, Part.free, Place.asParameter.eq_def]
  | arrayPattern elements => simp [patternParts.eq_def, Function.comp_def, Part.asParameter, Part.free, Place.asParameter.eq_def]
  | assignmentPattern left right =>
    cases hname : left.name?.isSome <;>
      simp [patternParts.eq_def, Part.asParameter, Part.free, Part.value, Place.asParameter.eq_def, hname]
  | _ => rfl

/-- So are the parts of an element and of a property. -/
theorem Kind.elementParts_asParameter (kind : Kind) :
    kind.parts (.patternElement .parameter) = (kind.parts (.patternElement .assign)).map Part.asParameter := by
  cases kind with
  | restElement argument => rfl
  | objectPattern properties => exact patternParts_asParameter (.objectPattern properties)
  | arrayPattern elements => exact patternParts_asParameter (.arrayPattern elements)
  | assignmentPattern left right => exact patternParts_asParameter (.assignmentPattern left right)
  | _ => rfl

theorem Kind.propertyParts_asParameter (kind : Kind) :
    kind.parts (.patternPart .parameter) = (kind.parts (.patternPart .assign)).map Part.asParameter := by
  cases kind with
  | property key value form method shorthand computed => rfl
  | _ => rfl

/-- What can be assigned to can be a parameter, or is a member. -/
theorem Kind.isTarget_parameter {kind : Kind} (h : kind.isTarget .assign) :
    kind.isTarget .parameter ∨ kind.isLeftover (.pattern .parameter) := by
  cases kind with
  | identifier _ | assignmentPattern _ _ | objectPattern _ | arrayPattern _ => exact .inl rfl
  | memberExpression _ _ _ _ => exact .inr rfl
  | _ => cases h

/-- What suits the place of what is assigned to suits that of a parameter, or is a member. -/
theorem Kind.suits_asParameter {kind : Kind} {place : Place} (h : kind.suits place ∨ kind.isLeftover place) :
    kind.suits place.asParameter ∨ kind.isLeftover place.asParameter := by
  cases place with
  | pattern mode =>
    cases mode with
    | assign => exact isTarget_parameter (h.resolve_right nofun)
    | _ => exact h
  | patternPart mode =>
    cases mode with
    | assign => cases kind <;> exact .inl (h.resolve_right nofun)
    | _ => exact h
  | patternElement mode =>
    cases mode with
    | assign =>
      cases kind with
      | memberExpression _ _ _ _ => exact .inr rfl
      | _ => exact .inl (h.resolve_right nofun)
    | _ => exact h
  | _ => exact h

/-- Every part of a node in the place of a parameter is one of the parts in the place of what is assigned to. -/
theorem Node.parts_asParameter {n : Node} {place : Place} {p : Part} (h : p ∈ n.parts place.asParameter) :
    p ∈ n.parts place ∨ p ∈ (n.parts place).map Part.asParameter := by
  cases place with
  | pattern mode =>
    cases mode with
    | assign => exact .inr (Kind.patternParts_asParameter n.kind ▸ h)
    | _ => exact .inl h
  | patternPart mode =>
    cases mode with
    | assign => exact .inr (Kind.propertyParts_asParameter n.kind ▸ h)
    | _ => exact .inl h
  | patternElement mode =>
    cases mode with
    | assign => exact .inr (Kind.elementParts_asParameter n.kind ▸ h)
    | _ => exact .inl h
  | _ => exact .inl h

/-- **What can be assigned to can be a parameter, but for the members in it.** -/
theorem Node.Fits.asParameter {n : Node} {place : Place} (h : n.Fits place depth) : n.Fits place.asParameter depth := by
  induction h with
  | @mk place depth n hdepth hsuits hparts ih =>
    refine ⟨hdepth, Kind.suits_asParameter hsuits, fun p hp => ?_⟩
    cases Node.parts_asParameter hp with
    | inl hp => exact hparts p hp
    | inr hp =>
      obtain ⟨q, hq, rfl⟩ := List.mem_map.1 hp
      exact ih q hq

end GuestScript
