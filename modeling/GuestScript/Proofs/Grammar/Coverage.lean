import GuestScript.Proofs.Grammar.Levels

/-!
# What a node covers

When what is lowered of a node is covered part by part, so is the node. The lemmas follow the kinds of nodes: each one
is given what its parts cover and says what is covered where they are put together. A fault is always one of a part or
of the node itself, which then does not suit its place.
-/

namespace GuestScript

variable {place : Place} {p : Part} {ps : List Part} {body left right : Node}

/-! ## 1. Parts -/

/-- The functions that are declared in a case, which are lowered before the cases are. -/
def Node.caseFunctions (c : Node) : List Part :=
  match c.kind with
  | .switchCase _ consequent => (consequent.filter Node.isFunctionDeclaration).map .item
  | _ => []

/-- No node takes more than one level. -/
theorem Kind.levels_le_one (place : Place) (kind : Kind) : kind.levels place ≤ 1 := by
  unfold Kind.levels
  split <;> first | exact Nat.le_refl 1 | exact Nat.zero_le 1 | (split <;> omega)

/-- A labeled statement is no part of a chain. -/
theorem Kind.isLink_of_isLabeled {kind : Kind} (h : kind.isLabeled) : kind.isLink = false := by
  cases kind with
  | labeledStatement label body => rfl
  | _ => cases h

/-- Neither is a loop. -/
theorem Kind.isLink_of_isLoop {kind : Kind} (h : kind.isLoop) : kind.isLink = false := by
  cases kind with
  | whileStatement | doWhileStatement | forStatement | forInStatement => rfl
  | _ => cases h

/-- Whether a part is lowered as the code that a node is, with one level at most. -/
structure Part.IsCodeOf (p : Part) (n : Node) : Prop where
  node : p.node = n
  isLowered : p.isLowered
  parts : n.parts p.place = n.kind.codeParts
  suits : n.kind.suits p.place = n.kind.isCode

namespace Part

/-- A part in a place for one statement or expression. -/
theorem isCodeOf_place (h : place.isCode) (n : Node) (guards : Nat) :
    ({ place := place, node := n, guards := guards } : Part).IsCodeOf n where
  node := rfl
  isLowered := rfl
  parts := Place.parts_of_isCode h n
  suits := Place.suits_of_isCode h n.kind

theorem isCodeOf_code (n : Node) (guards : Nat) : ({ place := .code, node := n, guards := guards } : Part).IsCodeOf n :=
  isCodeOf_place rfl n guards

end Part

namespace Lower

variable {α β : Type} {x : Lower α} {depth : Nat} {n : Node}

/-- A node whose parts are covered is settled. -/
theorem settles_node (hdepth : depth ≤ maxNesting) (h : Covers depth x (n.parts place)) :
    Settles x (n.Within depth place) (n.Unsuited place) :=
  h.mono (Node.within_of_parts hdepth) fun ⟨_, hp, hunsuited⟩ => Node.unsuited_of_part hp hunsuited

/-- A node that does not suit its place settles a fault. -/
theorem settles_unsuited (d : Diagnostic) (subject : String) (position : Option Position)
    (h : n.kind.suits place = false) {done : Prop} :
    Settles (fault d subject position : Lower α) done (n.Unsuited place) :=
  settles_fault d subject position (Node.unsuited_self h)

/-- A part is covered when its node is settled. -/
theorem covers_part
    (h : Settles x (p.node.Within (depth + p.node.kind.levels p.place) p.place) (p.node.Unsuited p.place))
    (hlowered : p.isLowered) : Covers depth x [p] :=
  h.mono (fun h => List.forall_mem_singleton.2 fun _ => h) fun h => ⟨p, List.mem_singleton_self p, hlowered, h⟩

/-- A part without a level is covered when its parts are. -/
theorem covers_parts (hdepth : depth ≤ maxNesting) (hlevels : p.node.kind.levels p.place = 0) (hlowered : p.isLowered)
    (h : Covers depth x (p.node.parts p.place)) : Covers depth x [p] := by
  refine covers_part ?_ hlowered
  rw [hlevels]
  exact settles_node hdepth h

/-- A node that does not suit its place covers a fault. -/
theorem covers_fault (hp : p ∈ ps) (hlowered : p.isLowered) (d : Diagnostic) (subject : String)
    (position : Option Position) (h : p.node.kind.suits p.place = false) :
    Covers depth (fault d subject position : Lower α) ps :=
  settles_fault d subject position ⟨p, hp, hlowered, Node.unsuited_self h⟩

/-- What covers a part covers another one of the same node with the same parts. -/
theorem Covers.as {q : Part} (h : Covers depth x [p]) (hlowered : q.isLowered = p.isLowered) (hnode : q.node = p.node)
    (hparts : p.node.parts q.place = p.node.parts p.place)
    (hsuits : p.node.kind.suits q.place = p.node.kind.suits p.place)
    (hlevels : p.node.kind.levels q.place ≤ p.node.kind.levels p.place) : Covers depth x [q] := by
  obtain ⟨place, node, guards, isLowered⟩ := q
  obtain rfl := hnode
  obtain rfl := hlowered
  refine h.mono (fun h => List.forall_mem_singleton.2 fun hlowered => ?_) ?_
  · have hwithin := List.forall_mem_singleton.1 h hlowered
    exact (hwithin.congr hparts).mono (Nat.add_le_add_left hlevels depth)
  · rintro ⟨p', hp', hlowered, hunsuited⟩
    obtain rfl := List.mem_singleton.1 hp'
    exact ⟨_, List.mem_singleton_self _, hlowered, hunsuited.congr hparts hsuits⟩

/-- The depth that a node that takes a level is lowered at leaves room for it. -/
theorem covers_code (hp : p.IsCodeOf n) (h : Settles x (n.Within (depth + 1) .code) (n.Unsuited .code)) :
    Covers depth x [p] := by
  obtain ⟨place, node, guards, isLowered⟩ := p
  obtain ⟨rfl, hlowered, hparts, hsuits⟩ := hp
  refine covers_part (h.mono (fun h => ?_) fun h => h.congr hparts hsuits) hlowered
  exact (h.congr hparts).mono (Nat.add_le_add_left (Kind.levels_le_one place node.kind) depth)

section

variable {position : Option Position} {inner : Nat → Lower Code} {link : Nat → Lower Link}
  (hinner : n.kind.isLink = false → ∀ d, d ≤ maxNesting → Settles (inner d) (n.Within d .code) (n.Unsuited .code))
  (hlink : n.kind.isLink → ∀ d, d ≤ maxNesting → Settles (link d) (n.Within d .code) (n.Unsuited .code))

include hinner hlink

/-- **A node that is lowered one level down is covered.** -/
theorem settles_asCode :
    Settles (asCode n.kind.isLink position depth inner link) (n.Within (depth + 1) .code) (n.Unsuited .code) := by
  refine (settles_checkNesting depth position).then fun _ hlt => ?_
  split
  · rename_i hislink
    refine (settles_checkNesting (depth + 1) position).then fun _ hlt' => ?_
    refine Settles.keep ((hlink hislink (depth + 2) hlt').mono ?_ id) fun _ => settles_pure trivial
    exact fun h => h.mono (Nat.le_succ _)
  · rename_i hislink
    exact Settles.keep (hinner (by simpa using hislink) (depth + 1) hlt) fun _ => settles_pure trivial

theorem settles_asLink :
    Settles (asLink n.kind.isLink position depth inner link) (n.Within (depth + 1) .code) (n.Unsuited .code) := by
  refine (settles_checkNesting depth position).then fun _ hlt => ?_
  split
  · rename_i hislink
    exact hlink hislink (depth + 1) hlt
  · rename_i hislink
    refine (settles_checkNesting (depth + 1) position).then fun _ hlt' => ?_
    refine Settles.keep ((hinner (by simpa using hislink) (depth + 2) hlt').mono ?_ id) fun _ => settles_pure trivial
    exact fun h => h.mono (Nat.le_succ _)

end

/-! ## 2. Bodies and functions -/

/-- A part without a level at the head of a list is covered when its parts are. -/
theorem covers_cons {qs : List Part} (hdepth : depth ≤ maxNesting) (hlevels : p.node.kind.levels p.place = 0)
    (hlowered : p.isLowered) (h : Covers depth x (p.node.parts p.place ++ qs)) : Covers depth x (p :: qs) := by
  refine h.mono (fun h => ?_) ?_
  · obtain ⟨hparts, hrest⟩ := List.forall_mem_append.1 h
    refine List.forall_mem_cons.2 ⟨fun _ => ?_, hrest⟩
    rw [hlevels]
    exact Node.within_of_parts hdepth hparts
  · rintro ⟨q, hq, hunsuited⟩
    cases List.mem_append.1 hq with
    | inl hq => exact ⟨p, List.mem_cons_self, hlowered, Node.unsuited_of_part hq hunsuited⟩
    | inr hq => exact ⟨q, List.mem_cons_of_mem p hq, hunsuited⟩

section

variable {l : List Node} {p : Part}

theorem map_filter_subset {f : Node → Part} {c : Node → Bool} (h : p ∈ (l.filter c).map f) : p ∈ l.map f := by
  obtain ⟨n, hn, rfl⟩ := List.mem_map.1 h
  exact List.mem_map_of_mem (List.mem_of_mem_filter hn)

/-- A part of a list is one of a function declaration or not. -/
theorem mem_map_filter_or {f : Node → Part} {c : Node → Bool} (h : p ∈ l.map f) :
    p ∈ (l.filter c).map f ∨ p ∈ (l.filter fun n => !c n).map f := by
  obtain ⟨n, hn, rfl⟩ := List.mem_map.1 h
  cases hc : c n with
  | true => exact .inl (List.mem_map_of_mem (List.mem_filter.2 ⟨hn, hc⟩))
  | false => exact .inr (List.mem_map_of_mem (List.mem_filter.2 ⟨hn, by simp [hc]⟩))

end

/-- A list of statements is covered when its functions and its other statements are. -/
theorem covers_items {frame : LexicalFrame} {functions : Lower (List (String × Template))}
    {statements : Lower (List Code)} {l : List Node}
    (hfunctions : Covers depth functions ((l.filter Node.isFunctionDeclaration).map .item))
    (hstatements : Covers depth statements ((l.filter fun n => !n.isFunctionDeclaration).map .item)) :
    Covers depth (Lower.body frame functions statements) (l.map .item) := by
  have hboth : Covers depth (Lower.body frame functions statements)
      ((l.filter Node.isFunctionDeclaration).map .item ++
        (l.filter fun n => !n.isFunctionDeclaration).map .item) :=
    settles_inFrame frame (hfunctions.bind fun _ => hstatements.map)
  refine hboth.of (fun p hp => ?_) fun p hp _ => List.mem_append.2 (mem_map_filter_or hp)
  exact (List.mem_append.1 hp).elim map_filter_subset map_filter_subset

/-- **A function is covered when its parameters and its body are**; that it is one of the plain ones is what its
place asks for. -/
theorem settles_template {kindName : String} {span : Span} {flags : FunctionFlags} {arity : Nat} {name : String}
    {bindsSelf isArrow : Bool} {parameters : Lower (List (Pattern × Bool))}
    {functionBody : Lower (LexicalFrame × List (String × Template) × Code)} {params : List Node}
    (hdepth : depth ≤ maxNesting) (hparts : n.parts place = functionParts params body)
    (hplain : flags.isPlain = false → n.kind.suits place = false)
    (hparameters : Covers depth parameters (params.map (.free .parameter)))
    (hbody : Covers depth functionBody [.body body]) :
    Settles (template kindName span flags arity name bindsSelf isArrow parameters functionBody)
      (n.Within depth place) (n.Unsuited place) := by
  unfold template
  split
  · rename_i hflags
    refine settles_unsuited _ _ _ (hplain ?_)
    cases hgenerator : flags.generator <;> simp_all [FunctionFlags.isPlain]
  · refine (settles_inBody isArrow (settles_node hdepth ?_)).keep fun _ => ?_
    · exact hparts ▸ hparameters.bind fun _ => hbody.map
    exact (settles_sourceOf span).keep fun _ => settles_pure trivial

/-- Statements other than function declarations are lowered as code. -/
theorem isCodeOf_item (h : n.isFunctionDeclaration = false) : (Part.item n).IsCodeOf n where
  node := rfl
  isLowered := rfl
  parts := by
    obtain ⟨kind, span⟩ := n
    cases kind with
    | function form id params body flags =>
      cases form with
      | declaration => cases h
      | _ => rfl
    | _ => rfl
  suits := rfl

/-- Arguments and elements other than spread ones are lowered as code. -/
theorem isCodeOf_argument (h : n.kind.isSpread = false) (guards : Nat) :
    ({ place := .argument, node := n, guards := guards } : Part).IsCodeOf n where
  node := rfl
  isLowered := rfl
  parts := by
    obtain ⟨kind, span⟩ := n
    cases kind with
    | spreadElement argument => cases h
    | _ => rfl
  suits := by simp [Kind.suits.eq_def, h]

theorem isCodeOf_element (h : n.kind.isSpread = false) (guards : Nat) :
    ({ place := .element, node := n, guards := guards } : Part).IsCodeOf n where
  node := rfl
  isLowered := rfl
  parts := by
    obtain ⟨kind, span⟩ := n
    cases kind with
    | spreadElement argument => cases h
    | _ => rfl
  suits := by simp [Kind.suits.eq_def, h]

/-- The functions that are declared in a case are parts of it. -/
theorem caseFunctions_subset {c : Node} (hp : p ∈ c.caseFunctions) : p ∈ c.parts .case := by
  obtain ⟨kind, span⟩ := c
  cases kind with
  | switchCase test consequent => exact List.mem_append_right _ (map_filter_subset hp)
  | _ => cases hp

/-- A variable without an initial value is one that needs none, or something is to blame. -/
theorem settles_checkInit {kind : VariableKind} {id : Node} {position : Option Position} {blame : Prop}
    (h : (kind ≠ .const && id.name?.isSome) = false → blame) :
    Settles (checkInit kind id position) (kind ≠ .const ∧ id.name?.isSome) blame := by
  unfold checkInit
  split
  · rename_i hconst
    exact (settles_describe id).then fun _ _ => settles_fault _ _ _ (h (by simp [hconst]))
  · rename_i hconst
    split
    · rename_i hname
      exact settles_fault _ _ _ (h (by simp [Option.isNone_iff_eq_none.1 hname]))
    · rename_i hname
      exact settles_pure ⟨hconst, by simpa [Option.isSome_iff_ne_none] using hname⟩

/-- A name has no parts, so that there is nothing to cover. -/
theorem covers_name {mode : BindingMode} (hdepth : depth ≤ maxNesting) (h : n.name?.isSome) :
    Covers depth (pure ()) [.free (.pattern mode) n] := by
  obtain ⟨kind, span⟩ := n
  cases kind with
  | identifier name => exact covers_parts hdepth rfl rfl (covers_pure _)
  | _ => cases h

end Lower

/-! ## 3. What is known of the parts -/

open Lower

namespace Node

variable {depth : Nat} {n : Node}

/-- Whether a node that is lowered one level down is settled. -/
def Lowers (depth : Nat) (n : Node) : Prop :=
  Settles (n.lower depth) (n.Within (depth + 1) .code) (n.Unsuited .code)

/-- Whether a node that is lowered as a part of a chain is settled. -/
def Links (depth : Nat) (n : Node) : Prop :=
  Settles (n.lowerLink depth) (n.Within (depth + 1) .code) (n.Unsuited .code)

/-- Whether a node is covered where it may take a name. -/
def LowersNamed (depth : Nat) (n : Node) : Prop :=
  ∀ name bindsSelf guards,
    Covers depth (n.lowerNamed name bindsSelf depth) [{ place := .named, node := n, guards := guards }]

/-- Whether a node is covered where something is assigned to it. -/
def LowersTarget (depth : Nat) (n : Node) : Prop :=
  Covers depth (n.lowerPattern .assign depth) [.free (.pattern .assign) n]

theorem Lowers.covers (h : n.Lowers depth) (guards : Nat) :
    Covers depth (n.lower depth) [{ place := .code, node := n, guards := guards }] :=
  covers_code (Part.isCodeOf_code n guards) h

theorem Links.covers (h : n.Links depth) (guards : Nat) :
    Covers depth (n.lowerLink depth) [{ place := .code, node := n, guards := guards }] :=
  covers_code (Part.isCodeOf_code n guards) h

end Node

namespace Kind

/-- Whether what a node does apart from counting a step is settled, whatever labels stand in front of it. -/
def Lowers (depth : Nat) (span : Span) (kind : Kind) : Prop :=
  ∀ labels, Settles (kind.lower span labels depth) ((Node.mk kind span).Within depth .code)
    ((Node.mk kind span).Unsuited .code)

/-- Whether a member or call as a part of a chain is settled. -/
def Links (depth : Nat) (span : Span) (kind : Kind) : Prop :=
  Settles (kind.lowerLink span depth) ((Node.mk kind span).Within depth .code) ((Node.mk kind span).Unsuited .code)

end Kind

namespace Lower

/-- What covers the parts of an object and its key covers them as well when something else is made of the two, and
when more is lowered after them. -/
theorem Covers.extend {α β γ δ : Type} {depth : Nat} {qs : List Part} {x : Lower α} {y : α → Lower β} {f : α → β → γ}
    {z : α → β → Lower δ} (h : Covers depth (do let a ← x; let b ← y a; pure (f a b)) ps)
    (hz : ∀ a b, Covers depth (z a b) qs) :
    Covers depth (do let a ← x; let b ← y a; z a b) (ps ++ qs) := by
  have hpair : Covers depth (do let a ← x; let b ← y a; pure (a, b)) ps := by
    intro s
    have hs := h s
    simp only [Bind.bind, EStateM.bind] at hs ⊢
    cases hx : x s with
    | error e s₁ => simpa only [hx] using hs
    | ok a s₁ =>
      simp only [hx] at hs ⊢
      cases hy : y a s₁ with
      | error e s₂ => simpa only [hy] using hs
      | ok b s₂ =>
        simp only [hy] at hs ⊢
        exact hs
  have hboth := hpair.bind fun r : α × β => hz r.1 r.2
  simpa only [bind_assoc, pure_bind] using hboth

theorem Covers.remake {α β γ δ : Type} {depth : Nat} {x : Lower α} {y : α → Lower β} {f : α → β → γ} {g : α → β → δ}
    (h : Covers depth (do let a ← x; let b ← y a; pure (f a b)) ps) :
    Covers depth (do let a ← x; let b ← y a; pure (g a b)) ps := by
  simpa only [List.append_nil] using h.extend fun a b => covers_pure (g a b)

end Lower

/-! ## 4. Statements -/

section

variable {depth : Nat} {span : Span} (hdepth : depth ≤ Lower.maxNesting)

include hdepth

theorem Kind.lowers_ifStatement {test consequent : Node} {alternate : Option Node} (htest : test.Lowers depth)
    (hconsequent : consequent.Lowers depth)
    (halternate : Covers depth (Node.lower? alternate depth) (alternate.toList.map .statement)) :
    (Kind.ifStatement test consequent alternate).Lowers depth span := fun _ =>
  settles_node hdepth ((htest.covers _).bind fun _ => (hconsequent.covers 1).bind fun _ => halternate.map)

/-- A loop or another label behind a label takes no level of its own. -/
theorem Kind.lowers_labeledStatement {label : Node} (hbody : body.Lowers depth)
    (hkind : body.kind.isLink = false → body.kind.Lowers depth body.span) :
    (Kind.labeledStatement label body).Lowers depth span := by
  intro labels
  obtain ⟨kind, span'⟩ := body
  have hinner (labels : List String) (h : kind.isLink = false) (hlevels : kind.levels .labeled = 0) :
      Covers depth (kind.lower span' labels depth) [{ place := .labeled, node := .mk kind span', guards := 1 }] := by
    refine covers_part ((hkind h labels).mono (fun h => ?_) fun h => ?_) rfl
    · rw [show (Node.mk kind span').kind.levels .labeled = 0 from hlevels]
      exact h.congr (Place.parts_of_isCode rfl _)
    · exact h.congr (Place.parts_of_isCode rfl _) (Place.suits_of_isCode rfl _)
  refine settles_node hdepth (settles_ite (fun hlabeled => ?_) fun _ => settles_ite (fun hloop => ?_) fun _ => ?_)
  · exact (hinner _ (isLink_of_isLabeled hlabeled) (by simp [levels.eq_def, hlabeled])).map
  · refine Settles.keep (hinner _ (isLink_of_isLoop hloop) (by simp [levels.eq_def, hloop])) fun _ => ?_
    exact (settles_pure trivial).keep fun _ => settles_pure trivial
  · exact Covers.map (covers_code (Part.isCodeOf_place rfl _ _) hbody)

/-- The functions of the cases are lowered before the cases; together they are all that a case consists of. -/
theorem Kind.lowers_switchStatement {discriminant : Node} {cases : List Node} (hdiscriminant : discriminant.Lowers depth)
    (hfunctions : Settles (Node.lowerCaseFunctions cases depth) (∀ c ∈ cases, ∀ p ∈ c.caseFunctions, p.Within depth)
      (∃ c ∈ cases, c.Unsuited .case))
    (hcases : Settles (Node.lowerCases cases depth)
      (∀ c ∈ cases, ∀ p ∈ c.parts .case, p ∈ c.caseFunctions ∨ p.Within depth) (∃ c ∈ cases, c.Unsuited .case)) :
    (Kind.switchStatement discriminant cases).Lowers depth span := by
  intro labels
  have hcovered {f : _ → _ → Code} : Covers depth (do
      let functions ← Node.lowerCaseFunctions cases depth
      let lowered ← Node.lowerCases cases depth
      pure (f functions lowered)) (cases.map (.free .case)) := by
    refine (hfunctions.bind fun functions _ => hcases.keep fun lowered => settles_pure trivial).mono ?_ ?_
    · rintro ⟨hfunctions, hcases⟩ p hp
      obtain ⟨c, hc, rfl⟩ := List.mem_map.1 hp
      refine fun _ => Node.within_of_parts hdepth fun q hq => ?_
      exact (hcases c hc q hq).elim (hfunctions c hc q) id
    · rintro ⟨c, hc, h⟩
      exact ⟨.free .case c, List.mem_map_of_mem hc, rfl, h⟩
  exact settles_node hdepth ((hdiscriminant.covers _).bind fun _ => settles_inFrame _ hcovered)

theorem Kind.lowers_forStatement {init test update : Option Node}
    (hinit : Covers depth (Node.lower? init depth) (init.toList.map .expression))
    (htest : Covers depth (Node.lower? test depth) (test.toList.map .expression))
    (hupdate : Covers depth (Node.lower? update depth) (update.toList.map .expression)) (hbody : body.Lowers depth) :
    (Kind.forStatement init test update body).Lowers depth span := by
  intro labels
  have hparts : (Node.mk (.forStatement init test update body) span).parts .code =
      init.toList.map .expression ++ (test.toList.map .expression ++ (update.toList.map .expression ++
        [.statement body])) := by
    rw [← List.append_assoc, ← List.append_assoc]
    rfl
  refine settles_node hdepth (settles_inFrame _ ?_)
  rw [hparts]
  exact hinit.bind fun _ => htest.bind fun _ => hupdate.bind fun _ => (hbody.covers 1).map

theorem Kind.lowers_forInStatement (hright : right.Lowers depth)
    (hleft : Covers depth (left.lowerTarget depth) [.free .target left]) (hbody : body.Lowers depth) :
    (Kind.forInStatement left right body).Lowers depth span := by
  intro labels
  -- the names are lowered before what they are assigned to
  refine settles_node hdepth (Covers.of
    ((hright.covers (Part.expressionGuards right)).bind fun _ => hleft.bind fun _ => settles_inFrame _ (hbody.covers 1).map) ?_ ?_)
  · exact fun p hp => (List.Perm.swap _ _ _).mem_iff.1 hp
  · exact fun p hp _ => (List.Perm.swap _ _ _).mem_iff.1 hp

theorem Kind.lowers_classLike {form : ClassForm} {id superClass : Option Node}
    (hsuper : Covers depth (Node.lower? superClass depth) (superClass.toList.map .first))
    (hbody : ∀ name, Covers depth (body.lowerClassBody name depth) [.free .classBody body]) :
    (Kind.classLike form id superClass body).Lowers depth span := by
  intro labels
  refine settles_node hdepth (hsuper.bind fun _ => Settles.keep (hbody _) fun _ => ?_)
  refine (settles_sourceOf span).keep fun _ => ?_
  cases form with
  | declaration | expression => exact settles_pure trivial

/-! ## 5. Expressions -/

/-- The operand of an operator is lowered as code, except for a name that is asked for and what is deleted. -/
theorem Kind.lowers_unaryExpression {operator : UnaryOperator} {isPrefix : Bool} {argument : Node}
    (hargument : argument.Lowers depth) (htarget : argument.LowersTarget depth) :
    (Kind.unaryExpression operator isPrefix argument).Lowers depth span := by
  intro labels
  have hother : Covers depth (do let a ← argument.lower depth; pure (Code.unary operator a span.position))
      [.operand argument] :=
    (hargument.covers 1).map
  obtain ⟨kind, span'⟩ := argument
  cases operator with
  | other text => exact settles_unsuited _ _ _ rfl
  | typeOf =>
    cases kind with
    | identifier name => exact settles_node hdepth (covers_pure _)
    | _ => exact settles_node hdepth hother
  | delete =>
    cases kind with
    | identifier name => exact settles_node hdepth (covers_pure _)
    | memberExpression object property computed optional =>
      have hmember : Covers depth (do
          let o ← object.lower depth
          let key ← property.lowerKey computed depth
          pure (Code.deleteMember o key)) [.free (.pattern .assign) (.mk (.memberExpression ..) span')] :=
        Covers.remake htarget
      exact settles_node hdepth (hmember.as rfl rfl rfl rfl (Nat.le_refl 0))
    | _ => exact settles_node hdepth hother
  | _ => exact settles_node hdepth hother

theorem Kind.lowers_updateExpression {operator : UpdateOperator} {isPrefix : Bool} {argument : Node}
    (htarget : argument.LowersTarget depth) :
    (Kind.updateExpression operator isPrefix argument).Lowers depth span := by
  intro labels
  obtain ⟨kind, span'⟩ := argument
  cases operator with
  | other text => exact settles_unsuited _ _ _ rfl
  | increment | decrement =>
    cases kind with
    | identifier name => exact settles_node hdepth (covers_parts hdepth rfl rfl (covers_pure _))
    | memberExpression object property computed optional => exact settles_node hdepth (Covers.remake htarget)
    | _ => exact settles_unsuited _ _ _ rfl

theorem Kind.lowers_binaryExpression {operator : BinaryOperator} (hleft : left.Lowers depth)
    (hright : right.Lowers depth) : (Kind.binaryExpression operator left right).Lowers depth span := by
  intro labels
  cases operator with
  | other text => exact settles_unsuited _ _ _ rfl
  | _ => exact settles_node hdepth ((hleft.covers 0).bind fun _ => (hright.covers 0).map)

theorem Kind.lowers_logicalExpression {operator : LogicalOperator} (hleft : left.Lowers depth)
    (hright : right.Lowers depth) : (Kind.logicalExpression operator left right).Lowers depth span := by
  intro labels
  cases operator with
  | other text => exact settles_unsuited _ _ _ rfl
  | _ => exact settles_node hdepth ((hleft.covers 0).bind fun _ => (hright.covers 0).map)

theorem Kind.lowers_assignmentExpression {operator : AssignmentOperator} (htarget : left.LowersTarget depth)
    (hright : right.Lowers depth) (hnamed : right.LowersNamed depth) :
    (Kind.assignmentExpression operator left right).Lowers depth span := by
  intro labels
  have hvalue := hright.covers 1
  obtain ⟨kind, span'⟩ := left
  cases operator with
  | other text => exact settles_unsuited _ _ _ rfl
  | plain =>
    cases kind with
    | identifier name =>
      refine settles_node hdepth (covers_cons hdepth rfl rfl ?_)
      exact (hnamed name true 1).map
    | memberExpression object property computed optional =>
      exact settles_node hdepth (Covers.extend htarget fun _ _ => hvalue.map)
    | objectPattern properties => exact settles_node hdepth (Covers.extend htarget fun _ _ => hvalue.map)
    | arrayPattern elements => exact settles_node hdepth (Covers.extend htarget fun _ _ => hvalue.map)
    | _ => exact settles_unsuited _ _ _ rfl
  | _ =>
    cases kind with
    | identifier name =>
      refine settles_node hdepth (covers_cons hdepth rfl rfl ?_)
      exact (hnamed name true 1).map
    | memberExpression object property computed optional =>
      exact settles_node hdepth (Covers.extend htarget fun _ _ => hvalue.map)
    | _ => exact settles_unsuited _ _ _ rfl

theorem Kind.lowers_taggedTemplate {tag : Node} {quasis expressions : List Node} {span' : Span}
    (htag : tag.Links depth)
    (hexpressions : Covers depth (Node.lowerAll expressions depth) (expressions.map .expression)) :
    (Kind.taggedTemplateExpression tag (.mk (.templateLiteral quasis expressions) span')).Lowers depth span := fun _ =>
  settles_node hdepth ((settles_describe tag).then fun _ _ => (htag.covers 0).bind fun _ =>
    covers_parts hdepth rfl rfl hexpressions.map)

/-- The key is lowered before the object that stands in front of it. -/
theorem Kind.links_memberExpression {object property : Node} {computed optional : Bool} (hobject : object.Links depth)
    (hkey : Covers depth (property.lowerKey computed depth) [.key computed property]) :
    (Kind.memberExpression object property computed optional).Links depth span := by
  have hother := covers_code (Part.isCodeOf_place (show Place.object.isCode from rfl) object 0) hobject
  have hswap {x : Lower Link} (hx : Covers depth x [.key computed property, .free .object object]) :
      Covers depth x [.free .object object, .key computed property] :=
    hx.of (fun p hp => (List.Perm.swap _ _ _).mem_iff.1 hp) fun p hp _ => (List.Perm.swap _ _ _).mem_iff.1 hp
  refine settles_node hdepth (hswap (hkey.bind fun key => ?_))
  obtain ⟨kind, span'⟩ := object
  cases kind with
  | super => exact covers_parts hdepth rfl rfl (covers_pure _)
  | _ => exact hother.map

/-- So are the arguments before the callee. -/
theorem Kind.links_callExpression {callee : Node} {arguments : List Node} {optional : Bool} (hcallee : callee.Links depth)
    (harguments : Covers depth (Node.lowerArguments arguments depth)
      (arguments.map fun n => { place := .argument, node := n, guards := 1 })) :
    (Kind.callExpression callee arguments optional).Links depth span := by
  have hother := covers_code (Part.isCodeOf_place (show Place.callee.isCode from rfl) callee 0) hcallee
  have hswap {parts : List Part} {x : Lower Link} (hx : Covers depth x (parts ++ [.free .callee callee])) :
      Covers depth x ([.free .callee callee] ++ parts) :=
    hx.of (fun p hp => List.perm_append_comm.mem_iff.1 hp) fun p hp _ => List.perm_append_comm.mem_iff.1 hp
  refine settles_node hdepth (hswap (harguments.bind fun args => (settles_describe callee).then fun label _ => ?_))
  obtain ⟨kind, span'⟩ := callee
  cases kind with
  | super => exact covers_parts hdepth rfl rfl (covers_pure _)
  | identifier name =>
    refine covers_parts hdepth rfl rfl (settles_ite (fun _ => ?_) fun _ => covers_pure _)
    exact settles_modify.then fun _ _ => covers_pure _
  | _ => exact hother.map

end

end GuestScript
