import GuestScript.Proofs.Grammar.Coverage

/-!
# What lowering covers

Every function of lowering covers the parts that it lowers. The induction is on the size of the tree: a function that
goes through a list needs what is smaller than the list to be covered, however it is lowered.
-/

namespace GuestScript

open Lower

/-! ## 1. Nodes that are covered -/

/-- Whether a node is covered, however it is lowered. -/
structure Node.IsCovered (n : Node) : Prop where
  code (depth : Nat) : n.Lowers depth
  link (depth : Nat) : n.Links depth
  inner (depth : Nat) (hdepth : depth ≤ Lower.maxNesting) (h : n.kind.isLink = false) : n.kind.Lowers depth n.span
  named (depth : Nat) (hdepth : depth ≤ Lower.maxNesting) : n.LowersNamed depth
  body (depth : Nat) (hdepth : depth ≤ Lower.maxNesting) : Covers depth (n.lowerBody depth) [.body n]
  key (computed : Bool) (depth : Nat) (hdepth : depth ≤ Lower.maxNesting) :
    Covers depth (n.lowerKey computed depth) [.key computed n]
  pattern (mode : BindingMode) (depth : Nat) (hdepth : depth ≤ Lower.maxNesting) :
    Covers depth (n.lowerPattern mode depth) [.free (.pattern mode) n]
  target (depth : Nat) (hdepth : depth ≤ Lower.maxNesting) : Covers depth (n.lowerTarget depth) [.free .target n]
  classBody (name : String) (depth : Nat) (hdepth : depth ≤ Lower.maxNesting) :
    Covers depth (n.lowerClassBody name depth) [.free .classBody n]

section

variable {size : Nat} (ih : ∀ n : Node, sizeOf n < size → n.IsCovered) {depth : Nat}

include ih

/-! ## 2. Lists -/

theorem covers_lower? (n : Option Node) (hsize : sizeOf n ≤ size) (guards : Node → Nat) :
    Covers depth (Node.lower? n depth) (n.toList.map fun n => { place := .code, node := n, guards := guards n }) := by
  cases n with
  | none => exact covers_pure _
  | some n =>
    rw [Option.some.sizeOf_spec] at hsize
    exact (((ih n (by omega)).code depth).covers (guards n)).map

theorem covers_lowerAll : (l : List Node) → sizeOf l ≤ size → (guards : Node → Nat) →
    Covers depth (Node.lowerAll l depth) (l.map fun n => { place := .code, node := n, guards := guards n })
  | [], _, _ => covers_pure _
  | n :: rest, hsize, guards => by
    rw [List.cons.sizeOf_spec] at hsize
    exact (((ih n (by omega)).code depth).covers (guards n)).bind fun _ => (covers_lowerAll rest (by omega) guards).map

theorem covers_lowerStatements : (l : List Node) → sizeOf l ≤ size →
    Covers depth (Node.lowerStatements l depth) ((l.filter fun n => !n.isFunctionDeclaration).map .item)
  | [], _ => covers_pure _
  | n :: rest, hsize => by
    rw [List.cons.sizeOf_spec] at hsize
    have hrest := covers_lowerStatements rest (by omega)
    have hcode := (ih n (by omega)).code depth
    have hother (h : n.isFunctionDeclaration = false) : Covers depth (do
        let c ← n.lower depth
        return c :: (← Node.lowerStatements rest depth))
        (.item n :: (rest.filter fun n => !n.isFunctionDeclaration).map .item) :=
      (covers_code (isCodeOf_item h) hcode).bind fun _ => hrest.map
    obtain ⟨kind, span⟩ := n
    cases kind with
    | function form id params body flags =>
      cases form with
      | declaration => exact hrest
      | _ => exact hother rfl
    | _ => exact hother rfl

section

variable (hdepth : depth ≤ Lower.maxNesting)

include hdepth

theorem covers_lowerArguments : (l : List Node) → sizeOf l ≤ size →
    Covers depth (Node.lowerArguments l depth) (l.map fun n => { place := .argument, node := n, guards := 1 })
  | [], _ => covers_pure _
  | n :: rest, hsize => by
    rw [List.cons.sizeOf_spec] at hsize
    have hrest := covers_lowerArguments rest (by omega)
    have hcode := (ih n (by omega)).code depth
    have hother (h : n.kind.isSpread = false) : Covers depth (do
        let c ← n.lower depth
        return (c, false) :: (← Node.lowerArguments rest depth))
        ((n :: rest).map fun n => { place := .argument, node := n, guards := 1 }) :=
      (covers_code (isCodeOf_argument h 1) hcode).bind fun _ => hrest.map
    obtain ⟨kind, span⟩ := n
    cases kind with
    | spreadElement argument =>
      rw [Node.mk.sizeOf_spec, Kind.spreadElement.sizeOf_spec] at hsize
      refine (covers_parts (p := { place := .argument, node := .mk (.spreadElement argument) span, guards := 1 }) hdepth
        rfl rfl ?_).bind fun _ => hrest.map
      exact ((ih argument (by omega)).code depth).covers 0
    | _ => exact hother rfl

theorem covers_lowerElements : (l : List (Option Node)) → sizeOf l ≤ size →
    Covers depth (Node.lowerElements l depth)
      (l.reduceOption.map fun n => { place := .element, node := n, guards := 1 })
  | [], _ => covers_pure _
  | none :: rest, hsize => by
    rw [List.cons.sizeOf_spec] at hsize
    exact (covers_lowerElements rest (by omega)).map
  | some n :: rest, hsize => by
    rw [List.cons.sizeOf_spec, Option.some.sizeOf_spec] at hsize
    have hrest := covers_lowerElements rest (by omega)
    have hcode := (ih n (by omega)).code depth
    have hother (h : n.kind.isSpread = false) : Covers depth (do
        let c ← n.lower depth
        return some (c, none) :: (← Node.lowerElements rest depth))
        ((n :: rest.reduceOption).map fun n => { place := .element, node := n, guards := 1 }) :=
      (covers_code (isCodeOf_element h 1) hcode).bind fun _ => hrest.map
    obtain ⟨kind, span⟩ := n
    cases kind with
    | spreadElement argument =>
      rw [Node.mk.sizeOf_spec, Kind.spreadElement.sizeOf_spec] at hsize
      refine (covers_parts (p := { place := .element, node := .mk (.spreadElement argument) span, guards := 1 }) hdepth
        rfl rfl ?_).bind fun _ => (settles_describe argument).then fun _ _ => hrest.map
      exact ((ih argument (by omega)).code depth).covers 0
    | _ => exact hother rfl

theorem covers_lowerProperties : (l : List Node) → sizeOf l ≤ size →
    Covers depth (Node.lowerProperties l depth) (l.map (.free .property))
  | [], _ => covers_pure _
  | .mk kind span :: rest, hsize => by
    rw [List.cons.sizeOf_spec, Node.mk.sizeOf_spec] at hsize
    have hrest := covers_lowerProperties rest (by omega)
    cases kind with
    | spreadElement argument =>
      rw [Kind.spreadElement.sizeOf_spec] at hsize
      refine covers_cons hdepth rfl rfl ?_
      exact (((ih argument (by omega)).code depth).covers 1).bind fun _ => hrest.map
    | property key value kind method shorthand computed =>
      rw [Kind.property.sizeOf_spec] at hsize
      refine covers_cons hdepth rfl rfl ?_
      refine ((ih key (by omega)).key computed depth hdepth).bind fun name => ?_
      have hlast (part : ObjectPart) : Covers depth (do
          let part ← pure part
          return part :: (← Node.lowerProperties rest depth)) (rest.map (.free .property)) :=
        (covers_pure part).bind fun _ => hrest.map
      have hvalue {place : Place} (hplace : place.isCode) (guards : Nat) :
          Covers depth (value.lower depth) [{ place := place, node := value, guards := guards }] :=
        covers_code (Part.isCodeOf_place hplace value guards) ((ih value (by omega)).code depth)
      split
      · exact (hvalue rfl _).bind fun c => hlast (.ignored c)
      · exact ((ih value (by omega)).named depth hdepth _ false _).bind fun c => hlast (.value name c)
      · exact (hvalue rfl _).bind fun c => hlast (.value name c)
      · exact (hvalue rfl _).bind fun c => hlast (.getter name c)
      · exact (hvalue rfl _).bind fun c => hlast (.setter name c)
    | _ => exact covers_fault List.mem_cons_self rfl _ _ _ rfl

theorem covers_lowerPatternParts (mode : BindingMode) : (l : List Node) →
    sizeOf l ≤ size → Covers depth (Node.lowerPatternParts l mode depth) (l.map (.free (.patternPart mode)))
  | [], _ => covers_pure _
  | .mk kind span :: rest, hsize => by
    rw [List.cons.sizeOf_spec, Node.mk.sizeOf_spec] at hsize
    have hrest := covers_lowerPatternParts mode rest (by omega)
    cases kind with
    | property key value kind method shorthand computed =>
      rw [Kind.property.sizeOf_spec] at hsize
      refine covers_cons hdepth rfl rfl (((ih key (by omega)).key computed depth hdepth).bind fun _ => ?_)
      exact ((ih value (by omega)).pattern mode depth hdepth).bind fun _ => hrest.map
    | restElement argument =>
      rw [Kind.restElement.sizeOf_spec] at hsize
      refine covers_cons hdepth rfl rfl ?_
      exact ((ih argument (by omega)).pattern mode depth hdepth).bind fun _ => hrest.map
    | _ => exact covers_fault List.mem_cons_self rfl _ _ _ rfl

theorem covers_lowerPatternElements (mode : BindingMode) :
    (l : List (Option Node)) → sizeOf l ≤ size →
      Covers depth (Node.lowerPatternElements l mode depth) (l.reduceOption.map (.free (.patternElement mode)))
  | [], _ => covers_pure _
  | none :: rest, hsize => by
    rw [List.cons.sizeOf_spec] at hsize
    exact (covers_lowerPatternElements mode rest (by omega)).map
  | some n :: rest, hsize => by
    rw [List.cons.sizeOf_spec, Option.some.sizeOf_spec] at hsize
    have hrest := covers_lowerPatternElements mode rest (by omega)
    have hpattern := (ih n (by omega)).pattern mode depth hdepth
    have hother (hparts : n.parts (.patternElement mode) = n.parts (.pattern mode))
        (hsuits : n.kind.suits (.patternElement mode) = n.kind.suits (.pattern mode)) : Covers depth (do
        let p ← n.lowerPattern mode depth
        return some (p, false) :: (← Node.lowerPatternElements rest mode depth))
        (.free (.patternElement mode) n :: rest.reduceOption.map (.free (.patternElement mode))) :=
      (hpattern.as (q := .free (.patternElement mode) n) rfl rfl hparts hsuits (Nat.le_refl 0)).bind fun _ => hrest.map
    obtain ⟨kind, span⟩ := n
    cases kind with
    | restElement argument =>
      rw [Node.mk.sizeOf_spec, Kind.restElement.sizeOf_spec] at hsize
      refine covers_cons hdepth rfl rfl ?_
      exact ((ih argument (by omega)).pattern mode depth hdepth).bind fun _ => hrest.map
    | _ => exact hother rfl rfl

theorem covers_lowerParameters : (l : List Node) → sizeOf l ≤ size →
    Covers depth (Node.lowerParameters l depth) (l.map (.free .parameter))
  | [], _ => covers_pure _
  | n :: rest, hsize => by
    rw [List.cons.sizeOf_spec] at hsize
    have hrest := covers_lowerParameters rest (by omega)
    have hpattern := (ih n (by omega)).pattern .parameter depth hdepth
    have hother (hparts : n.parts .parameter = n.parts (.pattern .parameter))
        (hsuits : n.kind.suits .parameter = n.kind.suits (.pattern .parameter)) : Covers depth (do
        let p ← n.lowerPattern .parameter depth
        return (p, false) :: (← Node.lowerParameters rest depth)) (.free .parameter n :: rest.map (.free .parameter)) :=
      (hpattern.as (q := .free .parameter n) rfl rfl hparts hsuits (Nat.le_refl 0)).bind fun _ => hrest.map
    obtain ⟨kind, span⟩ := n
    cases kind with
    | restElement argument =>
      rw [Node.mk.sizeOf_spec, Kind.restElement.sizeOf_spec] at hsize
      refine covers_cons hdepth rfl rfl ?_
      exact ((ih argument (by omega)).pattern .parameter depth hdepth).bind fun _ => hrest.map
    | _ => exact hother rfl rfl

/-- A function is covered in every place where its parameters and its body are lowered. -/
theorem settles_function {n : Node} {place : Place} {kindName name : String} {span : Span} {flags : FunctionFlags}
    {bindsSelf isArrow : Bool} {params : List Node} {body : Node} (hparams : sizeOf params ≤ size)
    (hbody : sizeOf body < size) (hparts : n.parts place = functionParts params body)
    (hplain : flags.isPlain = false → n.kind.suits place = false) :
    Settles (template kindName span flags (leadingParameters params) name bindsSelf isArrow
      (Node.lowerParameters params depth) (body.lowerBody depth)) (n.Within depth place) (n.Unsuited place) :=
  settles_template hdepth hparts hplain (covers_lowerParameters ih hdepth params hparams)
    ((ih body hbody).body depth hdepth)

theorem covers_lowerFunctions : (l : List Node) → sizeOf l ≤ size →
    Covers depth (Node.lowerFunctions l depth) ((l.filter Node.isFunctionDeclaration).map .item)
  | [], _ => covers_pure _
  | .mk kind span :: rest, hsize => by
    rw [List.cons.sizeOf_spec, Node.mk.sizeOf_spec] at hsize
    have hrest := covers_lowerFunctions rest (by omega)
    cases kind with
    | function form id params body flags =>
      rw [Kind.function.sizeOf_spec] at hsize
      cases form with
      | declaration =>
        have hfunction : Covers depth (template "FunctionDeclaration" span flags (leadingParameters params)
            ((nameOf? id).getD "") true false (Node.lowerParameters params depth) (body.lowerBody depth))
            [.item (.mk (.function .declaration id params body flags) span)] :=
          covers_part (settles_function ih hdepth (by omega) (by omega) rfl fun h => h) rfl
        exact hfunction.bind fun _ => hrest.map
      | _ => exact hrest
    | _ => exact hrest

theorem covers_lowerDeclarators (kind : VariableKind) : (l : List Node) →
    sizeOf l ≤ size → Covers depth (Node.lowerDeclarators l kind depth) (l.map (.free (.declarator kind)))
  | [], _ => covers_pure _
  | .mk declarator span :: rest, hsize => by
    rw [List.cons.sizeOf_spec, Node.mk.sizeOf_spec] at hsize
    have hrest := covers_lowerDeclarators kind rest (by omega)
    cases declarator with
    | variableDeclarator id init =>
      rw [Kind.variableDeclarator.sizeOf_spec] at hsize
      have hpattern := (ih id (by omega)).pattern (modeOf kind) depth hdepth
      cases init with
      | none =>
        have hlast : Covers depth (do
            checkInit kind id span.position
            if kind = .var then Node.lowerDeclarators rest kind depth
            else
              let p ← id.lowerPattern (modeOf kind) depth
              return (p, none) :: (← Node.lowerDeclarators rest kind depth))
            ((.mk (.variableDeclarator id none) span :: rest).map (.free (.declarator kind))) := by
          refine Settles.then (settles_checkInit fun h => ?_) fun _ hinit => ?_
          · exact ⟨_, List.mem_cons_self, rfl, Node.unsuited_self h⟩
          refine covers_cons hdepth rfl rfl ?_
          split
          · exact (covers_name hdepth hinit.2).bind fun _ => hrest
          · exact hpattern.bind fun _ => hrest.map
        exact settles_ite (fun _ => (settles_forM (settles_declareVar _) _).then fun _ _ => hlast) fun _ => hlast
      | some init =>
        rw [Option.some.sizeOf_spec] at hsize
        have hnamed (name : String) := (ih init (by omega)).named depth hdepth name true 1
        have hunnamed := ((ih init (by omega)).code depth).covers 1
        have hrest' (value : Code) : Covers depth (do
            let p ← id.lowerPattern (modeOf kind) depth
            return (p, some value) :: (← Node.lowerDeclarators rest kind depth))
            (.free (.pattern (modeOf kind)) id :: rest.map (.free (.declarator kind))) :=
          hpattern.bind fun _ => hrest.map
        -- the value is lowered before the pattern that stands in front of it
        have hswap {x : Lower (List (Pattern × Option Code))}
            (hx : Covers depth x
              (.value id init :: .free (.pattern (modeOf kind)) id :: rest.map (.free (.declarator kind)))) :
            Covers depth x ((.mk (.variableDeclarator id (some init)) span :: rest).map (.free (.declarator kind))) :=
          covers_cons hdepth rfl rfl
            (hx.of (fun p hp => (List.Perm.swap _ _ _).mem_iff.1 hp) fun p hp _ => (List.Perm.swap _ _ _).mem_iff.1 hp)
        refine settles_ite (fun _ => (settles_forM (settles_declareVar _) _).then fun _ _ => hswap ?_) fun _ => hswap ?_
        all_goals
          dsimp only [Part.value]
          cases id.name? with
          | some name => exact (hnamed name).bind fun value => hrest' value
          | none => exact hunnamed.bind fun value => hrest' value
    | _ => exact covers_fault List.mem_cons_self rfl _ _ _ rfl

theorem settles_lowerCaseFunctions : (l : List Node) → sizeOf l ≤ size →
    Settles (Node.lowerCaseFunctions l depth) (∀ c ∈ l, ∀ p ∈ c.caseFunctions, p.Within depth)
      (∃ c ∈ l, c.Unsuited .case)
  | [], _ => settles_pure nofun
  | .mk kind span :: rest, hsize => by
    rw [List.cons.sizeOf_spec, Node.mk.sizeOf_spec] at hsize
    have hrest : Settles (Node.lowerCaseFunctions rest depth) (∀ c ∈ rest, ∀ p ∈ c.caseFunctions, p.Within depth)
        (∃ c ∈ Node.mk kind span :: rest, c.Unsuited .case) :=
      (settles_lowerCaseFunctions rest (by omega)).mono id fun ⟨c, hc, h⟩ => ⟨c, List.mem_cons_of_mem _ hc, h⟩
    have hother (h : (Node.mk kind span).caseFunctions = []) : Settles (Node.lowerCaseFunctions rest depth)
        (∀ c ∈ Node.mk kind span :: rest, ∀ p ∈ c.caseFunctions, p.Within depth)
        (∃ c ∈ Node.mk kind span :: rest, c.Unsuited .case) :=
      hrest.mono (fun hrest => List.forall_mem_cons.2 ⟨by simp only [h, List.not_mem_nil, false_implies, implies_true],
        hrest⟩) id
    cases kind with
    | switchCase test consequent =>
      rw [Kind.switchCase.sizeOf_spec] at hsize
      have hfunctions : Settles (Node.lowerFunctions consequent depth)
          (∀ p ∈ (Node.mk (.switchCase test consequent) span).caseFunctions, p.Within depth)
          (∃ c ∈ Node.mk (.switchCase test consequent) span :: rest, c.Unsuited .case) :=
        (covers_lowerFunctions ih hdepth consequent (by omega)).mono id fun ⟨p, hp, h⟩ =>
          ⟨_, List.mem_cons_self, Node.unsuited_of_part (caseFunctions_subset hp) h⟩
      refine (hfunctions.bind fun _ _ => hrest.keep fun _ => settles_pure trivial).mono (fun h => ?_) id
      exact List.forall_mem_cons.2 ⟨h.1, h.2⟩
    | _ => exact hother rfl

omit hdepth in
theorem settles_lowerCases : (l : List Node) → sizeOf l ≤ size →
    Settles (Node.lowerCases l depth) (∀ c ∈ l, ∀ p ∈ c.parts .case, p ∈ c.caseFunctions ∨ p.Within depth)
      (∃ c ∈ l, c.Unsuited .case)
  | [], _ => settles_pure nofun
  | .mk kind span :: rest, hsize => by
    rw [List.cons.sizeOf_spec, Node.mk.sizeOf_spec] at hsize
    have hrest : Settles (Node.lowerCases rest depth)
        (∀ c ∈ rest, ∀ p ∈ c.parts .case, p ∈ c.caseFunctions ∨ p.Within depth)
        (∃ c ∈ Node.mk kind span :: rest, c.Unsuited .case) :=
      (settles_lowerCases rest (by omega)).mono id fun ⟨c, hc, h⟩ => ⟨c, List.mem_cons_of_mem _ hc, h⟩
    cases kind with
    | switchCase test consequent =>
      rw [Kind.switchCase.sizeOf_spec] at hsize
      have hblame {p : Part} (hp : p ∈ (Node.mk (.switchCase test consequent) span).parts .case) (h : p.Unsuited) :
          ∃ c ∈ Node.mk (.switchCase test consequent) span :: rest, c.Unsuited .case :=
        ⟨_, List.mem_cons_self, Node.unsuited_of_part hp h⟩
      refine (settles_checkNesting depth span.position).then fun _ _ => ?_
      have htest : Covers (depth + 1) (Node.lower? test (depth + 1)) _ :=
        covers_lower? ih test (by omega) Part.expressionGuards
      have hstatements : Covers depth (Node.lowerStatements consequent depth) _ :=
        covers_lowerStatements ih consequent (by omega)
      have htest := htest.mono id fun ⟨p, hp, h⟩ => hblame (List.mem_append_left _ hp) h
      have hstatements := hstatements.mono id fun ⟨p, hp, h⟩ =>
        hblame (List.mem_append_right _ (map_filter_subset hp)) h
      refine (htest.bind fun _ _ => hstatements.bind fun _ _ => hrest.keep fun _ => settles_pure trivial).mono ?_ id
      rintro ⟨htest, hstatements, hrest⟩
      refine List.forall_mem_cons.2 ⟨fun p hp => ?_, hrest⟩
      cases List.mem_append.1 hp with
      | inl hp => exact .inr ((htest p hp).mono (Nat.le_succ depth))
      | inr hp => exact (mem_map_filter_or hp).imp id (hstatements p)
    | _ => exact settles_fault _ _ _ ⟨_, List.mem_cons_self, Node.unsuited_self rfl⟩

theorem covers_lowerHandler? (n : Option Node) (hsize : sizeOf n ≤ size) :
    Covers depth (Node.lowerHandler? n depth) (n.toList.map (.free .handler)) := by
  cases n with
  | none => exact covers_pure _
  | some n =>
    obtain ⟨kind, span⟩ := n
    rw [Option.some.sizeOf_spec, Node.mk.sizeOf_spec] at hsize
    cases kind with
    | catchClause param body =>
      rw [Kind.catchClause.sizeOf_spec] at hsize
      have hbody := ((ih body (by omega)).code depth).covers 0
      cases param with
      | none => exact covers_parts hdepth rfl rfl hbody.map
      | some param =>
        rw [Option.some.sizeOf_spec] at hsize
        refine covers_parts hdepth rfl rfl ?_
        exact ((ih param (by omega)).pattern .parameter depth hdepth).bind fun _ => hbody.map
    | _ => exact covers_fault List.mem_cons_self rfl _ _ _ rfl

theorem covers_lowerMembers (name : String) : (l : List Node) → sizeOf l ≤ size →
    Covers depth (Node.lowerMembers l name depth) (l.map (.free .member))
  | [], _ => covers_pure _
  | .mk kind span :: rest, hsize => by
    rw [List.cons.sizeOf_spec, Node.mk.sizeOf_spec] at hsize
    have hrest := covers_lowerMembers name rest (by omega)
    cases kind with
    | methodDefinition key value kind computed isStatic =>
      obtain ⟨value, span'⟩ := value
      rw [Kind.methodDefinition.sizeOf_spec, Node.mk.sizeOf_spec] at hsize
      cases value with
      | function form id params body flags =>
        rw [Kind.function.sizeOf_spec] at hsize
        cases form with
        | expression =>
          have hmethod (name : String) : Covers depth
              (template "FunctionExpression" span' flags (leadingParameters params) name false false
                (Node.lowerParameters params depth) (body.lowerBody depth))
              [.free .method (.mk (.function .expression id params body flags) span')] :=
            covers_part (settles_function ih hdepth (by omega) (by omega) rfl fun h => h) rfl
          refine covers_cons hdepth rfl rfl ?_
          cases kind with
          | constructor => exact Covers.skip ((hmethod name).bind fun _ => hrest.map) rfl
          | method =>
            exact ((ih key (by omega)).key computed depth hdepth).bind fun key => (hmethod _).bind fun _ => hrest.map
          | get | set => exact (hrest.map.skip rfl).skip rfl
        | _ => exact covers_fault List.mem_cons_self rfl _ _ _ rfl
      | _ => exact covers_fault List.mem_cons_self rfl _ _ _ rfl
    | propertyDefinition key value computed isStatic =>
      rw [Kind.propertyDefinition.sizeOf_spec] at hsize
      have hkey := (ih key (by omega)).key computed depth hdepth
      refine covers_cons hdepth rfl rfl ?_
      cases value with
      | none => exact hkey.bind fun _ => hrest.map
      | some value =>
        rw [Option.some.sizeOf_spec] at hsize
        have hunnamed := covers_code (Part.isCodeOf_place (show Place.named.isCode from rfl) value 1)
          ((ih value (by omega)).code depth)
        refine hkey.bind fun name => ?_
        dsimp only
        split
        · exact ((ih value (by omega)).named depth hdepth _ false 1).bind fun _ => hrest.map
        · exact hunnamed.bind fun _ => hrest.map
    | _ => exact covers_fault List.mem_cons_self rfl _ _ _ rfl

/-! ## 3. Nodes -/

theorem Kind.links_of_smaller (kind : Kind) (span : Span) (hsize : sizeOf kind ≤ size) (h : kind.isLink) :
    kind.Links depth span := by
  cases kind with
  | chainExpression expression =>
    rw [Kind.chainExpression.sizeOf_spec] at hsize
    exact settles_node hdepth (((ih expression (by omega)).link depth).covers 0).map
  | memberExpression object property computed optional =>
    rw [Kind.memberExpression.sizeOf_spec] at hsize
    exact links_memberExpression hdepth ((ih object (by omega)).link depth)
      ((ih property (by omega)).key computed depth hdepth)
  | callExpression callee arguments optional =>
    rw [Kind.callExpression.sizeOf_spec] at hsize
    exact links_callExpression hdepth ((ih callee (by omega)).link depth)
      (covers_lowerArguments ih hdepth arguments (by omega))
  | _ => cases h

/-- A pattern with a default value is covered, whatever is made of the two. -/
theorem covers_assignmentPattern (mode : BindingMode) {left right : Node} {bindsSelf : Bool}
    (hleft : sizeOf left < size) (hright : sizeOf right < size) {α : Type} (f : Pattern → Code → α) :
    Covers depth (do
      let inner ← left.lowerPattern mode depth
      let default ←
        match left.name? with
        | some name => right.lowerNamed name bindsSelf depth
        | none => right.lower depth
      pure (f inner default)) ((Kind.assignmentPattern left right).patternParts mode) := by
  refine ((ih left hleft).pattern mode depth hdepth).bind fun inner => ?_
  have hnamed (name : String) := (ih right hright).named depth hdepth name bindsSelf 1
  have hunnamed := ((ih right hright).code depth).covers 1
  dsimp only [Part.value]
  cases left.name? with
  | some name => exact (hnamed name).map
  | none => exact hunnamed.map

theorem Kind.lowers_of_smaller (kind : Kind) (span : Span) (hsize : sizeOf kind ≤ size) (h : kind.isLink = false) :
    kind.Lowers depth span := by
  have hcode {n : Node} (hn : sizeOf n < size) := (ih n hn).code depth
  have hlists (l : List Node) (hl : sizeOf l ≤ size) (guards : Node → Nat) :
      Covers depth (Node.lowerAll l depth) (l.map fun n => { place := .code, node := n, guards := guards n }) :=
    covers_lowerAll ih l hl guards
  have hoption (o : Option Node) (ho : sizeOf o ≤ size) (guards : Node → Nat) :
      Covers depth (Node.lower? o depth) (o.toList.map fun n => { place := .code, node := n, guards := guards n }) :=
    covers_lower? ih o ho guards
  intro labels
  cases kind with
  | program body =>
    rw [Kind.program.sizeOf_spec] at hsize
    exact settles_node hdepth (covers_lowerStatements ih body (by omega)).map
  | expressionStatement expression directive =>
    rw [Kind.expressionStatement.sizeOf_spec] at hsize
    exact settles_node hdepth ((hcode (n := expression) (by omega)).covers _).map
  | blockStatement statements =>
    rw [Kind.blockStatement.sizeOf_spec] at hsize
    refine settles_node hdepth (Covers.map ?_)
    exact covers_items (covers_lowerFunctions ih hdepth statements (by omega))
      (covers_lowerStatements ih statements (by omega))
  | emptyStatement | debuggerStatement | breakStatement | continueStatement | thisExpression | super =>
    exact settles_node hdepth (covers_pure _)
  | withStatement object body =>
    rw [Kind.withStatement.sizeOf_spec] at hsize
    refine settles_node hdepth (((hcode (n := object) (by omega)).covers _).bind fun _ => ?_)
    exact ((hcode (n := body) (by omega)).covers 1).map
  | returnStatement argument =>
    rw [Kind.returnStatement.sizeOf_spec] at hsize
    exact settles_node hdepth (hoption argument (by omega) Part.expressionGuards).map
  | labeledStatement label body =>
    rw [Kind.labeledStatement.sizeOf_spec] at hsize
    exact lowers_labeledStatement hdepth (hcode (by omega)) ((ih body (by omega)).inner depth hdepth) labels
  | ifStatement test consequent alternate =>
    rw [Kind.ifStatement.sizeOf_spec] at hsize
    exact lowers_ifStatement hdepth (hcode (by omega)) (hcode (by omega)) (hoption alternate (by omega) fun _ => 1) labels
  | switchStatement discriminant cases =>
    rw [Kind.switchStatement.sizeOf_spec] at hsize
    exact lowers_switchStatement hdepth (hcode (by omega)) (settles_lowerCaseFunctions ih hdepth cases (by omega))
      (settles_lowerCases ih cases (by omega)) labels
  | switchCase test consequent =>
    rw [Kind.switchCase.sizeOf_spec] at hsize
    exact settles_node hdepth (hoption test (by omega) Part.expressionGuards).map
  | throwStatement argument =>
    rw [Kind.throwStatement.sizeOf_spec] at hsize
    exact settles_node hdepth ((hcode (n := argument) (by omega)).covers _).map
  | tryStatement block handler finalizer =>
    rw [Kind.tryStatement.sizeOf_spec] at hsize
    refine settles_node hdepth (((hcode (n := block) (by omega)).covers 0).bind fun _ => ?_)
    refine (covers_lowerHandler? ih hdepth handler (by omega)).bind fun _ => ?_
    exact (hoption finalizer (by omega) fun _ => 0).map
  | whileStatement test body =>
    rw [Kind.whileStatement.sizeOf_spec] at hsize
    refine settles_node hdepth (((hcode (n := test) (by omega)).covers _).bind fun _ => ?_)
    exact ((hcode (n := body) (by omega)).covers 1).map
  | doWhileStatement body test =>
    rw [Kind.doWhileStatement.sizeOf_spec] at hsize
    refine settles_node hdepth (((hcode (n := body) (by omega)).covers 1).bind fun _ => ?_)
    exact ((hcode (n := test) (by omega)).covers _).map
  | forStatement init test update body =>
    rw [Kind.forStatement.sizeOf_spec] at hsize
    exact lowers_forStatement hdepth (hoption init (by omega) Part.expressionGuards)
      (hoption test (by omega) Part.expressionGuards) (hoption update (by omega) Part.expressionGuards)
      (hcode (by omega)) labels
  | forInStatement left right body =>
    rw [Kind.forInStatement.sizeOf_spec] at hsize
    exact lowers_forInStatement hdepth (hcode (by omega)) ((ih left (by omega)).target depth hdepth) (hcode (by omega))
      labels
  | function form id params body flags =>
    rw [Kind.function.sizeOf_spec] at hsize
    cases form with
    | declaration =>
      refine settles_node hdepth ((covers_pure _).of nofun fun p hp hlowered => ?_)
      obtain ⟨q, _, rfl⟩ := List.mem_map.1 hp
      cases hlowered
    | expression | arrow =>
      refine Settles.keep ?_ fun _ => settles_pure trivial
      exact settles_function ih hdepth (by omega) (by omega) rfl fun h => h
  | variableDeclaration declarations kind =>
    rw [Kind.variableDeclaration.sizeOf_spec] at hsize
    exact settles_node hdepth (covers_lowerDeclarators ih hdepth kind declarations (by omega)).map
  | classLike form id superClass body =>
    rw [Kind.classLike.sizeOf_spec] at hsize
    exact lowers_classLike hdepth (hoption superClass (by omega) fun _ => 0)
      (fun name => (ih body (by omega)).classBody name depth hdepth) labels
  | identifier name =>
    exact settles_node hdepth
      (settles_ite (fun _ => settles_modify.then fun _ _ => covers_pure _) fun _ => covers_pure _)
  | literal value raw regex =>
    cases regex with
    | none | some => exact settles_node hdepth (covers_pure _)
  | arrayExpression elements =>
    rw [Kind.arrayExpression.sizeOf_spec] at hsize
    exact settles_node hdepth (covers_lowerElements ih hdepth elements (by omega)).map
  | objectExpression properties =>
    rw [Kind.objectExpression.sizeOf_spec] at hsize
    exact settles_node hdepth (covers_lowerProperties ih hdepth properties (by omega)).map
  | unaryExpression operator isPrefix argument =>
    rw [Kind.unaryExpression.sizeOf_spec] at hsize
    exact lowers_unaryExpression hdepth (hcode (by omega)) ((ih argument (by omega)).pattern .assign depth hdepth) labels
  | updateExpression operator isPrefix argument =>
    rw [Kind.updateExpression.sizeOf_spec] at hsize
    exact lowers_updateExpression hdepth ((ih argument (by omega)).pattern .assign depth hdepth) labels
  | binaryExpression operator left right =>
    rw [Kind.binaryExpression.sizeOf_spec] at hsize
    exact lowers_binaryExpression hdepth (hcode (by omega)) (hcode (by omega)) labels
  | logicalExpression operator left right =>
    rw [Kind.logicalExpression.sizeOf_spec] at hsize
    exact lowers_logicalExpression hdepth (hcode (by omega)) (hcode (by omega)) labels
  | assignmentExpression operator left right =>
    rw [Kind.assignmentExpression.sizeOf_spec] at hsize
    exact lowers_assignmentExpression hdepth ((ih left (by omega)).pattern .assign depth hdepth) (hcode (by omega))
      ((ih right (by omega)).named depth hdepth) labels
  | conditionalExpression test consequent alternate =>
    rw [Kind.conditionalExpression.sizeOf_spec] at hsize
    refine settles_node hdepth (((hcode (n := test) (by omega)).covers 0).bind fun _ => ?_)
    refine ((hcode (n := consequent) (by omega)).covers 1).bind fun _ => ?_
    exact ((hcode (n := alternate) (by omega)).covers 1).map
  | newExpression callee arguments =>
    rw [Kind.newExpression.sizeOf_spec] at hsize
    refine settles_node hdepth ((settles_describe callee).then fun _ _ => ?_)
    refine ((hcode (n := callee) (by omega)).covers 0).bind fun _ => ?_
    exact (covers_lowerArguments ih hdepth arguments (by omega)).map
  | sequenceExpression expressions =>
    rw [Kind.sequenceExpression.sizeOf_spec] at hsize
    exact settles_node hdepth (hlists expressions (by omega) fun _ => 1).map
  | templateLiteral quasis expressions =>
    rw [Kind.templateLiteral.sizeOf_spec] at hsize
    exact settles_node hdepth (hlists expressions (by omega) Part.expressionGuards).map
  | taggedTemplateExpression tag quasi =>
    obtain ⟨kind, span'⟩ := quasi
    rw [Kind.taggedTemplateExpression.sizeOf_spec, Node.mk.sizeOf_spec] at hsize
    cases kind with
    | templateLiteral quasis expressions =>
      rw [Kind.templateLiteral.sizeOf_spec] at hsize
      exact lowers_taggedTemplate hdepth ((ih tag (by omega)).link depth)
        (hlists expressions (by omega) Part.expressionGuards) labels
    | _ => exact settles_unsuited _ _ _ rfl
  | memberExpression _ _ _ _ | callExpression _ _ _ | chainExpression _ => cases h
  | _ => exact settles_unsuited _ _ _ rfl

end

end

namespace Node

section

variable {n : Node} {depth : Nat} (hinner : n.kind.isLink = false → ∀ d ≤ Lower.maxNesting, n.kind.Lowers d n.span)
  (hlink : n.kind.isLink → ∀ d ≤ Lower.maxNesting, n.kind.Links d n.span)

include hinner hlink

theorem lowers_of_kind : n.Lowers depth := by
  obtain ⟨kind, span⟩ := n
  exact settles_asCode (n := .mk kind span) (fun h d hd => hinner h d hd []) hlink

theorem links_of_kind : n.Links depth := by
  obtain ⟨kind, span⟩ := n
  exact settles_asLink (n := .mk kind span) (fun h d hd => hinner h d hd []) hlink

end

section

variable {n : Node} (ih : ∀ m : Node, sizeOf m < sizeOf n → m.IsCovered) (hcode : ∀ depth, n.Lowers depth)
  {depth : Nat} (hdepth : depth ≤ Lower.maxNesting)

include hcode in
theorem Lowers.key (computed : Bool) (hdepth : depth ≤ Lower.maxNesting) :
    Covers depth (n.lowerKey computed depth) [.key computed n] := by
  have hother (hparts : n.parts (.key computed) = n.kind.codeParts) : Covers depth (do
      return PropertyName.computed (← n.lower depth)) [.key computed n] :=
    Covers.map (covers_code ⟨rfl, rfl, hparts, rfl⟩ (hcode depth))
  obtain ⟨kind, span⟩ := n
  cases computed with
  | true => exact hother rfl
  | false =>
    cases kind with
    | identifier name => exact covers_parts hdepth rfl rfl (covers_pure _)
    | literal value raw regex => exact covers_parts hdepth rfl rfl (covers_pure _)
    | _ => exact hother rfl

include ih hcode hdepth

/-- Functions and classes that take a name from where they stand take no level. -/
theorem lowersNamed_of_smaller : n.LowersNamed depth := by
  intro name bindsSelf guards
  have hother : Covers depth (n.lower depth) [{ place := .named, node := n, guards := guards }] :=
    covers_code (Part.isCodeOf_place rfl _ _) (hcode depth)
  have hsize : sizeOf n ≤ sizeOf n := Nat.le_refl _
  obtain ⟨kind, span⟩ := n
  rw [Node.mk.sizeOf_spec] at ih hsize
  cases kind with
  | function form id params body flags =>
    rw [Kind.function.sizeOf_spec] at ih
    cases form with
    | declaration => exact hother
    | arrow =>
      refine covers_part (Settles.keep ?_ fun _ => settles_pure trivial) rfl
      exact settles_function ih hdepth (by omega) (by omega) rfl fun h => h
    | expression =>
      cases id with
      | some id => exact hother
      | none =>
        refine covers_part (Settles.keep ?_ fun _ => settles_pure trivial) rfl
        exact settles_function ih hdepth (by omega) (by omega) rfl fun h => h
  | classLike form id superClass body =>
    rw [Kind.classLike.sizeOf_spec] at ih
    cases form with
    | declaration => exact hother
    | expression =>
      cases id with
      | some id => exact hother
      | none =>
        refine covers_parts hdepth rfl rfl ((covers_lower? ih superClass (by omega) fun _ => 0).bind fun parent => ?_)
        refine Settles.keep ((ih body (by omega)).classBody name depth hdepth) fun parts => ?_
        exact (settles_sourceOf span).keep fun _ => settles_pure trivial
  | _ => exact hother

theorem covers_lowerBody_of_smaller : Covers depth (n.lowerBody depth) [.body n] := by
  have hother : Covers depth (Lower.body [] (pure []) do
      checkNesting depth n.span.position
      checkNesting (depth + 1) n.span.position
      let value ← n.lower (depth + 2)
      pure [.step n.span.position (.sequence [.step n.span.position (.exit (some value))])]) [.body n] := by
    refine covers_code (Part.isCodeOf_place rfl _ _) (settles_inFrame [] ?_)
    refine (settles_pure trivial).then fun _ _ => Settles.keep ?_ fun _ => settles_pure trivial
    refine (settles_checkNesting depth n.span.position).then fun _ _ => ?_
    refine (settles_checkNesting (depth + 1) n.span.position).then fun _ _ => ?_
    refine Settles.keep ((hcode (depth + 2)).mono (fun h => h.mono ?_) id) fun _ => settles_pure trivial
    exact Nat.le_add_right _ 2
  obtain ⟨kind, span⟩ := n
  rw [Node.mk.sizeOf_spec] at ih
  cases kind with
  | blockStatement statements =>
    rw [Kind.blockStatement.sizeOf_spec] at ih
    exact covers_parts hdepth rfl rfl (covers_items (covers_lowerFunctions ih hdepth statements (by omega))
      (covers_lowerStatements ih statements (by omega)))
  | _ => exact hother

omit hcode

theorem covers_lowerPattern_of_smaller (mode : BindingMode) :
    Covers depth (n.lowerPattern mode depth) [.free (.pattern mode) n] := by
  obtain ⟨kind, span⟩ := n
  rw [Node.mk.sizeOf_spec] at ih
  cases kind with
  | identifier name => exact covers_parts hdepth rfl rfl (covers_pure _)
  | assignmentPattern left right =>
    rw [Kind.assignmentPattern.sizeOf_spec] at ih
    exact covers_parts hdepth rfl rfl (covers_assignmentPattern ih hdepth mode (by omega) (by omega) Pattern.withDefault)
  | objectPattern properties =>
    rw [Kind.objectPattern.sizeOf_spec] at ih
    refine covers_parts hdepth rfl rfl ?_
    exact Settles.keep (covers_lowerPatternParts ih hdepth mode properties (by omega)) fun _ =>
      (settles_describe _).keep fun _ => settles_pure trivial
  | arrayPattern elements =>
    rw [Kind.arrayPattern.sizeOf_spec] at ih
    refine covers_parts hdepth rfl rfl ?_
    exact Settles.keep (covers_lowerPatternElements ih hdepth mode elements (by omega)) fun _ =>
      (settles_describe _).keep fun _ => settles_pure trivial
  | memberExpression object property computed optional =>
    rw [Kind.memberExpression.sizeOf_spec] at ih
    cases mode with
    | assign =>
      refine covers_parts hdepth rfl rfl ((((ih object (by omega)).code depth).covers 0).bind fun _ => ?_)
      exact ((ih property (by omega)).key computed depth hdepth).map
    | _ => exact covers_fault List.mem_cons_self rfl _ _ _ rfl
  | _ => exact covers_fault List.mem_cons_self rfl _ _ _ rfl

/-- Apart from a variable that is declared, what a loop over names assigns to is a pattern. -/
theorem covers_lowerTarget_of_smaller (htarget : n.LowersTarget depth) :
    Covers depth (n.lowerTarget depth) [.free .target n] := by
  obtain ⟨kind, span⟩ := n
  rw [Node.mk.sizeOf_spec] at ih
  cases kind with
  | variableDeclaration declarations kind =>
    rw [Kind.variableDeclaration.sizeOf_spec] at ih
    cases declarations with
    | nil => exact covers_fault List.mem_cons_self rfl _ _ _ rfl
    | cons declarator others =>
      obtain ⟨declarator, dspan⟩ := declarator
      rw [List.cons.sizeOf_spec, Node.mk.sizeOf_spec] at ih
      cases declarator with
      | variableDeclarator id init =>
        rw [Kind.variableDeclarator.sizeOf_spec] at ih
        have hpattern (mode : BindingMode) := (ih id (by omega)).pattern mode depth hdepth
        refine covers_parts hdepth rfl rfl ?_
        cases kind with
        | var => exact (settles_forM (settles_declareVar _) _).then fun _ _ => (hpattern .var).map
        | _ => exact (hpattern .lexical).map
      | _ => cases others <;> exact covers_fault List.mem_cons_self rfl _ _ _ rfl
  | identifier name => exact covers_parts hdepth rfl rfl (covers_pure _)
  | assignmentPattern left right =>
    rw [Kind.assignmentPattern.sizeOf_spec] at ih
    exact covers_parts hdepth rfl rfl (covers_assignmentPattern ih hdepth .assign (by omega) (by omega)
      fun inner default => (Pattern.withDefault inner default, ([] : LexicalFrame)))
  | objectPattern properties => exact (Covers.remake htarget).as rfl rfl rfl rfl (Nat.le_refl 0)
  | arrayPattern elements => exact (Covers.remake htarget).as rfl rfl rfl rfl (Nat.le_refl 0)
  | memberExpression object property computed optional =>
    exact (Covers.remake htarget).as rfl rfl rfl rfl (Nat.le_refl 0)
  | _ => exact covers_fault List.mem_cons_self rfl _ _ _ rfl

theorem covers_lowerClassBody_of_smaller (name : String) :
    Covers depth (n.lowerClassBody name depth) [.free .classBody n] := by
  obtain ⟨kind, span⟩ := n
  rw [Node.mk.sizeOf_spec] at ih
  cases kind with
  | classBody members =>
    rw [Kind.classBody.sizeOf_spec] at ih
    exact covers_parts hdepth rfl rfl (covers_lowerMembers ih hdepth name members (by omega))
  | _ => exact covers_fault List.mem_cons_self rfl _ _ _ rfl

end

/-- **Every node is covered by its lowering.** -/
theorem isCovered (n : Node) : n.IsCovered := by
  have ih (m : Node) (hm : sizeOf m < sizeOf n) : m.IsCovered := m.isCovered
  have hkind : sizeOf n.kind ≤ sizeOf n := by
    obtain ⟨kind, span⟩ := n
    rw [Node.mk.sizeOf_spec]
    exact Nat.le_add_right_of_le (Nat.le_add_left _ 1)
  have hinner (h : n.kind.isLink = false) (d : Nat) (hd : d ≤ Lower.maxNesting) : n.kind.Lowers d n.span :=
    n.kind.lowers_of_smaller ih hd n.span hkind h
  have hlink (h : n.kind.isLink) (d : Nat) (hd : d ≤ Lower.maxNesting) : n.kind.Links d n.span :=
    n.kind.links_of_smaller ih hd n.span hkind h
  have hcode (depth : Nat) : n.Lowers depth := lowers_of_kind hinner hlink
  exact {
    code := hcode
    link := fun depth => links_of_kind hinner hlink
    inner := fun depth hdepth h => hinner h depth hdepth
    named := fun depth hdepth => lowersNamed_of_smaller ih hcode hdepth
    body := fun depth hdepth => covers_lowerBody_of_smaller ih hcode hdepth
    key := fun computed depth hdepth => Lowers.key hcode computed hdepth
    pattern := fun mode depth hdepth => covers_lowerPattern_of_smaller ih hdepth mode
    target := fun depth hdepth =>
      covers_lowerTarget_of_smaller ih hdepth (covers_lowerPattern_of_smaller ih hdepth .assign)
    classBody := fun name depth hdepth => covers_lowerClassBody_of_smaller ih hdepth name }
termination_by sizeOf n

end Node

end GuestScript
