import GuestScript.Proofs.Lexical.Outline

/-!
# What lowering does

Lowering a node does to the open bodies what the outline of the node says, and the code that it gives is firm. The code
of every node counts a step first: lowering puts a step in front of every node that is no part of a chain, and in front
of every part that is.

The induction is on the tree, along the functions that lower it; where a node has no case of its own it is refused, and
then neither matters.
-/

namespace GuestScript

/-! ## 1. Initial values -/

namespace Lower

variable {id : Node} {position : Option Position} {α : Type} {x : Lower α} {l : List Outline} {P : α → Prop}

/-- The check for an initial value does nothing to the open bodies. -/
theorem outlined_checkInit (kind : VariableKind) (id : Node) (position : Option Position) :
    Outlined (checkInit kind id position) [] := by
  refine follows_ite ?_ (follows_ite (follows_fault (by decide) _ _) (follows_pure trivial))
  exact (outlined_describe id).then fun _ => follows_fault (by decide) _ _

/-- A `var` without an initial value has a name, and that has no outline. -/
theorem follows_checkInit_var (hx : Follows x l P) :
    Follows (checkInit .var id position >>= fun _ => x) (id.patternOutline ++ l) P := by
  obtain ⟨kind, span⟩ := id
  cases kind with
  | identifier name => exact (follows_pure (a := ()) trivial : Outlined _ _).then fun _ => hx
  | _ => exact fun _ => .inl ⟨_, _, _, by decide, rfl⟩

theorem modeOf_ne (kind : VariableKind) : modeOf kind ≠ .parameter := by
  cases kind <;> nofun

end Lower

/-! ## 2. Trees -/

section

open Lower

-- That only parameters may be left out is a part of `Sets`: the functions that lower a tree call each other, so it would
-- be a hypothesis of all of their lemmas, and only those on patterns use it.
variable {Sets : { f : BindingMode → Prop // ∀ mode, mode ≠ .parameter → f mode }}

mutual

/-- **Lowering a node does to the open bodies what its outline says, and its code is firm and counts a step first.** -/
theorem Node.follows_lower : (n : Node) → (depth : Nat) → Follows (n.lower depth) n.outline (Stepped Sets)
  | .mk kind span, _ => follows_asCode (fun d => kind.follows_lower span [] d) fun d => kind.follows_lowerLink span d

theorem Node.follows_lowerLink : (n : Node) → (depth : Nat) →
    Follows (n.lowerLink depth) n.outline (SteppedLink Sets)
  | .mk kind span, _ => follows_asLink (fun d => kind.follows_lower span [] d) fun d => kind.follows_lowerLink span d

theorem Node.follows_lowerNamed : (n : Node) → (name : String) → (bindsSelf : Bool) → (depth : Nat) →
    Follows (n.lowerNamed name bindsSelf depth) n.outline (Stepped Sets)
  | .mk kind span, name, bindsSelf, depth => by
    have hother : Follows (asCode kind.isLink span.position depth (fun d => kind.lower span [] d)
        fun d => kind.lowerLink span d) kind.outline (Stepped Sets) :=
      follows_asCode (fun d => kind.follows_lower span [] d) fun d => kind.follows_lowerLink span d
    cases kind with
    | function form id params body flags =>
      have hparameters := Node.follows_lowerParameters params depth
      have hbody := body.follows_lowerBody depth
      cases form with
      | declaration => exact hother
      | arrow => exact (follows_template hparameters hbody).map fun t ht => ⟨ht, trivial⟩
      | expression =>
        cases id with
        | some id => exact hother
        | none => exact (follows_template hparameters hbody).map fun t ht => ⟨ht, trivial⟩
    | classLike form id superClass body =>
      cases form with
      | declaration => exact hother
      | expression =>
        cases id with
        | some id => exact hother
        | none =>
          refine (Node.follows_lower? superClass depth).bind fun parent hparent => ?_
          refine (body.follows_lowerClassBody name depth).last fun parts hparts => (outlined_sourceOf _).then fun _ =>
            follows_pure ?_
          exact ⟨⟨hparent, hparts.constructor, hparts.members⟩, trivial⟩
    | _ => exact hother

theorem Node.follows_lowerBody : (n : Node) → (depth : Nat) →
    Follows (n.lowerBody depth) n.bodyOutline (FirmBody Sets)
  | .mk kind span, depth => by
    have hvalue : Follows (asCode kind.isLink span.position (depth + 2) (fun d => kind.lower span [] d)
        fun d => kind.lowerLink span d) kind.outline (Stepped Sets) :=
      follows_asCode (fun d => kind.follows_lower span [] d) fun d => kind.follows_lowerLink span d
    have hother : Follows (Lower.body [] (pure []) do
        checkNesting depth span.position
        checkNesting (depth + 1) span.position
        let value ← asCode kind.isLink span.position (depth + 2) (fun d => kind.lower span [] d)
          fun d => kind.lowerLink span d
        pure [.step span.position (.sequence [.step span.position (.exit (some value))])])
        [.frame [] kind.outline] (FirmBody Sets) :=
      follows_body (follows_pure (P := Template.AllFirm Sets) (a := []) trivial) <|
        (outlined_checkNesting _ _).then fun _ => (outlined_checkNesting _ _).then fun _ =>
          hvalue.map fun _ hvalue => ⟨⟨hvalue.firm, trivial⟩, trivial⟩
    cases kind with
    | blockStatement statements =>
      exact follows_body (Node.follows_lowerFunctions statements depth) (Node.follows_lowerStatements statements depth)
    | _ => exact hother

theorem Node.follows_lower? : (n : Option Node) → (depth : Nat) →
    Follows (Node.lower? n depth) (Node.outline? n) (Code.Firm? Sets)
  | none, _ => follows_pure trivial
  | some n, depth => (n.follows_lower depth).map fun _ hc => hc.firm

theorem Node.follows_lowerAll : (l : List Node) → (depth : Nat) →
    Follows (Node.lowerAll l depth) (Node.outlines l) (Code.AllFirm Sets)
  | [], _ => follows_pure trivial
  | n :: rest, depth =>
    (n.follows_lower depth).bind fun _ hc => (Node.follows_lowerAll rest depth).map fun _ hrest => ⟨hc.firm, hrest⟩

theorem Node.follows_lowerStatements : (l : List Node) → (depth : Nat) →
    Follows (Node.lowerStatements l depth) (Node.outlines l) (Code.AllFirm Sets)
  | [], _ => follows_pure trivial
  | n :: rest, depth => by
    have hrest := Node.follows_lowerStatements rest depth
    have hother : Follows (do
        let c ← n.lower depth
        return c :: (← Node.lowerStatements rest depth)) (n.outline ++ Node.outlines rest) (Code.AllFirm Sets) :=
      (n.follows_lower depth).bind fun _ hc => hrest.map fun _ hrest => ⟨hc.firm, hrest⟩
    obtain ⟨kind, span⟩ := n
    cases kind with
    | function form id params body flags =>
      cases form with
      | declaration => exact hrest
      | _ => exact hother
    | _ => exact hother

theorem Node.follows_lowerFunctions : (l : List Node) → (depth : Nat) →
    Follows (Node.lowerFunctions l depth) (Node.functionOutlines l) (Template.AllFirm Sets)
  | [], _ => follows_pure trivial
  | .mk kind span :: rest, depth => by
    have hrest := Node.follows_lowerFunctions rest depth
    cases kind with
    | function form id params body flags =>
      cases form with
      | declaration =>
        refine (follows_template (Node.follows_lowerParameters params depth) (body.follows_lowerBody depth)).bind
          fun t ht => ?_
        exact hrest.map fun _ hrest => ⟨ht, hrest⟩
      | _ => exact hrest
    | _ => exact hrest

theorem Node.follows_lowerParameters : (l : List Node) → (depth : Nat) →
    Follows (Node.lowerParameters l depth) (Node.patternOutlines l) (Pattern.FirmParameters Sets)
  | [], _ => follows_pure trivial
  | n :: rest, depth => by
    have hrest := Node.follows_lowerParameters rest depth
    have hother : Follows (do
        let p ← n.lowerPattern .parameter depth
        return (p, false) :: (← Node.lowerParameters rest depth)) (n.patternOutline ++ Node.patternOutlines rest)
        (Pattern.FirmParameters Sets) :=
      (n.follows_lowerPattern .parameter depth trivial).bind fun _ hp => hrest.map fun _ hrest => ⟨hp, hrest⟩
    obtain ⟨kind, span⟩ := n
    cases kind with
    | restElement argument =>
      exact (argument.follows_lowerPattern .parameter depth trivial).bind fun _ hp => hrest.map fun _ hrest =>
        ⟨hp, hrest⟩
    | _ => exact hother

theorem Node.follows_lowerArguments : (l : List Node) → (depth : Nat) →
    Follows (Node.lowerArguments l depth) (Node.outlines l) (Code.FirmArguments Sets)
  | [], _ => follows_pure trivial
  | n :: rest, depth => by
    have hrest := Node.follows_lowerArguments rest depth
    have hother : Follows (do
        let c ← n.lower depth
        return (c, false) :: (← Node.lowerArguments rest depth)) (n.outline ++ Node.outlines rest)
        (Code.FirmArguments Sets) :=
      (n.follows_lower depth).bind fun _ hc => hrest.map fun _ hrest => ⟨hc.firm, hrest⟩
    obtain ⟨kind, span⟩ := n
    cases kind with
    | spreadElement argument =>
      exact (argument.follows_lower depth).bind fun _ hc => hrest.map fun _ hrest => ⟨hc.firm, hrest⟩
    | _ => exact hother

theorem Node.follows_lowerElements : (l : List (Option Node)) → (depth : Nat) →
    Follows (Node.lowerElements l depth) (Node.elementOutlines l) (Code.FirmElements Sets)
  | [], _ => follows_pure trivial
  | none :: rest, depth => (Node.follows_lowerElements rest depth).map fun _ hrest => hrest
  | some n :: rest, depth => by
    have hrest := Node.follows_lowerElements rest depth
    have hother : Follows (do
        let c ← n.lower depth
        return some (c, none) :: (← Node.lowerElements rest depth)) (n.outline ++ Node.elementOutlines rest)
        (Code.FirmElements Sets) :=
      (n.follows_lower depth).bind fun _ hc => hrest.map fun _ hrest => ⟨hc.firm, hrest⟩
    obtain ⟨kind, span⟩ := n
    cases kind with
    | spreadElement argument =>
      exact (argument.follows_lower depth).bind fun _ hc => (outlined_describe _).then fun _ => hrest.map
        fun _ hrest => ⟨hc.firm, hrest⟩
    | _ => exact hother

theorem Node.follows_lowerKey : (n : Node) → (computed : Bool) → (depth : Nat) →
    Follows (n.lowerKey computed depth) (n.keyOutline computed) (PropertyName.Firm Sets)
  | .mk kind span, computed, depth => by
    have hother : Follows (do
        return .computed (← asCode kind.isLink span.position depth (fun d => kind.lower span [] d)
          fun d => kind.lowerLink span d)) kind.outline (PropertyName.Firm Sets) :=
      (follows_asCode (fun d => kind.follows_lower span [] d) fun d => kind.follows_lowerLink span d).map
        fun _ hc => hc.firm
    cases computed with
    | true => exact hother
    | false =>
      cases kind with
      | identifier name => exact follows_pure trivial
      | literal value raw regex => exact follows_pure trivial
      | _ => exact hother

theorem Node.follows_lowerProperties : (l : List Node) → (depth : Nat) →
    Follows (Node.lowerProperties l depth) (Node.outlines l) (ObjectPart.AllFirm Sets)
  | [], _ => follows_pure trivial
  | .mk kind span :: rest, depth => by
    have hrest := Node.follows_lowerProperties rest depth
    cases kind with
    | spreadElement argument =>
      exact (argument.follows_lower depth).bind fun _ hc => hrest.map fun _ hrest => ⟨hc.firm, hrest⟩
    | property key value kind method shorthand computed =>
      have hvalue := value.follows_lower depth
      have hpart (part : ObjectPart) (hpart : part.Firm Sets) : Follows (do
          let part ← pure part
          return part :: (← Node.lowerProperties rest depth)) (Node.outlines rest) (ObjectPart.AllFirm Sets) :=
        hrest.map fun _ hrest => ⟨hpart, hrest⟩
      change Follows _ ((key.keyOutline computed ++ value.outline) ++ Node.outlines rest) _
      rw [List.append_assoc]
      refine (key.follows_lowerKey computed depth).bind fun name hname => ?_
      split
      · exact hvalue.bind fun c hc => hpart (.ignored c) hc.firm
      · exact (value.follows_lowerNamed _ false depth).bind fun c hc => hpart (.value name c) ⟨hname, hc.firm⟩
      · exact hvalue.bind fun c hc => hpart (.value name c) ⟨hname, hc.firm⟩
      · exact hvalue.bind fun c hc => hpart (.getter name c) ⟨hname, hc.firm⟩
      · exact hvalue.bind fun c hc => hpart (.setter name c) ⟨hname, hc.firm⟩
    | _ => exact follows_fault (by decide) _ _

theorem Node.follows_lowerPattern : (n : Node) → (mode : BindingMode) → (depth : Nat) →
    {Own : BindingMode → Prop} → Own mode →
      Follows (n.lowerPattern mode depth) n.patternOutline fun p => p.Firm Sets Own
  | .mk kind span, mode, depth, Own, hmode => by
    have hfault (subject : String) : Follows (fault (if mode = .assign then .assignmentType else .paramType) subject
        span.position : Lower Pattern) (Node.mk kind span).patternOutline fun p => p.Firm Sets Own :=
      follows_fault (by split <;> decide) _ _
    cases kind with
    | identifier name => exact follows_pure hmode
    | assignmentPattern left right =>
      refine (left.follows_lowerPattern mode depth hmode).bind fun inner hinner => ?_
      split
      · exact (right.follows_lowerNamed _ _ depth).map fun _ hdefault => ⟨hinner, hdefault.firm⟩
      · exact (right.follows_lower depth).map fun _ hdefault => ⟨hinner, hdefault.firm⟩
    | objectPattern properties =>
      exact (Node.follows_lowerPatternParts properties mode depth hmode).last fun _ hparts =>
        (outlined_describe _).then fun _ => follows_pure hparts
    | arrayPattern elements =>
      exact (Node.follows_lowerPatternElements elements mode depth hmode).last fun _ hitems =>
        (outlined_describe _).then fun _ => follows_pure hitems
    | memberExpression object property computed optional =>
      refine follows_ite ?_ (follows_fault (by decide) _ _)
      exact (object.follows_lower depth).bind fun _ hc => (property.follows_lowerKey computed depth).map fun _ hkey =>
        ⟨hc.firm, hkey⟩
    | _ => exact hfault _

theorem Node.follows_lowerPatternParts : (l : List Node) → (mode : BindingMode) → (depth : Nat) →
    {Own : BindingMode → Prop} → Own mode →
      Follows (Node.lowerPatternParts l mode depth) (Node.partOutlines l) fun parts =>
        PatternPart.AllFirm Sets parts Own
  | [], _, _, _, _ => follows_pure trivial
  | .mk kind span :: rest, mode, depth, Own, hmode => by
    have hrest := Node.follows_lowerPatternParts rest mode depth hmode
    cases kind with
    | property key value kind method shorthand computed =>
      exact (key.follows_lowerKey computed depth).bind fun _ hkey =>
        (value.follows_lowerPattern mode depth hmode).bind fun _ hp => hrest.map fun _ hrest => ⟨hkey, hp, hrest⟩
    | restElement argument =>
      exact (argument.follows_lowerPattern mode depth hmode).bind fun _ hp => hrest.map fun _ hrest => ⟨hp, hrest⟩
    | _ => exact follows_fault (by decide) _ _

theorem Node.follows_lowerPatternElements : (l : List (Option Node)) → (mode : BindingMode) → (depth : Nat) →
    {Own : BindingMode → Prop} → Own mode →
      Follows (Node.lowerPatternElements l mode depth) (Node.patternElementOutlines l) fun items =>
        Pattern.FirmElements Sets items Own
  | [], _, _, _, _ => follows_pure trivial
  | none :: rest, mode, depth, _, hmode =>
    (Node.follows_lowerPatternElements rest mode depth hmode).map fun _ hrest => hrest
  | some n :: rest, mode, depth, Own, hmode => by
    have hrest := Node.follows_lowerPatternElements rest mode depth hmode
    have hother : Follows (do
        let p ← n.lowerPattern mode depth
        return some (p, false) :: (← Node.lowerPatternElements rest mode depth))
        (n.patternOutline ++ Node.patternElementOutlines rest) fun items => Pattern.FirmElements Sets items Own :=
      (n.follows_lowerPattern mode depth hmode).bind fun _ hp => hrest.map fun _ hrest => ⟨hp, hrest⟩
    obtain ⟨kind, span⟩ := n
    cases kind with
    | restElement argument =>
      exact (argument.follows_lowerPattern mode depth hmode).bind fun _ hp => hrest.map fun _ hrest => ⟨hp, hrest⟩
    | _ => exact hother

theorem Node.follows_lowerDeclarators : (l : List Node) → (kind : VariableKind) → (depth : Nat) →
    Follows (Node.lowerDeclarators l kind depth) (Node.declaratorOutlines l kind) (Code.FirmBindings Sets)
  | [], _, _ => follows_pure trivial
  | .mk declarator span :: rest, kind, depth => by
    have hrest := Node.follows_lowerDeclarators rest kind depth
    cases declarator with
    | variableDeclarator id init =>
      have hbinding (value : Option Code) (hvalue : Code.Firm? Sets value) : Follows (do
          let p ← id.lowerPattern (modeOf kind) depth
          return (p, value) :: (← Node.lowerDeclarators rest kind depth))
          (id.patternOutline ++ Node.declaratorOutlines rest kind) (Code.FirmBindings Sets) :=
        (id.follows_lowerPattern (modeOf kind) depth (Sets.2 _ (modeOf_ne kind))).bind fun _ hp =>
          hrest.map fun _ hrest => ⟨hp, hvalue, hrest⟩
      cases init with
      | none =>
        refine follows_declares _ _ ?_
        by_cases hkind : kind = .var
        · subst hkind
          exact follows_checkInit_var hrest
        · refine (outlined_checkInit kind id span.position).then fun _ => ?_
          rw [if_neg hkind]
          exact hbinding none trivial
      | some init =>
        refine follows_declares _ _ ?_
        dsimp only
        split
        · exact (init.follows_lowerNamed _ true depth).bind fun c hc => hbinding (some c) hc.firm
        · exact (init.follows_lower depth).bind fun c hc => hbinding (some c) hc.firm
    | _ => exact follows_fault (by decide) _ _

/-- The frame of each round of a loop over names has the names that its head declares. -/
theorem Node.follows_lowerTarget : (n : Node) → (depth : Nat) →
    Follows (n.lowerTarget depth) n.targetOutline fun target => target.1.Firm Sets Sets ∧ target.2 = n.lexicalNames
  | .mk kind span, depth => by
    cases kind with
    | variableDeclaration declarations kind =>
      cases declarations with
      | nil => exact follows_fault (by decide) _ _
      | cons declarator others =>
        obtain ⟨declarator, dspan⟩ := declarator
        cases declarator with
        | variableDeclarator id init =>
          have hpattern (mode : BindingMode) (hmode : Sets.1 mode) (frame : LexicalFrame) : Follows (do
              let p ← id.lowerPattern mode depth
              pure (p, frame)) id.patternOutline fun target => target.1.Firm Sets Sets ∧ target.2 = frame :=
            (id.follows_lowerPattern mode depth hmode).map fun _ hp => ⟨hp, rfl⟩
          cases kind with
          | var =>
            exact (outlined_declare span.position id.declaredNames).bind fun _ _ => hpattern .var (Sets.2 _ nofun) []
          | «let» | const => exact hpattern .lexical (Sets.2 _ nofun) _
        | _ => exact follows_fault (by decide) _ _
    | identifier name => exact follows_pure ⟨Sets.2 _ nofun, rfl⟩
    | assignmentPattern left right =>
      refine (left.follows_lowerPattern .assign depth (Sets.2 _ nofun)).bind fun inner hinner => ?_
      split
      · exact (right.follows_lowerNamed _ _ depth).map fun _ hdefault => ⟨⟨hinner, hdefault.firm⟩, rfl⟩
      · exact (right.follows_lower depth).map fun _ hdefault => ⟨⟨hinner, hdefault.firm⟩, rfl⟩
    | objectPattern properties =>
      exact (Node.follows_lowerPatternParts properties .assign depth (Sets.2 _ nofun)).last fun _ hparts =>
        (outlined_describe _).then fun _ => follows_pure ⟨hparts, rfl⟩
    | arrayPattern elements =>
      exact (Node.follows_lowerPatternElements elements .assign depth (Sets.2 _ nofun)).last fun _ hitems =>
        (outlined_describe _).then fun _ => follows_pure ⟨hitems, rfl⟩
    | memberExpression object property computed optional =>
      exact (object.follows_lower depth).bind fun _ hc => (property.follows_lowerKey computed depth).map fun _ hkey =>
        ⟨⟨hc.firm, hkey⟩, rfl⟩
    | _ => exact follows_fault (by decide) _ _

theorem Node.follows_lowerCaseFunctions : (l : List Node) → (depth : Nat) →
    Follows (Node.lowerCaseFunctions l depth) (Node.caseFunctionOutlines l) (Template.AllFirm Sets)
  | [], _ => follows_pure trivial
  | .mk kind span :: rest, depth => by
    have hrest := Node.follows_lowerCaseFunctions rest depth
    cases kind with
    | switchCase test consequent =>
      exact (Node.follows_lowerFunctions consequent depth).bind fun _ hfunctions => hrest.map fun _ hrest =>
        firm_append hfunctions hrest
    | _ => exact hrest

theorem Node.follows_lowerCases : (l : List Node) → (depth : Nat) →
    Follows (Node.lowerCases l depth) (Node.caseOutlines l) fun cases =>
      Code.AllFirm Sets (cases.map Prod.fst) ∧ Code.AllFirm Sets (cases.map Prod.snd)
  | [], _ => follows_pure ⟨trivial, trivial⟩
  | .mk kind span :: rest, depth => by
    have hrest := Node.follows_lowerCases rest depth
    cases kind with
    | switchCase test consequent =>
      refine (outlined_checkNesting _ _).then fun _ => (Node.follows_lower? test (depth + 1)).bind fun t ht => ?_
      refine (Node.follows_lowerStatements consequent depth).bind fun statements hstatements => ?_
      refine hrest.map fun cases hcases => ⟨⟨?_, hcases.1⟩, hstatements, hcases.2⟩
      cases t with
      | none => exact trivial
      | some c => exact ht
    | _ => exact follows_fault (by decide) _ _

theorem Node.follows_lowerHandler? : (n : Option Node) → (depth : Nat) →
    Follows (Node.lowerHandler? n depth) (Node.outline? n) (Code.FirmHandler Sets)
  | none, _ => follows_pure trivial
  | some (.mk kind span), depth => by
    cases kind with
    | catchClause param body =>
      have hbody := body.follows_lower depth
      cases param with
      | none => exact hbody.map fun _ hc => hc.firm
      | some param =>
        exact (param.follows_lowerPattern .parameter depth trivial).bind fun _ hp => hbody.map fun _ hc =>
          ⟨hp, hc.firm⟩
    | _ => exact follows_fault (by decide) _ _

theorem Node.follows_lowerClassBody : (n : Node) → (name : String) → (depth : Nat) →
    Follows (n.lowerClassBody name depth) n.outline (FirmClass Sets)
  | .mk kind span, name, depth => by
    cases kind with
    | classBody members => exact Node.follows_lowerMembers members name depth
    | _ => exact follows_fault (by decide) _ _

theorem Node.follows_lowerMembers : (l : List Node) → (name : String) → (depth : Nat) →
    Follows (Node.lowerMembers l name depth) (Node.outlines l) (FirmClass Sets)
  | [], _, _ => follows_pure ⟨trivial, trivial⟩
  | .mk kind span :: rest, name, depth => by
    have hrest := Node.follows_lowerMembers rest name depth
    cases kind with
    | methodDefinition key value kind computed isStatic =>
      obtain ⟨value, vspan⟩ := value
      cases value with
      | function form id params body flags =>
        have hparameters := Node.follows_lowerParameters params depth
        have hbody := body.follows_lowerBody depth
        cases form with
        | expression =>
          cases kind with
          | constructor =>
            refine (follows_template hparameters hbody).bind fun t ht => hrest.last fun parts hparts => ?_
            obtain ⟨later, members⟩ := parts
            refine follows_pure ⟨?_, hparts.members⟩
            cases later with
            | none => exact ht
            | some t' => exact hparts.constructor
          | method =>
            change Follows _ ((key.keyOutline computed ++ _) ++ Node.outlines rest) _
            rw [List.append_assoc]
            refine (key.follows_lowerKey computed depth).bind fun key hkey => ?_
            refine (follows_template hparameters hbody).bind fun t ht => hrest.last fun parts hparts => ?_
            exact follows_pure ⟨hparts.constructor, hkey, ht, hparts.members⟩
          | get | set => exact hrest.last fun parts hparts => follows_pure ⟨hparts.constructor, hparts.members⟩
        | _ => exact follows_fault (by decide) _ _
      | _ => exact follows_fault (by decide) _ _
    | propertyDefinition key value computed isStatic =>
      have hkey := key.follows_lowerKey computed depth
      change Follows _ ((key.keyOutline computed ++ _) ++ Node.outlines rest) _
      rw [List.append_assoc]
      cases value with
      | none =>
        exact hkey.bind fun key hkey => hrest.last fun parts hparts =>
          follows_pure ⟨hparts.constructor, hkey, trivial, hparts.members⟩
      | some value =>
        refine hkey.bind fun key hkey => ?_
        have hlast (isArrow : Bool) (init : Code) (hinit : Stepped Sets init) : Follows (do
            let (constructor, members) ← Node.lowerMembers rest name depth
            pure (constructor, .field key (some init) isArrow isStatic :: members)) (Node.outlines rest)
            (FirmClass Sets) :=
          hrest.last fun parts hparts => follows_pure ⟨hparts.constructor, hkey, hinit.firm, hparts.members⟩
        dsimp only
        split
        · exact (value.follows_lowerNamed _ false depth).bind (hlast _)
        · exact (value.follows_lower depth).bind (hlast _)
    | _ => exact follows_fault (by decide) _ _

theorem Kind.follows_lowerLink : (kind : Kind) → (span : Span) → (depth : Nat) →
    Follows (kind.lowerLink span depth) kind.outline (SteppedLink Sets)
  | kind, span, depth => by
    cases kind with
    | chainExpression expression => exact (expression.follows_lowerLink depth).map fun _ hlink => ⟨hlink.firm, trivial⟩
    | memberExpression object property computed optional =>
      refine (property.follows_lowerKey computed depth).bind fun key hkey => ?_
      have hobject := object.follows_lowerLink depth
      obtain ⟨kind, ospan⟩ := object
      cases kind with
      | «super» => exact follows_pure ⟨hkey, trivial⟩
      | _ => exact hobject.map fun _ hlink => ⟨⟨hlink.firm, hkey⟩, trivial⟩
    | callExpression callee arguments optional =>
      have hcallee := callee.follows_lowerLink depth
      refine (Node.follows_lowerArguments arguments depth).bind fun args hargs =>
        (outlined_describe _).then fun label => ?_
      obtain ⟨kind, cspan⟩ := callee
      cases kind with
      | «super» => exact follows_pure ⟨hargs, trivial⟩
      | identifier name =>
        change Follows (if name == "eval" || name == "arguments" then _ else _)
          (if name == "eval" || name == "arguments" then [.note] else []) _
        split
        · exact outlined_noteArguments.map fun _ _ => ⟨hargs, trivial⟩
        · exact follows_pure ⟨hargs, trivial⟩
      | _ => exact hcallee.map fun _ hlink => ⟨⟨hlink.firm, hargs⟩, trivial⟩
    | _ => exact follows_fault (by decide) _ _

theorem Kind.follows_lower : (kind : Kind) → (span : Span) → (labels : List String) → (depth : Nat) →
    Follows (kind.lower span labels depth) kind.outline (Code.Firm Sets)
  | kind, span, labels, depth => by
    cases kind with
    | program body => exact (Node.follows_lowerStatements body depth).map fun _ hc => hc
    | expressionStatement expression directive => exact (expression.follows_lower depth).map fun _ hc => hc.firm
    | blockStatement statements =>
      exact (follows_body (Node.follows_lowerFunctions statements depth)
        (Node.follows_lowerStatements statements depth)).map fun _ hbody => ⟨hbody.functions, hbody.code⟩
    | emptyStatement | debuggerStatement | breakStatement | continueStatement => exact follows_pure trivial
    | withStatement object body =>
      exact (object.follows_lower depth).bind fun _ ho => (body.follows_lower depth).map fun _ hb => ⟨ho.firm, hb.firm⟩
    | returnStatement argument => exact (Node.follows_lower? argument depth).map fun _ hc => hc
    | labeledStatement label body =>
      obtain ⟨kind, bspan⟩ := body
      have hinner (labels : List String) := kind.follows_lower bspan labels depth
      have hlabeled (body : Code) (hbody : body.Firm Sets) :
          Follows (pure (.labeled (label.name?.getD "") body) : Lower Code) [] (Code.Firm Sets) := follows_pure hbody
      refine follows_ite ((hinner _).last hlabeled) (follows_ite ?_ ?_)
      · exact (hinner _).last fun c hc =>
          (follows_pure (a := Code.step bspan.position c) (P := Code.Firm Sets) hc).bind hlabeled
      · exact (follows_asCode (fun d => kind.follows_lower bspan [] d) fun d => kind.follows_lowerLink bspan d).last
          fun c hc => hlabeled c hc.firm
    | ifStatement test consequent alternate =>
      exact (test.follows_lower depth).bind fun _ ht => (consequent.follows_lower depth).bind fun _ hc =>
        (Node.follows_lower? alternate depth).map fun _ ha => ⟨ht.firm, hc.firm, ha⟩
    | switchStatement discriminant cases =>
      refine (discriminant.follows_lower depth).bind fun d hd => follows_inFrame _ ?_
      exact (Node.follows_lowerCaseFunctions cases depth).bind fun _ hf => (Node.follows_lowerCases cases depth).map
        fun _ hcases => ⟨hd.firm, firm_keepLast hf, hcases.1, hcases.2⟩
    | switchCase test consequent =>
      refine (Node.follows_lower? test depth).map fun c hc => ?_
      cases c with
      | none => exact trivial
      | some c => exact hc
    | throwStatement argument => exact (argument.follows_lower depth).map fun _ hc => hc.firm
    | tryStatement block handler finalizer =>
      exact (block.follows_lower depth).bind fun _ hb => (Node.follows_lowerHandler? handler depth).bind fun _ hh =>
        (Node.follows_lower? finalizer depth).map fun _ hf => ⟨hb.firm, hh, hf⟩
    | whileStatement test body =>
      exact (test.follows_lower depth).bind fun _ ht => (body.follows_lower depth).map fun _ hb =>
        ⟨ht.firm, hb.firm, hb.counts⟩
    | doWhileStatement body test =>
      exact (body.follows_lower depth).bind fun _ hb => (test.follows_lower depth).map fun _ ht =>
        ⟨hb.firm, ht.firm, hb.counts⟩
    | forStatement init test update body =>
      refine follows_inFrame (Node.headFrame init) ((Node.follows_lower? init depth).bind fun i hi => ?_)
      exact (Node.follows_lower? test depth).bind fun _ ht => (Node.follows_lower? update depth).bind fun _ hu =>
        (body.follows_lower depth).map fun _ hb => ⟨hi, ht, hu, hb.firm, hb.counts⟩
    | forInStatement left right body =>
      refine (right.follows_lower depth).bind fun o ho => (left.follows_lowerTarget depth).bind fun target htarget => ?_
      obtain ⟨pattern, frame⟩ := target
      obtain ⟨htarget, rfl⟩ := htarget
      exact follows_inFrame _ ((body.follows_lower depth).map fun _ hb => ⟨htarget, ho.firm, hb.firm⟩)
    | function form id params body flags =>
      have hparameters := Node.follows_lowerParameters params depth
      have hbody := body.follows_lowerBody depth
      cases form with
      | declaration => exact follows_pure trivial
      | _ => exact (follows_template hparameters hbody).map fun _ ht => ht
    | variableDeclaration declarations kind =>
      exact (Node.follows_lowerDeclarators declarations kind depth).map fun _ hbindings => hbindings
    | classLike form id superClass body =>
      refine (Node.follows_lower? superClass depth).bind fun parent hparent => ?_
      refine (body.follows_lowerClassBody _ depth).last fun parts hparts => (outlined_sourceOf _).then fun source => ?_
      cases form with
      | _ => exact follows_pure ⟨hparent, hparts.constructor, hparts.members⟩
    | identifier name =>
      change Follows (if name == "arguments" then _ else _) (if name == "arguments" then [.note] else []) _
      split
      · exact outlined_noteArguments.map fun _ _ => trivial
      · exact follows_pure trivial
    | literal value raw regex =>
      cases regex with
      | _ => exact follows_pure trivial
    | thisExpression | super => exact follows_pure trivial
    | arrayExpression elements => exact (Node.follows_lowerElements elements depth).map fun _ helements => helements
    | objectExpression properties => exact (Node.follows_lowerProperties properties depth).map fun _ hparts => hparts
    | unaryExpression operator isPrefix argument =>
      obtain ⟨kind, aspan⟩ := argument
      have hother : Follows (do
          let a ← asCode kind.isLink aspan.position depth (fun d => kind.lower aspan [] d)
            fun d => kind.lowerLink aspan d
          pure (.unary operator a span.position)) kind.outline (Code.Firm Sets) :=
        (follows_asCode (fun d => kind.follows_lower aspan [] d) fun d => kind.follows_lowerLink aspan d).map
          fun _ hc => hc.firm
      cases operator with
      | typeOf =>
        cases kind with
        | identifier name => exact follows_pure trivial
        | _ => exact hother
      | delete =>
        cases kind with
        | identifier name => exact follows_pure trivial
        | memberExpression object property computed optional =>
          exact (object.follows_lower depth).bind fun _ ho => (property.follows_lowerKey computed depth).map
            fun _ hkey => ⟨ho.firm, hkey⟩
        | _ => exact hother
      | other text => exact follows_fault (by decide) _ _
      | _ => exact hother
    | updateExpression operator isPrefix argument =>
      obtain ⟨kind, aspan⟩ := argument
      cases operator with
      | other text => exact follows_fault (by decide) _ _
      | _ =>
        cases kind with
        | identifier name => exact follows_pure trivial
        | memberExpression object property computed optional =>
          exact (object.follows_lower depth).bind fun _ ho => (property.follows_lowerKey computed depth).map
            fun _ hkey => ⟨ho.firm, hkey⟩
        | _ => exact follows_fault (by decide) _ _
    | binaryExpression operator left right =>
      have hparts : Follows (do
          let l ← left.lower depth
          let r ← right.lower depth
          pure (.binary operator l r)) (left.outline ++ right.outline) (Code.Firm Sets) :=
        (left.follows_lower depth).bind fun _ hl => (right.follows_lower depth).map fun _ hr => ⟨hl.firm, hr.firm⟩
      cases operator with
      | other text => exact follows_fault (by decide) _ _
      | _ => exact hparts
    | logicalExpression operator left right =>
      have hparts : Follows (do
          let l ← left.lower depth
          let r ← right.lower depth
          pure (.logical operator l r)) (left.outline ++ right.outline) (Code.Firm Sets) :=
        (left.follows_lower depth).bind fun _ hl => (right.follows_lower depth).map fun _ hr => ⟨hl.firm, hr.firm⟩
      cases operator with
      | other text => exact follows_fault (by decide) _ _
      | _ => exact hparts
    | assignmentExpression operator left right =>
      obtain ⟨kind, lspan⟩ := left
      have hright := right.follows_lower depth
      cases kind with
      | identifier name =>
        have hassign : Follows (do
            let v ← right.lowerNamed name true depth
            pure (.assignName operator name v span.position)) right.outline (Code.Firm Sets) :=
          (right.follows_lowerNamed name true depth).map fun _ hv => hv.firm
        cases operator with
        | other text => exact follows_fault (by decide) _ _
        | _ => exact hassign
      | memberExpression object property computed optional =>
        have hassign : Follows (do
            let o ← object.lower depth
            let key ← property.lowerKey computed depth
            let v ← right.lower depth
            pure (.assignMember operator o key v span.position))
            ((object.outline ++ property.keyOutline computed) ++ right.outline) (Code.Firm Sets) := by
          rw [List.append_assoc]
          exact (object.follows_lower depth).bind fun _ ho => (property.follows_lowerKey computed depth).bind
            fun _ hkey => hright.map fun _ hv => ⟨ho.firm, hkey, hv.firm⟩
        cases operator with
        | other text => exact follows_fault (by decide) _ _
        | _ => exact hassign
      | objectPattern properties =>
        have hassign : Follows (do
            let parts ← Node.lowerPatternParts properties .assign depth
            let label ← describe (.mk (.objectPattern properties) lspan)
            let v ← right.lower depth
            pure (.assignPattern (.object parts label) v)) (Node.partOutlines properties ++ right.outline)
            (Code.Firm Sets) :=
          (Node.follows_lowerPatternParts properties .assign depth (Sets.2 _ nofun)).bind fun _ hparts =>
            (outlined_describe _).then fun _ => hright.map fun _ hv => ⟨hparts, hv.firm⟩
        cases operator with
        | plain => exact hassign
        | _ => exact follows_fault (by decide) _ _
      | arrayPattern elements =>
        have hassign : Follows (do
            let items ← Node.lowerPatternElements elements .assign depth
            let label ← describe (.mk (.arrayPattern elements) lspan)
            let v ← right.lower depth
            pure (.assignPattern (.array items label) v)) (Node.patternElementOutlines elements ++ right.outline)
            (Code.Firm Sets) :=
          (Node.follows_lowerPatternElements elements .assign depth (Sets.2 _ nofun)).bind fun _ hitems =>
            (outlined_describe _).then fun _ => hright.map fun _ hv => ⟨hitems, hv.firm⟩
        cases operator with
        | plain => exact hassign
        | _ => exact follows_fault (by decide) _ _
      | _ => exact follows_no_target rfl rfl
    | conditionalExpression test consequent alternate =>
      exact (test.follows_lower depth).bind fun _ ht => (consequent.follows_lower depth).bind fun _ hc =>
        (alternate.follows_lower depth).map fun _ ha => ⟨ht.firm, hc.firm, ha.firm⟩
    | newExpression callee arguments =>
      exact (outlined_describe _).then fun _ => (callee.follows_lower depth).bind fun _ hc =>
        (Node.follows_lowerArguments arguments depth).map fun _ hargs => ⟨hc.firm, hargs⟩
    | sequenceExpression expressions | templateLiteral _ expressions =>
      exact (Node.follows_lowerAll expressions depth).map fun _ hc => hc
    | taggedTemplateExpression tag quasi =>
      obtain ⟨kind, qspan⟩ := quasi
      cases kind with
      | templateLiteral quasis expressions =>
        exact (outlined_describe _).then fun _ => (tag.follows_lowerLink depth).bind fun _ ht =>
          (Node.follows_lowerAll expressions depth).map fun _ hc => ⟨ht.firm, hc⟩
      | _ => exact follows_fault (by decide) _ _
    | _ => exact follows_fault (by decide) _ _

end

end

/-! ## 3. Programs -/

open Lower in
theorem Node.follows_lowerProgram (n : Node) (Sets : { f : BindingMode → Prop // ∀ mode, mode ≠ .parameter → f mode }) :
    Follows n.lowerProgram n.programOutline (Program.Firm Sets) := by
  refine Follows.last (P := FirmBody Sets)
    (follows_body (Node.follows_lowerFunctions _ 0) (Node.follows_lowerStatements _ 0)) fun body hbody => ?_
  exact fun s => ⟨⟨hbody.functions, hbody.code⟩, rfl⟩

/-- **Every program that a tree is lowered to is firm**: its declarations and assignments set no name in the current
scope itself. -/
theorem Program.firm_ofTree {Sets : BindingMode → Prop} (hsets : ∀ mode, mode ≠ .parameter → Sets mode) {n : Node}
    {source : Option String} {p : Program} (h : Program.ofTree n source = .ok p) : p.Firm Sets := by
  unfold ofTree at h
  split at h
  · rename_i hr
    cases h
    exact (n.follows_lowerProgram ⟨Sets, hsets⟩).gives _ _ _ hr
  · cases h

end GuestScript
