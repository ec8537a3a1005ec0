import GuestScript.Proofs.Span.Statement
import GuestScript.Proofs.Lowered

/-!
# Placed trees are lowered to placed code

The code of a placed tree is placed: every jump keeps the constructs around it that take its signal, and every lexical
declaration is lowered together with the frame that has its names.

The induction is on the tree, along the functions that lower it. A node gives code from which only those signals escape
that are taken around the node. Where it is lowered for some labels, a loop takes the jumps to these, too, and that does
not come from the tree; so it is shown apart (`Kind.takes_lower`).
-/

namespace GuestScript

open Signal

/-! ## 1. Names and signals -/

section

variable {Taken : Signal → Prop} {names : List String}

theorem LexicalFrame.names_map (l : List String) (kind : LexicalKind) :
    LexicalFrame.names (l.map fun name => (name, kind)) = l := by
  simp [LexicalFrame.names, Function.comp_def]

/-- The names of a declaration are in the frame of the list that it stands in. -/
theorem Node.mem_lexicalFrame {l : List Node} {n : Node} (hn : n ∈ l) {name : String}
    (h : name ∈ n.lexicalNames.names) : name ∈ (lexicalFrame l).names := by
  obtain ⟨entry, hentry, rfl⟩ := List.mem_map.mp h
  exact List.mem_map.mpr ⟨entry, List.mem_flatMap.mpr ⟨n, hn, hentry⟩, rfl⟩

theorem Node.names_variableDeclaration {declarations : List Node} {kind : VariableKind} (hkind : kind ≠ .var)
    {span : Span} : (Node.mk (.variableDeclaration declarations kind) span).lexicalNames.names =
      declarations.flatMap Node.declaratorNames := by
  cases kind with
  | var => exact absurd rfl hkind
  | «let» | const => exact LexicalFrame.names_map _ _

/-- A class declaration declares the name that it has. -/
theorem Node.mem_names_classLike {id superClass : Option Node} {body : Node} {span : Span} {name : String}
    (hname : name ∈ Lower.nameOf? id) :
    name ∈ (Node.mk (.classLike .declaration id superClass body) span).lexicalNames.names := by
  cases id with
  | none => cases hname
  | some id =>
    simp only [Lower.nameOf?, Option.bind_some, Option.mem_def] at hname
    simp [Node.lexicalNames, Node.kind, LexicalFrame.names, hname]

/-- A node that is placed where no lexical declaration may stand declares no lexical name. -/
theorem Node.Placed.mem_of_lexicalNames {n : Node} (h : n.Placed false Taken) :
    ∀ name ∈ n.lexicalNames.names, name ∈ names := by
  obtain ⟨kind, span⟩ := n
  cases kind with
  | variableDeclaration declarations kind =>
    cases kind with
    | var => exact nofun
    | «let» | const => exact absurd h.1 (by decide)
  | classLike form id superClass body =>
    cases form with
    | expression => exact nofun
    | declaration => exact absurd (h.1 rfl) (by decide)
  | _ => exact nofun

/-- What a loop does not take is taken around it. -/
theorem Signal.taken_of_inLoop {labels : List String} {s : Signal} (hs : ¬ s.takenByLoop labels)
    (h : InLoop Taken s) : Taken s := by
  rcases h with rfl | rfl | h
  · exact absurd trivial hs
  · exact absurd trivial hs
  · exact h

end

namespace Lower

variable {α : Type} {P Q : α → Prop} {x : Lower α}

theorem Gives.and (hp : Gives x P) (hq : Gives x Q) : Gives x fun a => P a ∧ Q a :=
  fun s a s' hr => ⟨hp s a s' hr, hq s a s' hr⟩

end Lower

/-! ## 2. What the parts are put together to -/

section

variable {Body : Template → Prop} {names : List String} {Taken : Signal → Prop}

/-- Code that is placed, and from which only those signals escape that are taken. -/
structure Code.Fits (Body : Template → Prop) (names : List String) (Taken : Signal → Prop) (c : Code) : Prop where
  placed : c.Placed Body names
  escapes : ∀ s, c.Escapes s → Taken s

/-- Several pieces of code of this kind. -/
structure Code.AllFit (Body : Template → Prop) (names : List String) (Taken : Signal → Prop) (l : List Code) :
    Prop where
  placed : Code.AllPlaced Body l names
  escapes : ∀ s, Code.AnyEscapes l s → Taken s

/-- Code from which nothing escapes may stand where a value is wanted. -/
theorem Code.Fits.value {c : Code} (h : c.Fits Body [] Nowhere) : c.Placed Body [] ∧ c.Quiet :=
  ⟨h.placed, h.escapes⟩

theorem Code.AllFit.nil : Code.AllFit Body names Taken [] :=
  ⟨trivial, fun _ h => h.elim⟩

theorem Code.AllFit.cons {c : Code} {l : List Code} (hc : c.Fits Body names Taken)
    (hl : Code.AllFit Body names Taken l) : Code.AllFit Body names Taken (c :: l) :=
  ⟨⟨hc.placed, hl.placed⟩, fun s hs => hs.elim (hc.escapes s) (hl.escapes s)⟩

theorem Template.allPlaced_append : ∀ {l l' : List (String × Template)}, Template.AllPlaced Body l →
    Template.AllPlaced Body l' → Template.AllPlaced Body (l ++ l')
  | [], _, _, h' => h'
  | (_, _) :: _, _, h, h' => ⟨h.1, allPlaced_append h.2 h'⟩

namespace Lower

/-- The functions of a body are placed, and its code fits, with the names of the body's own frame. -/
structure PlacedBody (Body : Template → Prop) (Taken : Signal → Prop)
    (body : LexicalFrame × List (String × Template) × Code) : Prop where
  functions : Template.AllPlaced Body body.2.1
  code : body.2.2.Fits Body body.1.names Taken

/-- The constructor and the members of a class are placed. -/
structure PlacedClass (Body : Template → Prop) (parts : Option Template × List ClassMember) : Prop where
  constructor : Template.Placed? Body parts.1
  members : ClassMember.AllPlaced Body parts.2

section

variable {isLink : Bool} {position : Option Position} {depth : Nat} {inner : Nat → Lower Code}
  {link : Nat → Lower Link}

theorem fits_asCode (hinner : ∀ d, Gives (inner d) (Code.Fits Body names Taken))
    (hlink : ∀ d, Gives (link d) (Link.Placed Body)) :
    Gives (asCode isLink position depth inner link) (Code.Fits Body names Taken) := by
  refine gives_bind fun _ => gives_ite (gives_bind fun _ => ?_) ?_
  · exact (hlink _).bind fun l hl => gives_pure ⟨hl, fun _ h => h.elim⟩
  · exact (hinner _).bind fun c hc => gives_pure ⟨hc.placed, hc.escapes⟩

theorem placed_asLink (hinner : ∀ d, Gives (inner d) (Code.Fits Body [] Nowhere))
    (hlink : ∀ d, Gives (link d) (Link.Placed Body)) :
    Gives (asLink isLink position depth inner link) (Link.Placed Body) := by
  refine gives_bind fun _ => gives_ite (hlink _) (gives_bind fun _ => ?_)
  exact (hinner _).bind fun c hc => gives_pure hc.value

end

theorem placed_keepLast : ∀ {l : List (String × Template)}, Template.AllPlaced Body l →
    Template.AllPlaced Body (keepLast l)
  | [], h => h
  | (name, t) :: rest, h => by
    have hrest := placed_keepLast h.2
    simp only [keepLast]
    split
    · exact hrest
    · exact ⟨h.1, hrest⟩

theorem placed_body {frame : LexicalFrame} {functions : Lower (List (String × Template))}
    {statements : Lower (List Code)} (hfunctions : Gives functions (Template.AllPlaced Body))
    (hstatements : Gives statements (Code.AllFit Body frame.names Taken)) :
    Gives (body frame functions statements) fun body => body.1 = frame ∧ PlacedBody Body Taken body :=
  gives_inFrame frame <| hfunctions.bind fun _ hf => hstatements.bind fun _ hs =>
    gives_pure ⟨rfl, placed_keepLast hf, hs.placed, fun s h => hs.escapes s h.2⟩

/-- A function whose body fits has no jump out of its body. -/
theorem placed_template (hquiet : ∀ t : Template, t.body.Quiet → Body t) {kindName : String} {span : Span}
    {flags : FunctionFlags} {arity : Nat} {name : String} {bindsSelf isArrow : Bool}
    {parameters : Lower (List (Pattern × Bool))}
    {functionBody : Lower (LexicalFrame × List (String × Template) × Code)}
    (hparameters : Gives parameters (Pattern.ParametersPlaced Body))
    (hbody : Gives functionBody (PlacedBody Body Nowhere)) :
    Gives (template kindName span flags arity name bindsSelf isArrow parameters functionBody)
      (Template.Placed Body) := by
  refine gives_ite (gives_fault _ _ _) ?_
  refine (gives_inBody (P := fun parts => Pattern.ParametersPlaced Body (Prod.fst parts) ∧
    PlacedBody Body Nowhere (Prod.snd parts)) isArrow ?_).bind fun result hresult => gives_bind fun _ => gives_pure ?_
  · exact hparameters.bind fun _ hp => hbody.bind fun _ hb => gives_pure ⟨hp, hb⟩
  · have hcode := hresult.2.code.escapes
    exact ⟨hresult.1, ⟨hresult.2.code.placed, hcode⟩, hresult.2.functions, hquiet _ hcode⟩

end Lower

end

/-! ## 3. Trees -/

/-- Whether a node is a declaration of variables. -/
def Kind.isVariables : Kind → Bool
  | .variableDeclaration _ _ => true
  | _ => false

section

open Lower

variable {Body : Template → Prop}

/-- A loop takes the jumps to its next round that name one of its labels. -/
theorem Kind.takes_lower {kind : Kind} (hloop : kind.isLoop = true) (span : Span) (labels : List String) (depth : Nat) :
    Gives (kind.lower span labels depth) fun c => ∀ s, c.Escapes s → ∀ label ∈ labels, s ≠ .on (some label) := by
  have htaken {body : Code} {s : Signal} (h : ¬ s.takenByLoop labels ∧ body.Escapes s) :
      ∀ label ∈ labels, s ≠ .on (some label) := by
    rintro label hlabel rfl
    exact h.1 hlabel
  cases kind with
  | whileStatement test body =>
    exact gives_bind fun _ => gives_bind fun _ => gives_pure fun s h => htaken h
  | doWhileStatement body test =>
    exact gives_bind fun _ => gives_bind fun _ => gives_pure fun s h => htaken h
  | forStatement init test update body =>
    refine gives_inFrame _ ?_
    exact gives_bind fun _ => gives_bind fun _ => gives_bind fun _ => gives_bind fun _ => gives_pure fun s h => htaken h
  | forInStatement left right body =>
    refine gives_bind fun _ => gives_bind fun _ => gives_inFrame _ ?_
    exact gives_bind fun _ => gives_pure fun s h => htaken h
  | _ => cases hloop

variable (hquiet : ∀ t : Template, t.body.Quiet → Body t)

include hquiet

set_option linter.unusedSectionVars false in
mutual

/-- **The code of a placed node is placed**, and from it only those signals escape that are taken around the node. -/
theorem Node.fits_lower : (n : Node) → (depth : Nat) → {Taken : Signal → Prop} → {names : List String} →
    n.Placed false Taken → Gives (n.lower depth) (Code.Fits Body names Taken)
  | .mk kind span, _, _, _, h =>
    fits_asCode (fun d => kind.fits_lower span [] d h (Node.Placed.mem_of_lexicalNames (n := .mk kind span) h))
      fun d => kind.placed_lowerLink span d h

/-- A node that stands where a value is wanted. -/
theorem Node.fits_lowerValue : (n : Node) → (depth : Nat) → n.IsPlaced →
    Gives (n.lower depth) (Code.Fits Body [] Nowhere)
  | .mk kind span, _, h =>
    fits_asCode (fun d => kind.fits_lower span [] d h (Node.Placed.mem_of_lexicalNames (n := .mk kind span) h))
      fun d => kind.placed_lowerLink span d h

/-- An item of a list of statements, in a scope that declares its names. -/
theorem Node.fits_lowerItem : (n : Node) → (depth : Nat) → {Taken : Signal → Prop} → {names : List String} →
    n.Placed true Taken → (∀ name ∈ n.lexicalNames.names, name ∈ names) →
    Gives (n.lower depth) (Code.Fits Body names Taken)
  | .mk kind span, _, _, _, h, hnames =>
    fits_asCode (fun d => kind.fits_lower span [] d h hnames) fun d => kind.placed_lowerLink span d h

theorem Node.placed_lowerLink : (n : Node) → (depth : Nat) → n.IsPlaced → Gives (n.lowerLink depth) (Link.Placed Body)
  | .mk kind span, _, h =>
    placed_asLink (fun d => kind.fits_lower span [] d h (Node.Placed.mem_of_lexicalNames (n := .mk kind span) h))
      fun d => kind.placed_lowerLink span d h

theorem Node.fits_lowerNamed : (n : Node) → (name : String) → (bindsSelf : Bool) → (depth : Nat) → n.IsPlaced →
    Gives (n.lowerNamed name bindsSelf depth) (Code.Fits Body [] Nowhere)
  | .mk kind span, name, bindsSelf, depth, h => by
    have hother : Gives (asCode kind.isLink span.position depth (fun d => kind.lower span [] d)
        fun d => kind.lowerLink span d) (Code.Fits Body [] Nowhere) :=
      fits_asCode (fun d => kind.fits_lower span [] d h (Node.Placed.mem_of_lexicalNames (n := .mk kind span) h))
        fun d => kind.placed_lowerLink span d h
    have hfunction {t : Template} (ht : t.Placed Body) : (Code.step span.position (.function t)).Fits Body [] Nowhere :=
      ⟨ht, fun _ h => h.elim⟩
    cases kind with
    | function form id params body flags =>
      have hparameters := Node.placed_lowerParameters params depth h.1
      have hbody := body.placed_lowerBody depth h.2
      cases form with
      | declaration => exact hother
      | arrow => exact (placed_template hquiet hparameters hbody).bind fun t ht => gives_pure (hfunction ht)
      | expression =>
        cases id with
        | some id => exact hother
        | none => exact (placed_template hquiet hparameters hbody).bind fun t ht => gives_pure (hfunction ht)
    | classLike form id superClass body =>
      cases form with
      | declaration => exact hother
      | expression =>
        cases id with
        | some id => exact hother
        | none =>
          refine (Node.value_lower? superClass depth h.2.1).bind fun parent hparent => ?_
          refine (body.placed_lowerClassBody name depth h.2.2).bind fun parts hparts => gives_bind fun source => ?_
          exact gives_pure ⟨⟨hparent, hparts.constructor, hparts.members⟩, fun _ h => h.elim⟩
    | _ => exact hother

theorem Node.placed_lowerBody : (n : Node) → (depth : Nat) → n.IsPlaced →
    Gives (n.lowerBody depth) (PlacedBody Body Nowhere)
  | .mk kind span, depth, h => by
    have hvalue : Gives (asCode kind.isLink span.position (depth + 2) (fun d => kind.lower span [] d)
        fun d => kind.lowerLink span d) (Code.Fits Body [] Nowhere) :=
      fits_asCode (fun d => kind.fits_lower span [] d h (Node.Placed.mem_of_lexicalNames (n := .mk kind span) h))
        fun d => kind.placed_lowerLink span d h
    have hother : Gives (Lower.body [] (pure []) do
        checkNesting depth span.position
        checkNesting (depth + 1) span.position
        let value ← asCode kind.isLink span.position (depth + 2) (fun d => kind.lower span [] d)
          fun d => kind.lowerLink span d
        pure [.step span.position (.sequence [.step span.position (.exit (some value))])])
        (PlacedBody Body Nowhere) := by
      refine (placed_body (gives_pure (a := []) (P := Template.AllPlaced Body) trivial) ?_).mono fun _ hb => hb.2
      refine gives_bind fun _ => gives_bind fun _ => hvalue.bind fun value hvalue => gives_pure ?_
      exact ⟨⟨⟨hvalue.value, trivial⟩, trivial⟩, fun _ hs => hs.elim (fun hs => hs.2.elim id id) id⟩
    cases kind with
    | blockStatement statements =>
      refine (placed_body (Node.placed_lowerFunctions statements depth h)
        (Node.fit_lowerStatements statements depth h ?_)).mono fun _ hbody => hbody.2
      exact fun n hn name hname => Node.mem_lexicalFrame hn hname
    | _ => exact hother

theorem Node.value_lower? : (n : Option Node) → (depth : Nat) → Node.Placed? n false Nowhere →
    Gives (Node.lower? n depth) (Code.Value? Body)
  | none, _, _ => gives_pure trivial
  | some n, depth, h => (n.fits_lowerValue depth h).bind fun _ hc => gives_pure hc.value

/-- A statement that may be absent. -/
theorem Node.fits_lower? : (n : Option Node) → (depth : Nat) → {Taken : Signal → Prop} → {names : List String} →
    Node.Placed? n false Taken →
    Gives (Node.lower? n depth) fun c => Code.Placed? Body c names ∧ ∀ s, Code.Escapes? c s → Taken s
  | none, _, _, _, _ => gives_pure ⟨trivial, fun _ h => h.elim⟩
  | some n, depth, _, _, h =>
    (n.fits_lower depth h).bind fun _ hc => gives_pure ⟨hc.placed, hc.escapes⟩

/-- The initialization of a loop declares the names of the loop's own frame. -/
theorem Node.placed_lowerInit : (n : Option Node) → (depth : Nat) → {names : List String} → Node.InitPlaced n →
    (∀ m ∈ n, m.kind.isVariables = true → ∀ name ∈ m.lexicalNames.names, name ∈ names) →
    Gives (Node.lower? n depth) fun c => Code.Placed? Body c names
  | none, _, _, _, _ => gives_pure trivial
  | some (.mk kind span), depth, names, h, hnames => by
    have hcode (hkind : kind.Placed true Nowhere)
        (hnames : ∀ name ∈ (Node.mk kind span).lexicalNames.names, name ∈ names) :
        Gives (Node.lower? (some (.mk kind span)) depth) fun c => Code.Placed? Body c names :=
      (fits_asCode (fun d => kind.fits_lower span [] d hkind hnames) fun d => kind.placed_lowerLink span d hkind).bind
        fun _ hc => gives_pure hc.placed
    cases kind with
    | variableDeclaration ds kind => exact hcode ⟨.inr rfl, h⟩ (hnames _ rfl rfl)
    | _ =>
      have hplaced : Node.IsPlaced (.mk _ span) := h
      exact hcode (Kind.Placed.item h) hplaced.mem_of_lexicalNames

theorem Node.values_lowerAll : (l : List Node) → (depth : Nat) → Node.AllPlaced l false Nowhere →
    Gives (Node.lowerAll l depth) (Code.AllValues Body)
  | [], _, _ => gives_pure trivial
  | n :: rest, depth, h =>
    (n.fits_lowerValue depth h.1).bind fun _ hc =>
      (Node.values_lowerAll rest depth h.2).bind fun _ hrest => gives_pure ⟨hc.value, hrest⟩

theorem Node.fit_lowerStatements : (l : List Node) → (depth : Nat) → {Taken : Signal → Prop} → {names : List String} →
    Node.AllPlaced l true Taken → (∀ n ∈ l, ∀ name ∈ n.lexicalNames.names, name ∈ names) →
    Gives (Node.lowerStatements l depth) (Code.AllFit Body names Taken)
  | [], _, _, _, _, _ => gives_pure .nil
  | n :: rest, depth, Taken, names, h, hnames => by
    have hrest := Node.fit_lowerStatements rest depth h.2 fun m hm => hnames m (List.mem_cons_of_mem n hm)
    have hother : Gives (do
        let c ← n.lower depth
        return c :: (← Node.lowerStatements rest depth)) (Code.AllFit Body names Taken) :=
      (n.fits_lowerItem depth h.1 (hnames n List.mem_cons_self)).bind fun _ hc => hrest.bind fun _ hrest =>
        gives_pure (.cons hc hrest)
    obtain ⟨kind, span⟩ := n
    cases kind with
    | function form id params body flags =>
      cases form with
      | declaration => exact hrest
      | _ => exact hother
    | _ => exact hother

theorem Node.placed_lowerFunctions : (l : List Node) → (depth : Nat) → {Taken : Signal → Prop} →
    Node.AllPlaced l true Taken → Gives (Node.lowerFunctions l depth) (Template.AllPlaced Body)
  | [], _, _, _ => gives_pure trivial
  | .mk kind span :: rest, depth, _, h => by
    have hrest := Node.placed_lowerFunctions rest depth h.2
    cases kind with
    | function form id params body flags =>
      cases form with
      | declaration =>
        refine (placed_template hquiet (Node.placed_lowerParameters params depth h.1.1)
          (body.placed_lowerBody depth h.1.2)).bind fun t ht => ?_
        exact hrest.bind fun _ hrest => gives_pure ⟨ht, hrest⟩
      | _ => exact hrest
    | _ => exact hrest

theorem Node.placed_lowerParameters : (l : List Node) → (depth : Nat) → Node.AllPlaced l false Nowhere →
    Gives (Node.lowerParameters l depth) (Pattern.ParametersPlaced Body)
  | [], _, _ => gives_pure trivial
  | n :: rest, depth, h => by
    have hrest := Node.placed_lowerParameters rest depth h.2
    have hother : Gives (do
        let p ← n.lowerPattern .parameter depth
        return (p, false) :: (← Node.lowerParameters rest depth)) (Pattern.ParametersPlaced Body) :=
      (n.placed_lowerPattern .parameter depth h.1 nofun).bind fun _ hp => hrest.bind fun _ hrest =>
        gives_pure ⟨hp, hrest⟩
    obtain ⟨kind, span⟩ := n
    cases kind with
    | restElement argument =>
      exact (argument.placed_lowerPattern .parameter depth h.1 nofun).bind fun _ hp => hrest.bind fun _ hrest =>
        gives_pure ⟨hp, hrest⟩
    | _ => exact hother

theorem Node.placed_lowerArguments : (l : List Node) → (depth : Nat) → Node.AllPlaced l false Nowhere →
    Gives (Node.lowerArguments l depth) (Code.ArgumentsPlaced Body)
  | [], _, _ => gives_pure trivial
  | n :: rest, depth, h => by
    have hrest := Node.placed_lowerArguments rest depth h.2
    have hother : Gives (do
        let c ← n.lower depth
        return (c, false) :: (← Node.lowerArguments rest depth)) (Code.ArgumentsPlaced Body) :=
      (n.fits_lowerValue depth h.1).bind fun _ hc => hrest.bind fun _ hrest =>
        gives_pure ⟨hc.value, hrest⟩
    obtain ⟨kind, span⟩ := n
    cases kind with
    | spreadElement argument =>
      have hargument : argument.IsPlaced := h.1
      exact (argument.fits_lowerValue depth hargument).bind fun _ hc => hrest.bind
        fun _ hrest => gives_pure ⟨hc.value, hrest⟩
    | _ => exact hother

theorem Node.placed_lowerElements : (l : List (Option Node)) → (depth : Nat) → Node.ElementsPlaced l →
    Gives (Node.lowerElements l depth) (Code.ElementsPlaced Body)
  | [], _, _ => gives_pure trivial
  | none :: rest, depth, h => (Node.placed_lowerElements rest depth h).bind fun _ hrest => gives_pure hrest
  | some n :: rest, depth, h => by
    have hrest := Node.placed_lowerElements rest depth h.2
    have hother : Gives (do
        let c ← n.lower depth
        return some (c, none) :: (← Node.lowerElements rest depth)) (Code.ElementsPlaced Body) :=
      (n.fits_lowerValue depth h.1).bind fun _ hc => hrest.bind fun _ hrest =>
        gives_pure ⟨hc.value, hrest⟩
    obtain ⟨kind, span⟩ := n
    cases kind with
    | spreadElement argument =>
      have hargument : argument.IsPlaced := h.1
      exact (argument.fits_lowerValue depth hargument).bind fun _ hc => gives_bind
        fun _ => hrest.bind fun _ hrest => gives_pure ⟨hc.value, hrest⟩
    | _ => exact hother

theorem Node.placed_lowerKey : (n : Node) → (computed : Bool) → (depth : Nat) → n.IsPlaced →
    Gives (n.lowerKey computed depth) (PropertyName.Placed Body)
  | .mk kind span, computed, depth, h => by
    have hother : Gives (do
        return .computed (← asCode kind.isLink span.position depth (fun d => kind.lower span [] d)
          fun d => kind.lowerLink span d)) (PropertyName.Placed Body) :=
      (fits_asCode (fun d => kind.fits_lower span [] d h (Node.Placed.mem_of_lexicalNames (n := .mk kind span) h))
        fun d => kind.placed_lowerLink span d h).bind fun _ hc => gives_pure hc.value
    cases computed with
    | true => exact hother
    | false =>
      cases kind with
      | identifier name => exact gives_pure trivial
      | literal value raw regex => exact gives_pure trivial
      | _ => exact hother

theorem Node.placed_lowerProperties : (l : List Node) → (depth : Nat) → Node.AllPlaced l false Nowhere →
    Gives (Node.lowerProperties l depth) (ObjectPart.AllPlaced Body)
  | [], _, _ => gives_pure trivial
  | .mk kind span :: rest, depth, h => by
    have hrest := Node.placed_lowerProperties rest depth h.2
    cases kind with
    | spreadElement argument =>
      have hargument : argument.IsPlaced := h.1
      exact (argument.fits_lowerValue depth hargument).bind fun _ hc => hrest.bind
        fun _ hrest => gives_pure ⟨hc.value, hrest⟩
    | property key value kind method shorthand computed =>
      obtain ⟨⟨hkey, hplaced⟩, -⟩ := h
      have hvalue := value.fits_lowerValue depth hplaced
      refine (key.placed_lowerKey computed depth hkey).bind fun name hname => ?_
      have hlast (part : ObjectPart) (hpart : part.Placed Body) : Gives (do
          return part :: (← Node.lowerProperties rest depth)) (ObjectPart.AllPlaced Body) :=
        hrest.bind fun _ hrest => gives_pure ⟨hpart, hrest⟩
      have hpure (part : ObjectPart) (hpart : part.Placed Body) :=
        Gives.bind (P := ObjectPart.Placed Body) (gives_pure hpart) hlast
      split
      · exact hvalue.bind fun c hc => hpure (.ignored c) hc.value
      · exact (value.fits_lowerNamed _ false depth hplaced).bind fun c hc => hpure (.value name c) ⟨hname, hc.value⟩
      · exact hvalue.bind fun c hc => hpure (.value name c) ⟨hname, hc.value⟩
      · exact hvalue.bind fun c hc => hpure (.getter name c) ⟨hname, hc.value⟩
      · exact hvalue.bind fun c hc => hpure (.setter name c) ⟨hname, hc.value⟩
    | _ => exact gives_fault _ _ _

/-- A pattern initializes the names that it declares, if any. -/
theorem Node.placed_lowerPattern : (n : Node) → (mode : BindingMode) → (depth : Nat) → {names : List String} →
    n.IsPlaced → (mode = .lexical → ∀ name ∈ n.declaredNames, name ∈ names) →
    Gives (n.lowerPattern mode depth) fun p => p.Placed Body names
  | .mk kind span, mode, depth, names, h, hnames => by
    cases kind with
    | identifier name => exact gives_pure fun hmode => hnames hmode name (by simp [Node.declaredNames])
    | assignmentPattern left right =>
      refine (left.placed_lowerPattern mode depth h.1 hnames).bind fun inner hinner => ?_
      have hlast (default : Code) (hdefault : default.Fits Body [] Nowhere) :
          Gives (pure (.withDefault inner default) : Lower Pattern) fun p => p.Placed Body names :=
        gives_pure ⟨hinner, hdefault.value⟩
      split
      · exact (right.fits_lowerNamed _ _ depth h.2).bind hlast
      · exact (right.fits_lowerValue depth h.2).bind hlast
    | objectPattern properties =>
      exact (Node.placed_lowerPatternParts properties mode depth h hnames).bind fun _ hparts => gives_bind fun _ =>
        gives_pure hparts
    | arrayPattern elements =>
      exact (Node.placed_lowerPatternElements elements mode depth h hnames).bind fun _ hitems => gives_bind fun _ =>
        gives_pure hitems
    | memberExpression object property computed optional =>
      refine gives_ite ?_ (gives_fault _ _ _)
      exact (object.fits_lowerValue depth h.1).bind fun _ hc =>
        (property.placed_lowerKey computed depth h.2).bind fun _ hkey => gives_pure ⟨hc.value, hkey⟩
    | _ => exact gives_fault _ _ _

theorem Node.placed_lowerPatternParts : (l : List Node) → (mode : BindingMode) → (depth : Nat) →
    {names : List String} → Node.AllPlaced l false Nowhere →
    (mode = .lexical → ∀ name ∈ propertiesDeclaredNames l, name ∈ names) →
    Gives (Node.lowerPatternParts l mode depth) fun parts => PatternPart.AllPlaced Body parts names
  | [], _, _, _, _, _ => gives_pure trivial
  | .mk kind span :: rest, mode, depth, names, h, hnames => by
    cases kind with
    | property key value kind method shorthand computed =>
      have hrest := Node.placed_lowerPatternParts rest mode depth h.2 fun hmode name hname =>
        hnames hmode name (List.mem_append_right _ hname)
      have hvalue := value.placed_lowerPattern mode depth h.1.2 fun hmode name hname =>
        hnames hmode name (List.mem_append_left _ hname)
      exact (key.placed_lowerKey computed depth h.1.1).bind fun _ hkey => hvalue.bind fun _ hp => hrest.bind
        fun _ hrest => gives_pure ⟨hkey, hp, hrest⟩
    | restElement argument =>
      have hrest := Node.placed_lowerPatternParts rest mode depth h.2 fun hmode name hname =>
        hnames hmode name (List.mem_append_right _ hname)
      have hargument := argument.placed_lowerPattern mode depth h.1 fun hmode name hname =>
        hnames hmode name (List.mem_append_left _ hname)
      exact hargument.bind fun _ hp => hrest.bind fun _ hrest => gives_pure ⟨hp, hrest⟩
    | _ => exact gives_fault _ _ _

theorem Node.placed_lowerPatternElements : (l : List (Option Node)) → (mode : BindingMode) → (depth : Nat) →
    {names : List String} → Node.ElementsPlaced l →
    (mode = .lexical → ∀ name ∈ elementsDeclaredNames l, name ∈ names) →
    Gives (Node.lowerPatternElements l mode depth) fun items => Pattern.ElementsPlaced Body items names
  | [], _, _, _, _, _ => gives_pure trivial
  | none :: rest, mode, depth, _, h, hnames =>
    (Node.placed_lowerPatternElements rest mode depth h hnames).bind fun _ hrest => gives_pure hrest
  | some n :: rest, mode, depth, names, h, hnames => by
    have hrest := Node.placed_lowerPatternElements rest mode depth h.2 fun hmode name hname =>
      hnames hmode name (List.mem_append_right _ hname)
    have hdeclared : mode = .lexical → ∀ name ∈ n.declaredNames, name ∈ names := fun hmode name hname =>
      hnames hmode name (List.mem_append_left _ hname)
    have hother : Gives (do
        let p ← n.lowerPattern mode depth
        return some (p, false) :: (← Node.lowerPatternElements rest mode depth))
        fun items => Pattern.ElementsPlaced Body items names :=
      (n.placed_lowerPattern mode depth h.1 hdeclared).bind fun _ hp => hrest.bind fun _ hrest =>
        gives_pure ⟨hp, hrest⟩
    obtain ⟨kind, span⟩ := n
    cases kind with
    | restElement argument =>
      exact (argument.placed_lowerPattern mode depth h.1 hdeclared).bind fun _ hp => hrest.bind fun _ hrest =>
        gives_pure ⟨hp, hrest⟩
    | _ => exact hother

theorem Node.placed_lowerDeclarators : (l : List Node) → (kind : VariableKind) → (depth : Nat) →
    {names : List String} → Node.AllPlaced l false Nowhere →
    (modeOf kind = .lexical → ∀ name ∈ l.flatMap Node.declaratorNames, name ∈ names) →
    Gives (Node.lowerDeclarators l kind depth) fun bindings => Code.BindingsPlaced Body bindings names
  | [], _, _, _, _, _ => gives_pure trivial
  | .mk declarator span :: rest, kind, depth, names, h, hnames => by
    have hrest := Node.placed_lowerDeclarators rest kind depth h.2 fun hmode name hname =>
      hnames hmode name (List.mem_append_right _ hname)
    cases declarator with
    | variableDeclarator id init =>
      obtain ⟨⟨hid, hinit⟩, -⟩ := h
      have hpattern := id.placed_lowerPattern (modeOf kind) depth hid fun hmode name hname =>
        hnames hmode name (List.mem_append_left _ hname)
      have hbinding (value : Option Code) (hvalue : Code.Value? Body value) : Gives (do
          let p ← id.lowerPattern (modeOf kind) depth
          return (p, value) :: (← Node.lowerDeclarators rest kind depth))
          fun bindings => Code.BindingsPlaced Body bindings names :=
        hpattern.bind fun _ hp => hrest.bind fun _ hrest => gives_pure ⟨hp, hvalue, hrest⟩
      cases init with
      | none =>
        have hlast : Gives (do
            checkInit kind id span.position
            if kind = .var then Node.lowerDeclarators rest kind depth
            else
              let p ← id.lowerPattern (modeOf kind) depth
              return (p, none) :: (← Node.lowerDeclarators rest kind depth))
            fun bindings => Code.BindingsPlaced Body bindings names :=
          gives_bind fun _ => gives_ite hrest (hbinding none trivial)
        exact gives_ite (gives_bind fun _ => hlast) hlast
      | some init =>
        have hlast (value : Code) (hvalue : value.Fits Body [] Nowhere) : Gives (do
            let p ← id.lowerPattern (modeOf kind) depth
            return (p, some value) :: (← Node.lowerDeclarators rest kind depth))
            fun bindings => Code.BindingsPlaced Body bindings names :=
          hbinding (some value) hvalue.value
        have hinit : init.IsPlaced := hinit
        have hnamed (name : String) := (init.fits_lowerNamed name true depth hinit).bind hlast
        have hunnamed := (init.fits_lowerValue depth hinit).bind hlast
        refine gives_ite (gives_bind fun _ => ?_) ?_
        all_goals
          dsimp only
          split
          · exact hnamed _
          · exact hunnamed
    | _ => exact gives_fault _ _ _

/-- The target of a loop over names initializes names of its own frame. -/
theorem Node.placed_lowerTarget : (n : Node) → (depth : Nat) → n.Placed true Nowhere →
    Gives (n.lowerTarget depth) fun target => target.1.Placed Body target.2.names
  | .mk kind span, depth, h => by
    cases kind with
    | variableDeclaration declarations kind =>
      cases declarations with
      | nil => exact gives_fault _ _ _
      | cons declarator others =>
        obtain ⟨declarator, dspan⟩ := declarator
        cases declarator with
        | variableDeclarator id init =>
          have hid : id.IsPlaced := h.2.1.1
          have hvar : Gives (do
              id.declaredNames.forM (declareVar span.position)
              return (← id.lowerPattern .var depth, []) : Lower (Pattern × LexicalFrame))
              fun target => target.1.Placed Body target.2.names :=
            gives_bind fun _ => (id.placed_lowerPattern .var depth hid nofun).bind fun _ hp => gives_pure hp
          by_cases hkind : kind = .var
          · subst hkind
            exact hvar
          · have hlexical : Gives (do
                let p ← id.lowerPattern .lexical depth
                pure (p, Node.lexicalNames
                  (.mk (.variableDeclaration (.mk (.variableDeclarator id init) dspan :: others) kind) span)) :
                  Lower (Pattern × LexicalFrame)) fun target => target.1.Placed Body target.2.names := by
              refine Gives.bind (P := fun p => p.Placed Body (Node.lexicalNames (.mk (.variableDeclaration
                (.mk (.variableDeclarator id init) dspan :: others) kind) span)).names)
                (id.placed_lowerPattern .lexical depth hid fun _ => ?_) fun _ hp => gives_pure hp
              rw [Node.names_variableDeclaration hkind]
              exact fun name hname => List.mem_append_left _ hname
            change Gives (if kind = .var then _ else _) _
            rw [if_neg hkind]
            exact hlexical
        | _ => exact gives_fault _ _ _
    | identifier name => exact gives_pure nofun
    | assignmentPattern left right =>
      have hleft : Gives (left.lowerPattern .assign depth) fun p => p.Placed Body [] :=
        left.placed_lowerPattern .assign depth h.1 nofun
      refine hleft.bind fun inner hinner => ?_
      have hlast (default : Code) (hdefault : default.Fits Body [] Nowhere) :
          Gives (pure (.withDefault inner default, []) : Lower (Pattern × LexicalFrame))
            fun target => target.1.Placed Body target.2.names :=
        gives_pure ⟨hinner, hdefault.value⟩
      split
      · exact (right.fits_lowerNamed _ _ depth h.2).bind hlast
      · exact (right.fits_lowerValue depth h.2).bind hlast
    | objectPattern properties =>
      exact (Node.placed_lowerPatternParts properties .assign depth h nofun).bind fun _ hparts => gives_bind fun _ =>
        gives_pure hparts
    | arrayPattern elements =>
      exact (Node.placed_lowerPatternElements elements .assign depth h nofun).bind fun _ hitems => gives_bind fun _ =>
        gives_pure hitems
    | memberExpression object property computed optional =>
      exact (object.fits_lowerValue depth h.1).bind fun _ hc =>
        (property.placed_lowerKey computed depth h.2).bind fun _ hkey => gives_pure ⟨hc.value, hkey⟩
    | _ => exact gives_fault _ _ _

theorem Node.placed_lowerCaseFunctions : (l : List Node) → (depth : Nat) → {Taken : Signal → Prop} →
    Node.CasesPlaced l Taken → Gives (Node.lowerCaseFunctions l depth) (Template.AllPlaced Body)
  | [], _, _, _ => gives_pure trivial
  | .mk kind span :: rest, depth, _, h => by
    cases kind with
    | switchCase test consequent =>
      have hrest := Node.placed_lowerCaseFunctions rest depth h.2.2
      exact (Node.placed_lowerFunctions consequent depth h.2.1).bind fun _ hfunctions => hrest.bind fun _ hrest =>
        gives_pure (Template.allPlaced_append hfunctions hrest)
    | _ => exact h.elim

theorem Node.fit_lowerCases : (l : List Node) → (depth : Nat) → {Taken : Signal → Prop} → {names : List String} →
    Node.CasesPlaced l Taken →
    (∀ c ∈ l, ∀ test consequent, c.kind = .switchCase test consequent →
      ∀ n ∈ consequent, ∀ name ∈ n.lexicalNames.names, name ∈ names) →
    Gives (Node.lowerCases l depth) fun cases =>
      Code.AllTests Body (cases.map Prod.fst) ∧ Code.AllFit Body names Taken (cases.map Prod.snd)
  | [], _, _, _, _, _ => gives_pure ⟨trivial, .nil⟩
  | .mk kind span :: rest, depth, _, names, h, hnames => by
    cases kind with
    | switchCase test consequent =>
      have hrest := Node.fit_lowerCases rest depth h.2.2 fun c hc => hnames c (List.mem_cons_of_mem _ hc)
      refine gives_bind fun _ => (Node.value_lower? test (depth + 1) h.1).bind fun t ht => ?_
      refine (Node.fit_lowerStatements consequent depth h.2.1
        (hnames _ List.mem_cons_self test consequent rfl)).bind fun statements hstatements => ?_
      refine hrest.bind fun cases hcases => gives_pure ⟨⟨?_, hcases.1⟩, .cons ?_ hcases.2⟩
      · cases t with
        | none => exact ⟨trivial, fun s hs => hs⟩
        | some c => exact ⟨ht.1, fun s hs => absurd hs (ht.2 s)⟩
      · exact ⟨hstatements.placed, fun s hs => hstatements.escapes s hs.2⟩
    | _ => exact h.elim

theorem Node.fits_lowerHandler? : (n : Option Node) → (depth : Nat) → {Taken : Signal → Prop} →
    Node.HandlerPlaced n Taken → Gives (Node.lowerHandler? n depth) fun handler =>
      Code.HandlerPlaced Body handler ∧ ∀ s, Code.HandlerEscapes handler s → Taken s
  | none, _, _, _ => gives_pure ⟨trivial, fun _ h => h.elim⟩
  | some (.mk kind span), depth, _, h => by
    cases kind with
    | catchClause param body =>
      obtain ⟨hparam, hbody⟩ := h
      have hbody : Gives (body.lower depth) (Code.Fits Body [] _) := body.fits_lower depth hbody
      cases param with
      | none => exact hbody.bind fun _ hc => gives_pure ⟨hc.placed, hc.escapes⟩
      | some param =>
        exact (param.placed_lowerPattern .parameter depth hparam nofun).bind fun _ hp => hbody.bind fun _ hc =>
          gives_pure ⟨⟨hp, hc.placed⟩, hc.escapes⟩
    | _ => exact h.elim

theorem Node.placed_lowerClassBody : (n : Node) → (name : String) → (depth : Nat) → n.IsPlaced →
    Gives (n.lowerClassBody name depth) (PlacedClass Body)
  | .mk kind span, name, depth, h => by
    cases kind with
    | classBody members => exact Node.placed_lowerMembers members name depth h
    | _ => exact gives_fault _ _ _

theorem Node.placed_lowerMembers : (l : List Node) → (name : String) → (depth : Nat) → Node.AllPlaced l false Nowhere →
    Gives (Node.lowerMembers l name depth) (PlacedClass Body)
  | [], _, _, _ => gives_pure ⟨trivial, trivial⟩
  | .mk kind span :: rest, name, depth, h => by
    have hrest := Node.placed_lowerMembers rest name depth h.2
    cases kind with
    | methodDefinition key value kind computed isStatic =>
      obtain ⟨value, vspan⟩ := value
      cases value with
      | function form id params body flags =>
        have hparameters := Node.placed_lowerParameters params depth h.1.2.1
        have hbody := body.placed_lowerBody depth h.1.2.2
        cases form with
        | expression =>
          cases kind with
          | constructor =>
            refine (placed_template hquiet hparameters hbody).bind fun t ht => hrest.bind fun parts hparts => ?_
            obtain ⟨later, members⟩ := parts
            refine gives_pure ⟨?_, hparts.members⟩
            cases later with
            | none => exact ht
            | some t' => exact hparts.constructor
          | method =>
            refine (key.placed_lowerKey computed depth h.1.1).bind fun key hkey => ?_
            refine (placed_template hquiet hparameters hbody).bind fun t ht => hrest.bind fun parts hparts => ?_
            exact gives_pure ⟨hparts.constructor, hkey, ht, hparts.members⟩
          | get | set => exact hrest.bind fun parts hparts => gives_pure ⟨hparts.constructor, hparts.members⟩
        | _ => exact gives_fault _ _ _
      | _ => exact gives_fault _ _ _
    | propertyDefinition key value computed isStatic =>
      have hkey := key.placed_lowerKey computed depth h.1.1
      cases value with
      | none =>
        exact hkey.bind fun key hkey => hrest.bind fun parts hparts =>
          gives_pure ⟨hparts.constructor, hkey, trivial, hparts.members⟩
      | some value =>
        have hvalue : value.IsPlaced := h.1.2
        have hunnamed := value.fits_lowerValue depth hvalue
        have hnamed (name : String) := value.fits_lowerNamed name false depth hvalue
        refine hkey.bind fun key hkey => ?_
        have hlast (isArrow : Bool) (init : Code) (hinit : init.Fits Body [] Nowhere) : Gives (do
            let (constructor, members) ← Node.lowerMembers rest name depth
            pure (constructor, .field key (some init) isArrow isStatic :: members)) (PlacedClass Body) :=
          hrest.bind fun parts hparts => gives_pure ⟨hparts.constructor, hkey, hinit.value, hparts.members⟩
        dsimp only
        split
        · exact (hnamed _).bind (hlast _)
        · exact hunnamed.bind (hlast _)
    | _ => exact gives_fault _ _ _

theorem Kind.placed_lowerLink : (kind : Kind) → (span : Span) → (depth : Nat) → {declares : Bool} →
    {Taken : Signal → Prop} → kind.Placed declares Taken → Gives (kind.lowerLink span depth) (Link.Placed Body)
  | kind, span, depth, _, _, h => by
    cases kind with
    | chainExpression expression =>
      exact (expression.placed_lowerLink depth h).bind fun _ hlink => gives_pure hlink
    | memberExpression object property computed optional =>
      refine (property.placed_lowerKey computed depth h.2).bind fun key hkey => ?_
      have hobject := object.placed_lowerLink depth h.1
      split
      · exact gives_pure hkey
      · exact hobject.bind fun _ hlink => gives_pure ⟨hlink, hkey⟩
    | callExpression callee arguments optional =>
      have hcallee := callee.placed_lowerLink depth h.1
      refine (Node.placed_lowerArguments arguments depth h.2).bind fun args hargs => gives_bind fun label => ?_
      split
      · exact gives_pure hargs
      · exact gives_ite (gives_bind fun _ => gives_pure hargs) (gives_pure hargs)
      · exact hcallee.bind fun _ hlink => gives_pure ⟨hlink, hargs⟩
    | _ => exact gives_fault _ _ _

theorem Kind.fits_lower : (kind : Kind) → (span : Span) → (labels : List String) → (depth : Nat) →
    {declares : Bool} → {Taken : Signal → Prop} → {names : List String} → kind.Placed declares Taken →
    (∀ name ∈ (Node.mk kind span).lexicalNames.names, name ∈ names) →
    Gives (kind.lower span labels depth) (Code.Fits Body names Taken)
  | kind, span, labels, depth, declares, Taken, names, h, hnames => by
    -- from an expression nothing escapes
    have hsimple {c : Code} (hc : c.Placed Body names) (hescapes : ∀ s, ¬ c.Escapes s) :
        Gives (pure c : Lower Code) (Code.Fits Body names Taken) :=
      gives_pure ⟨hc, fun s hs => (hescapes s hs).elim⟩
    cases kind with
    | program | switchCase | catchClause => exact h.elim
    | expressionStatement expression directive =>
      exact (expression.fits_lowerValue depth h).bind fun _ hc => hsimple hc.value fun _ h => h
    | blockStatement statements =>
      refine (placed_body (Node.placed_lowerFunctions statements depth h) (Node.fit_lowerStatements statements depth h
        fun n hn name hname => Node.mem_lexicalFrame hn hname)).bind fun _ hbody => ?_
      exact gives_pure ⟨⟨hbody.2.functions, hbody.2.code.placed⟩, hbody.2.code.escapes⟩
    | emptyStatement | debuggerStatement => exact hsimple trivial fun _ h => h
    | breakStatement label => exact gives_pure ⟨trivial, by rintro s rfl; exact h⟩
    | continueStatement label => exact gives_pure ⟨trivial, by rintro s rfl; exact h⟩
    | withStatement object body =>
      exact (object.fits_lowerValue depth h.1).bind fun _ ho => (body.fits_lower depth h.2).bind fun _ hb =>
        gives_pure ⟨⟨ho.value, hb.placed⟩, hb.escapes⟩
    | returnStatement argument => exact (Node.value_lower? argument depth h).bind fun _ hc => hsimple hc fun _ h => h
    | labeledStatement label body =>
      obtain ⟨kind, bspan⟩ := body
      obtain ⟨isLoop, hloop, h⟩ := h
      have hnames : ∀ name ∈ (Node.mk kind bspan).lexicalNames.names, name ∈ names :=
        Node.Placed.mem_of_lexicalNames (n := .mk kind bspan) h
      have hinner (labels : List String) := kind.fits_lower bspan labels depth h hnames
      -- the label takes the jumps out, and a loop the jumps to its next round
      have hlabeled (body : Code) (hbody : body.Fits Body names (InLabeled Taken (label.name?.getD "") isLoop) ∧
          (isLoop = true → ∀ s, body.Escapes s → s ≠ .on (some (label.name?.getD "")))) :
          Gives (pure (.labeled (label.name?.getD "") body) : Lower Code) (Code.Fits Body names Taken) := by
        refine gives_pure ⟨hbody.1.placed, fun s hs => ?_⟩
        rcases hbody.1.escapes s hs.2 with hout | ⟨hisLoop, hon⟩ | hs'
        · exact absurd hout hs.1
        · exact absurd hon (hbody.2 hisLoop s hs.2)
        · exact hs'
      by_cases hkind : kind.isLoop = true
      · have hcode : Gives (do
            let c ← kind.lower bspan (labels ++ [label.name?.getD ""]) depth
            let body ← pure (.step bspan.position c)
            pure (.labeled (label.name?.getD "") body)) (Code.Fits Body names Taken) := by
          refine ((hinner _).and (Kind.takes_lower hkind bspan _ depth)).bind fun c hc => ?_
          exact hlabeled (.step bspan.position c) ⟨⟨hc.1.placed, hc.1.escapes⟩, fun _ s hs =>
            hc.2 s hs _ (List.mem_append_right _ List.mem_cons_self)⟩
        cases kind with
        | whileStatement | doWhileStatement | forStatement | forInStatement => exact hcode
        | _ => cases hkind
      · have hisLoop : isLoop ≠ true := fun h => hkind (hloop h)
        refine gives_ite ((hinner _).bind fun c hc => hlabeled c ⟨hc, fun h => absurd h hisLoop⟩) ?_
        rw [if_neg hkind]
        exact (fits_asCode (fun d => kind.fits_lower bspan [] d h hnames) fun d =>
          kind.placed_lowerLink bspan d h).bind fun c hc => hlabeled c ⟨hc, fun h => absurd h hisLoop⟩
    | ifStatement test consequent alternate =>
      exact (test.fits_lowerValue depth h.1).bind fun _ ht => (consequent.fits_lower depth h.2.1).bind fun _ hc =>
        (Node.fits_lower? alternate depth h.2.2).bind fun _ ha =>
          gives_pure ⟨⟨ht.value, hc.placed, ha.1⟩, fun s hs => hs.elim (hc.escapes s) (ha.2 s)⟩
    | switchStatement discriminant cases =>
      refine (discriminant.fits_lowerValue depth h.1).bind fun d hd => ?_
      dsimp only
      generalize hframe : lexicalFrame _ = frame
      have hcases : Gives (Node.lowerCases cases depth) fun cases => Code.AllTests Body (cases.map Prod.fst) ∧
          Code.AllFit Body frame.names (InSwitch Taken) (cases.map Prod.snd) := by
        refine Node.fit_lowerCases cases depth h.2 ?_
        subst hframe
        intro c hc test consequent hkind n hn name hname
        refine Node.mem_lexicalFrame (List.mem_flatMap.mpr ⟨c, hc, ?_⟩) hname
        rw [hkind]
        exact hn
      refine gives_inFrame _ ?_
      refine (Node.placed_lowerCaseFunctions cases depth h.2).bind fun _ hf => hcases.bind fun _ hcases => gives_pure ?_
      exact ⟨⟨hd.value, placed_keepLast hf, hcases.1, hcases.2.placed⟩, fun s hs =>
        (hcases.2.escapes s hs.2.2).resolve_left hs.1⟩
    | throwStatement argument => exact (argument.fits_lowerValue depth h).bind fun _ hc => hsimple hc.value fun _ h => h
    | tryStatement block handler finalizer =>
      exact (block.fits_lower depth h.1).bind fun _ hb => (Node.fits_lowerHandler? handler depth h.2.1).bind fun _ hh =>
        (Node.fits_lower? finalizer depth h.2.2).bind fun _ hf =>
          gives_pure ⟨⟨hb.placed, hh.1, hf.1⟩, fun s hs => hs.elim (hb.escapes s) (Or.rec (hh.2 s) (hf.2 s))⟩
    | whileStatement test body =>
      exact (test.fits_lowerValue depth h.1).bind fun _ ht => (body.fits_lower depth h.2).bind fun _ hb =>
        gives_pure ⟨⟨ht.value, hb.placed⟩, fun s hs => taken_of_inLoop hs.1 (hb.escapes s hs.2)⟩
    | doWhileStatement body test =>
      exact (body.fits_lower depth h.2).bind fun _ hb => (test.fits_lowerValue depth h.1).bind fun _ ht =>
        gives_pure ⟨⟨hb.placed, ht.value⟩, fun s hs => taken_of_inLoop hs.1 (hb.escapes s hs.2)⟩
    | forStatement init test update body =>
      have hparts (frame : LexicalFrame)
          (hinit : Gives (Node.lower? init depth) fun c => Code.Placed? Body c frame.names) :
          Gives (Lower.inFrame frame do
            let i ← Node.lower? init depth
            let t ← Node.lower? test depth
            let u ← Node.lower? update depth
            let b ← body.lower depth
            pure (.forLoop labels frame i t u b)) (Code.Fits Body names Taken) :=
        gives_inFrame _ <| hinit.bind fun _ hi => (Node.value_lower? test depth h.2.1).bind fun _ ht =>
          (Node.value_lower? update depth h.2.2.1).bind fun _ hu => (body.fits_lower depth h.2.2.2).bind fun _ hb =>
            gives_pure ⟨⟨hi, ht, hu, hb.placed⟩, fun s hs => taken_of_inLoop hs.1 (hb.escapes s hs.2)⟩
      refine hparts _ (Node.placed_lowerInit init depth h.1 fun m hm hkind name hname => ?_)
      obtain rfl := Option.mem_def.mp hm
      obtain ⟨kind, ispan⟩ := m
      cases kind with
      | variableDeclaration ds kind => exact hname
      | _ => cases hkind
    | forInStatement left right body =>
      refine (right.fits_lowerValue depth h.2.1).bind fun o ho => ?_
      refine (left.placed_lowerTarget depth h.1).bind fun target htarget => ?_
      exact gives_inFrame _ ((body.fits_lower depth h.2.2).bind fun _ hb =>
        gives_pure ⟨⟨htarget, ho.value, hb.placed⟩, fun s hs => taken_of_inLoop hs.1 (hb.escapes s hs.2)⟩)
    | function form id params body flags =>
      have hparameters := Node.placed_lowerParameters params depth h.1
      have hbody := body.placed_lowerBody depth h.2
      cases form with
      | declaration => exact hsimple trivial fun _ h => h
      | _ => exact (placed_template hquiet hparameters hbody).bind fun _ ht => hsimple ht fun _ h => h
    | variableDeclaration declarations kind =>
      refine (Node.placed_lowerDeclarators declarations kind depth h.2 ?_).bind fun _ hbindings =>
        hsimple hbindings fun _ h => h
      intro hmode name hname
      refine hnames name ?_
      rw [Node.names_variableDeclaration]
      · exact hname
      · rintro rfl
        cases hmode
    | classLike form id superClass body =>
      refine (Node.value_lower? superClass depth h.2.1).bind fun parent hparent => ?_
      refine (body.placed_lowerClassBody _ depth h.2.2).bind fun parts hparts => gives_bind fun source => ?_
      have ht : ClassTemplate.Placed Body (.mk ((nameOf? id).getD "") (nameOf? id) parent parts.1 parts.2 source
          span.position) := ⟨hparent, hparts.constructor, hparts.members⟩
      cases form with
      | expression => exact hsimple ht fun _ h => h
      | declaration =>
        refine hsimple ⟨ht, fun name hname => hnames name ?_⟩ fun _ h => h
        exact Node.mem_names_classLike hname
    | identifier name =>
      exact gives_ite (gives_bind fun _ => hsimple trivial fun _ h => h) (hsimple trivial fun _ h => h)
    | literal value raw regex =>
      cases regex with
      | _ => exact hsimple trivial fun _ h => h
    | thisExpression | super => exact hsimple trivial fun _ h => h
    | arrayExpression elements =>
      exact (Node.placed_lowerElements elements depth h).bind fun _ helements => hsimple helements fun _ h => h
    | objectExpression properties =>
      exact (Node.placed_lowerProperties properties depth h).bind fun _ hparts => hsimple hparts fun _ h => h
    | unaryExpression operator isPrefix argument =>
      obtain ⟨kind, aspan⟩ := argument
      have hother : Gives (do
          let a ← asCode kind.isLink aspan.position depth (fun d => kind.lower aspan [] d)
            fun d => kind.lowerLink aspan d
          pure (.unary operator a span.position)) (Code.Fits Body names Taken) :=
        (fits_asCode (fun d => kind.fits_lower aspan [] d h (Node.Placed.mem_of_lexicalNames (n := .mk kind aspan) h))
          fun d => kind.placed_lowerLink aspan d h).bind fun _ hc => hsimple hc.value fun _ h => h
      cases operator with
      | typeOf =>
        cases kind with
        | identifier name => exact hsimple trivial fun _ h => h
        | _ => exact hother
      | delete =>
        cases kind with
        | identifier name => exact hsimple trivial fun _ h => h
        | memberExpression object property computed optional =>
          exact (object.fits_lowerValue depth h.1).bind fun _ ho => (property.placed_lowerKey computed depth h.2).bind
            fun _ hkey => hsimple ⟨ho.value, hkey⟩ fun _ h => h
        | _ => exact hother
      | other text => exact gives_fault _ _ _
      | _ => exact hother
    | updateExpression operator isPrefix argument =>
      obtain ⟨kind, aspan⟩ := argument
      cases operator with
      | other text => exact gives_fault _ _ _
      | _ =>
        cases kind with
        | identifier name => exact hsimple trivial fun _ h => h
        | memberExpression object property computed optional =>
          exact (object.fits_lowerValue depth h.1).bind fun _ ho => (property.placed_lowerKey computed depth h.2).bind
            fun _ hkey => hsimple ⟨ho.value, hkey⟩ fun _ h => h
        | _ => exact gives_fault _ _ _
    | binaryExpression operator left right =>
      have hparts : Gives (do
          let l ← left.lower depth
          let r ← right.lower depth
          pure (.binary operator l r)) (Code.Fits Body names Taken) :=
        (left.fits_lowerValue depth h.1).bind fun _ hl => (right.fits_lowerValue depth h.2).bind fun _ hr =>
          hsimple ⟨hl.value, hr.value⟩ fun _ h => h
      cases operator with
      | other text => exact gives_fault _ _ _
      | _ => exact hparts
    | logicalExpression operator left right =>
      have hparts : Gives (do
          let l ← left.lower depth
          let r ← right.lower depth
          pure (.logical operator l r)) (Code.Fits Body names Taken) :=
        (left.fits_lowerValue depth h.1).bind fun _ hl => (right.fits_lowerValue depth h.2).bind fun _ hr =>
          hsimple ⟨hl.value, hr.value⟩ hr.escapes
      cases operator with
      | other text => exact gives_fault _ _ _
      | _ => exact hparts
    | assignmentExpression operator left right =>
      obtain ⟨kind, lspan⟩ := left
      have hright := right.fits_lowerValue depth h.2
      cases kind with
      | identifier name =>
        have hassign : Gives (do
            let v ← right.lowerNamed name true depth
            pure (.assignName operator name v span.position)) (Code.Fits Body names Taken) :=
          (right.fits_lowerNamed name true depth h.2).bind fun _ hv => hsimple hv.value fun _ h => h
        cases operator with
        | other text => exact gives_fault _ _ _
        | _ => exact hassign
      | memberExpression object property computed optional =>
        have hassign : Gives (do
            let o ← object.lower depth
            let key ← property.lowerKey computed depth
            let v ← right.lower depth
            pure (.assignMember operator o key v span.position)) (Code.Fits Body names Taken) :=
          (object.fits_lowerValue depth h.1.1).bind fun _ ho => (property.placed_lowerKey computed depth h.1.2).bind
            fun _ hkey => hright.bind fun _ hv => hsimple ⟨ho.value, hkey, hv.value⟩ fun _ h => h
        cases operator with
        | other text => exact gives_fault _ _ _
        | _ => exact hassign
      | objectPattern properties =>
        have hassign : Gives (do
            let parts ← Node.lowerPatternParts properties .assign depth
            let label ← describe (.mk (.objectPattern properties) lspan)
            let v ← right.lower depth
            pure (.assignPattern (.object parts label) v)) (Code.Fits Body names Taken) :=
          (Node.placed_lowerPatternParts properties .assign depth h.1 nofun).bind fun _ hparts => gives_bind fun _ =>
            hright.bind fun _ hv => hsimple ⟨hparts, hv.value⟩ fun _ h => h
        cases operator with
        | plain => exact hassign
        | _ => exact gives_fault _ _ _
      | arrayPattern elements =>
        have hassign : Gives (do
            let items ← Node.lowerPatternElements elements .assign depth
            let label ← describe (.mk (.arrayPattern elements) lspan)
            let v ← right.lower depth
            pure (.assignPattern (.array items label) v)) (Code.Fits Body names Taken) :=
          (Node.placed_lowerPatternElements elements .assign depth h.1 nofun).bind fun _ hitems => gives_bind fun _ =>
            hright.bind fun _ hv => hsimple ⟨hitems, hv.value⟩ fun _ h => h
        cases operator with
        | plain => exact hassign
        | _ => exact gives_fault _ _ _
      | _ => exact gives_no_target rfl rfl
    | conditionalExpression test consequent alternate =>
      exact (test.fits_lowerValue depth h.1).bind fun _ ht => (consequent.fits_lowerValue depth h.2.1).bind fun _ hc =>
        (alternate.fits_lowerValue depth h.2.2).bind fun _ ha =>
          hsimple ⟨ht.value, hc.value, ha.value⟩ fun s hs => hs.elim (hc.escapes s) (ha.escapes s)
    | newExpression callee arguments =>
      exact gives_bind fun _ => (callee.fits_lowerValue depth h.1).bind fun _ hc =>
        (Node.placed_lowerArguments arguments depth h.2).bind fun _ hargs => hsimple ⟨hc.value, hargs⟩ fun _ h => h
    | sequenceExpression expressions =>
      exact (Node.values_lowerAll expressions depth h).bind fun _ hc => hsimple hc fun _ h => h
    | templateLiteral quasis expressions =>
      exact (Node.values_lowerAll expressions depth h).bind fun _ hc => hsimple hc fun _ h => h
    | taggedTemplateExpression tag quasi =>
      obtain ⟨kind, qspan⟩ := quasi
      cases kind with
      | templateLiteral quasis expressions =>
        exact gives_bind fun _ => (tag.placed_lowerLink depth h.1).bind fun _ ht =>
          (Node.values_lowerAll expressions depth h.2).bind fun _ hc => hsimple ⟨ht, hc⟩ fun _ h => h
      | _ => exact gives_fault _ _ _
    | _ => exact gives_fault _ _ _

end

/-! ## 4. Programs -/

/-- Whether a program is placed: its body in the scope of its declarations, and no jump leaves it. -/
structure Program.Placed (Body : Template → Prop) (p : Program) : Prop where
  functions : p.hoisted.Placed Body
  body : p.body.Fits Body p.hoisted.frame.names Nowhere

theorem Node.placed_lowerProgram {n : Node} (h : n.PlacedProgram) : Gives n.lowerProgram (Program.Placed Body) := by
  obtain ⟨statements, hkind, h⟩ := h
  unfold lowerProgram
  rw [hkind]
  refine (placed_body (Node.placed_lowerFunctions hquiet statements 0 h)
    (Node.fit_lowerStatements hquiet statements 0 h fun n hn name hname => Node.mem_lexicalFrame hn hname)).bind
      fun parts hparts => gives_bind fun s => gives_pure ⟨hparts.2.functions, hparts.2.code.placed, ?_⟩
  exact hparts.2.code.escapes

end

/-- **Every program of a text is placed**: from its body, and from the body of a function in it, no jump escapes. -/
theorem Program.placed_of_parse {Body : Template → Prop} (hquiet : ∀ t : Template, t.body.Quiet → Body t)
    {text : String} {options : ParseOptions} {n : Node} {p : Program} {source : Option String}
    (hn : parse text options = .ok n) (hp : Program.ofTree n source = .ok p) : p.Placed Body := by
  unfold ofTree at hp
  split at hp
  · rename_i hr
    cases hp
    exact Node.placed_lowerProgram hquiet (parse_placed hn) _ _ _ hr
  · cases hp

end GuestScript
