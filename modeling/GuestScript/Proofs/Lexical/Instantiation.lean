import GuestScript.Proofs.Object.Ordinary
import GuestScript.Proofs.TextFunction

/-!
# Function declarations

Where a function declaration stands among the statements of a program, of a function, of a block or of a switch, its
function is made and bound as soon as these are entered, and the last declaration of a name wins
(`declarations_instantiated`). A declaration that stands anywhere else, as a branch or behind a label, is lowered to
nothing: its function is never made.

* `Node.Declares` says which function a declaration is lowered to.
* `Lower.mem_keepLast_iff` says which of several functions of one name is kept.
* `Eval.run_instantiate` says what instantiating functions does to a scope.
-/

namespace GuestScript

/-! ## 1. Declarations and their functions -/

/-- The name of the function that a node declares, if it is a function declaration. -/
def Node.functionName? : Node → Option String
  | .mk (.function .declaration id _ _ _) _ => some ((Lower.nameOf? id).getD "")
  | _ => none

/-- A node declares a function: it is a declaration, and lowered to the name and the function. -/
def Node.Declares (depth : Nat) (n : Node) (entry : String × Template) : Prop :=
  ∃ id params body flags span s s',
    n = .mk (.function .declaration id params body flags) span ∧ entry.1 = (Lower.nameOf? id).getD "" ∧
      Lower.template "FunctionDeclaration" span flags (Lower.leadingParameters params) entry.1 true false
        (Node.lowerParameters params depth) (body.lowerBody depth) s = .ok entry.2 s'

/-- The declarations among statements. -/
def Node.declarations (l : List Node) : List Node :=
  l.filter fun n => n.functionName?.isSome

theorem Node.Declares.name {depth : Nat} {n : Node} {entry : String × Template} (h : n.Declares depth entry) :
    n.functionName? = some entry.1 := by
  obtain ⟨id, params, body, flags, span, s, s', rfl, hname, -⟩ := h
  exact congrArg some hname.symm

theorem Node.Declares.isArrow {depth : Nat} {n : Node} {entry : String × Template} (h : n.Declares depth entry) :
    entry.2.isArrow = false := by
  obtain ⟨id, params, body, flags, span, s, s', -, -, ht⟩ := h
  exact (Lower.bodies_of_template ht).2

/-- **Every declaration in a list of statements is lowered with the list**, in order, and nothing else is. -/
theorem Node.declares_lowerFunctions (l : List Node) (depth : Nat) :
    Lower.Gives (Node.lowerFunctions l depth) (List.Forall₂ (Node.Declares depth) (Node.declarations l)) := by
  induction l with
  | nil => exact Lower.gives_pure .nil
  | cons n rest hrest =>
    obtain ⟨kind, span⟩ := n
    cases kind with
    | function form id params body flags =>
      cases form with
      | declaration =>
        intro s fs s' h
        obtain ⟨t, s₁, ht, h⟩ := Lower.of_bind h
        obtain ⟨later, s₂, hlater, h⟩ := Lower.of_bind h
        cases h
        exact .cons ⟨id, params, body, flags, span, s, s₁, rfl, rfl, ht⟩ (hrest _ _ _ hlater)
      | _ => exact hrest
    | _ => exact hrest

theorem Node.declares_lowerCaseFunctions (l : List Node) (depth : Nat) :
    Lower.Gives (Node.lowerCaseFunctions l depth)
      (List.Forall₂ (Node.Declares depth) (Node.declarations (l.flatMap Node.consequent))) := by
  induction l with
  | nil => exact Lower.gives_pure .nil
  | cons n rest hrest =>
    obtain ⟨kind, span⟩ := n
    cases kind with
    | switchCase test consequent =>
      intro s fs s' h
      obtain ⟨first, s₁, hfirst, h⟩ := Lower.of_bind h
      obtain ⟨later, s₂, hlater, h⟩ := Lower.of_bind h
      cases h
      have hconsequent := declares_lowerFunctions consequent depth _ _ _ hfirst
      have happend := List.rel_append (R := Node.Declares depth) hconsequent (hrest _ _ _ hlater)
      simpa [declarations, Node.consequent, Node.kind] using happend
    | _ => exact hrest

/-! ## 2. The last declaration of a name -/

namespace Lower

variable {entry : String × Template} {l : List (String × Template)}

theorem mem_of_mem_keepLast (h : entry ∈ keepLast l) : entry ∈ l := by
  induction l with
  | nil => exact h
  | cons first rest ih =>
    simp only [keepLast] at h
    split at h
    · exact List.mem_cons_of_mem _ (ih h)
    · rcases List.mem_cons.mp h with rfl | hrest
      · exact List.mem_cons_self
      · exact List.mem_cons_of_mem _ (ih hrest)

/-- Of the functions of one name, the last one is kept. -/
theorem mem_keepLast (front back : List (String × Template)) (hback : ∀ other ∈ back, other.1 ≠ entry.1) :
    entry ∈ keepLast (front ++ entry :: back) := by
  induction front with
  | nil =>
    simp only [List.nil_append, keepLast]
    rw [if_neg]
    · exact List.mem_cons_self
    · simp only [List.any_eq_true, beq_iff_eq, not_exists, not_and]
      exact fun other hother => hback other (mem_of_mem_keepLast hother)
  | cons first rest ih =>
    simp only [List.cons_append, keepLast]
    split
    · exact ih
    · exact List.mem_cons_of_mem _ ih

/-- Of the functions of one name, only one is kept. -/
theorem pairwise_keepLast (l : List (String × Template)) : (keepLast l).Pairwise fun a b => b.1 ≠ a.1 := by
  induction l with
  | nil => exact .nil
  | cons first rest ih =>
    simp only [keepLast]
    split
    · exact ih
    · rename_i hnone
      refine List.pairwise_cons.mpr ⟨fun other hother hsame => hnone ?_, ih⟩
      exact List.any_eq_true.mpr ⟨other, hother, beq_iff_eq.mpr hsame⟩

end Lower

/-! ## 3. Instantiation -/

namespace Eval

/-- What instantiating functions does to a scope and its object: every function that is not declared again later is bound
to a new object, and nothing else changes that was there before. -/
structure Instantiated (functions : List (String × Template)) (scope : ScopeId) (data : ObjectId) (m m' : Machine) :
    Prop where
  scopes : m'.scopes = m.scopes
  grows : m.heap.size ≤ m'.heap.size
  plain : (m'.objectAt data).elements = none
  kept : ∀ id : ObjectId, id.index < m.heap.size → id ≠ data → m'.objectAt id = m.objectAt id
  others : ∀ name, (∀ entry ∈ functions, entry.1 ≠ name) →
    (m'.objectAt data).stored? (.string name) = (m.objectAt data).stored? (.string name)
  bound : ∀ front entry back, functions = front ++ entry :: back → (∀ other ∈ back, other.1 ≠ entry.1) →
    ∃ id : ObjectId, m.heap.size ≤ id.index ∧
      (m'.objectAt data).stored? (.string entry.1) = some (.ordinary (.object id)) ∧
      (m'.objectAt id).callable = some (.closure entry.2 scope none)

variable {functions : List (String × Template)} {scope : ScopeId} {data : ObjectId} {m m' : Machine}

/-- One function is made and bound. -/
theorem run_bindFunction (answers : Answers) (entry : String × Template) (harrow : entry.2.isArrow = false)
    (hscope : (m.scopeAt scope).data = data) (hdata : data.index < m.heap.size)
    (hplain : (m.objectAt data).elements = none) :
    ∃ m', (newFunction (.closure entry.2 scope none) >>= fun id => setVariable scope entry.1 (.object id)).run answers m =
        .ok () m' ∧
      m'.scopes = m.scopes ∧ m'.heap.size = m.heap.size + 2 ∧
      (∀ id : ObjectId, id.index < m.heap.size → id ≠ data → m'.objectAt id = m.objectAt id) ∧
      (m'.objectAt ⟨m.heap.size⟩).callable = some (.closure entry.2 scope none) ∧
      m'.objectAt data = (m.objectAt data).store (.string entry.1) (.ordinary (.object ⟨m.heap.size⟩)) := by
  obtain ⟨m₁, hmade, hsize, hcallable, hkept, hscopes⟩ := run_newFunction answers harrow scope m
  have hdata₁ : (m₁.scopeAt scope).data = data := by
    simpa only [State.scopeAt, hscopes] using hscope
  have hinsert : (m₁.objectAt data).insertValue entry.1 (.object ⟨m.heap.size⟩) =
      (m.objectAt data).store (.string entry.1) (.ordinary (.object ⟨m.heap.size⟩)) := by
    rw [hkept data hdata]
    simp only [Object.insertValue, Object.insert, hplain]
  let o := (m.objectAt data).store (.string entry.1) (.ordinary (.object ⟨m.heap.size⟩))
  refine ⟨{ m₁ with toState := m₁.toState.setObject data o }, ?_, hscopes, ?_, fun id hid hne => ?_, ?_, ?_⟩
  · simp only [bind, run, hmade, setVariable, changeNames, Machine.updated, Update.apply.eq_def, hdata₁,
      State.changeObject_eq, hinsert]
    rfl
  · simp [State.setObject, hsize]
  · rw [State.objectAt_setObject, if_neg fun h => hne h.1]
    exact hkept id hid
  · have hne : (⟨m.heap.size⟩ : ObjectId) ≠ data := fun h => by
      subst h
      exact Nat.lt_irrefl _ hdata
    rw [State.objectAt_setObject, if_neg fun h => hne h.1]
    exact hcallable
  · rw [State.objectAt_setObject, if_pos ⟨rfl, by omega⟩]

/-- **Instantiating functions makes and binds each of them**; the last one of a name stays. -/
theorem run_instantiate (answers : Answers) (harrow : ∀ entry ∈ functions, entry.2.isArrow = false)
    (hscope : (m.scopeAt scope).data = data) (hdata : data.index < m.heap.size)
    (hplain : (m.objectAt data).elements = none) :
    ∃ m', (instantiate functions scope).run answers m = .ok () m' ∧ Instantiated functions scope data m m' := by
  induction functions generalizing m with
  | nil =>
    refine ⟨m, rfl, rfl, Nat.le_refl _, hplain, fun _ _ _ => rfl, fun _ _ => rfl, fun front entry back h => ?_⟩
    cases front <;> cases h
  | cons entry rest ih =>
    obtain ⟨m₁, hfirst, hscopes₁, hsize₁, hkept₁, hcallable₁, hdata₁⟩ :=
      run_bindFunction answers entry (harrow entry List.mem_cons_self) hscope hdata hplain
    have hplain₁ : (m₁.objectAt data).elements = none := by
      rw [hdata₁]
      unfold Object.store
      split <;> exact hplain
    obtain ⟨m', hrest, hins⟩ := ih (m := m₁) (fun other hother => harrow other (List.mem_cons_of_mem _ hother))
      (by simpa only [State.scopeAt, hscopes₁] using hscope) (by omega) hplain₁
    have hrun : (instantiate (entry :: rest) scope).run answers m = .ok () m' := by
      exact (run_bind_of_ok hfirst).trans hrest
    refine ⟨m', hrun, hins.scopes.trans hscopes₁, by have := hins.grows; omega, hins.plain, fun id hid hne => ?_,
      fun name hname => ?_, fun front other back h hback => ?_⟩
    · rw [hins.kept id (by omega) hne, hkept₁ id hid hne]
    · rw [hins.others name fun other hother => hname other (List.mem_cons_of_mem _ hother), hdata₁]
      exact Object.stored?_store_of_ne (hname entry List.mem_cons_self).symm _
    · cases front with
      | nil =>
        cases h
        have hne : (⟨m.heap.size⟩ : ObjectId) ≠ data := fun h => by
          subst h
          exact Nat.lt_irrefl _ hdata
        refine ⟨⟨m.heap.size⟩, Nat.le_refl _, ?_, ?_⟩
        · rw [hins.others entry.1 hback, hdata₁]
          exact (Object.stored?_store _ _ _ _).trans (if_pos (Key.same_self _))
        · rw [hins.kept _ (by simp only; omega) hne]
          exact hcallable₁
      | cons first front =>
        cases h
        obtain ⟨id, hnew, hstored, hcallable⟩ := hins.bound front other back rfl hback
        exact ⟨id, by omega, hstored, hcallable⟩

/-- The functions of a block are instantiated in its scope before anything else is done in it. -/
theorem run_inBlock (answers : Answers) {α : Type} (frame : LexicalFrame) (x : Eval α) (m : Machine)
    (harrow : ∀ entry ∈ functions, entry.2.isArrow = false) : ∃ m₁ m₂,
      m₁.scope = ⟨m.scopes.size⟩ ∧ (m₁.scopeAt m₁.scope).data = ⟨m.heap.size⟩ ∧
      Instantiated functions m₁.scope ⟨m.heap.size⟩ m₁ m₂ ∧
      (inBlock frame functions x).run answers m =
        onMachine (·.withRegisters fun r => { r with scope := m.scope }) (x.run answers m₂) := by
  let m₀ := finalMachine (m.updated (.newFrame .block (some m.scope) (Scope.recordsOf frame) #[]))
  let m₁ := m₀.withRegisters fun r => { r with scope := ⟨m.scopes.size⟩ }
  have hdata : (m₁.scopeAt ⟨m.scopes.size⟩).data = ⟨m.heap.size⟩ := by
    simp [m₁, m₀, Machine.updated, Update.apply.eq_def, State.pushScope, Machine.withRegisters, finalMachine, State.scopeAt]
  have hsize : m.heap.size < m₁.heap.size := by
    simp [m₁, m₀, Machine.updated, Update.apply.eq_def, State.pushScope, Machine.withRegisters, finalMachine]
  have hplain : (m₁.objectAt ⟨m.heap.size⟩).elements = none := by
    simp [m₁, m₀, Machine.updated, Update.apply.eq_def, State.pushScope, Machine.withRegisters, finalMachine, State.objectAt]
  obtain ⟨m₂, hrun, hins⟩ := run_instantiate answers harrow hdata hsize hplain
  refine ⟨m₁, m₂, rfl, hdata, hins, ?_⟩
  have hscope : currentScope.run answers m = .ok m.scope m := rfl
  have hopen : (newFrame .block m.scope frame).run answers m = .ok ⟨m.scopes.size⟩ m₀ := rfl
  refine (run_bind_of_ok hscope).trans ((run_bind_of_ok hopen).trans ?_)
  have hinner : (instantiate functions ⟨m.scopes.size⟩ >>= fun _ => x).run answers m₁ = x.run answers m₂ :=
    run_bind_of_ok hrun
  simp only [inScope, run, Run.between_eq]
  exact congrArg _ hinner

end Eval

/-! ## 4. Declarations -/

/-- Functions are those of the declarations among statements, and of each name the last one. -/
def Node.Hoists (l : List Node) (depth : Nat) (functions : List (String × Template)) : Prop :=
  ∃ all, List.Forall₂ (Node.Declares depth) (Node.declarations l) all ∧ functions = Lower.keepLast all

/-- Lowering the statements of a body hoists their declarations. -/
theorem Lower.hoists_body {l : List Node} {depth : Nat} {frame : LexicalFrame}
    {functions : Lower (List (String × Template))} {statements : Lower (List Code)}
    (hfunctions : Gives functions (List.Forall₂ (Node.Declares depth) (Node.declarations l))) :
    Gives (body frame functions statements) fun body => body.1 = frame ∧ Node.Hoists l depth body.2.1 :=
  gives_inFrame frame <| hfunctions.bind fun all hall => gives_bind fun _ => gives_pure ⟨rfl, all, hall, rfl⟩

theorem Lower.functions_of_template {kindName name : String} {span : Span} {flags : FunctionFlags} {arity : Nat}
    {bindsSelf isArrow : Bool} {parameters : Lower (List (Pattern × Bool))}
    {functionBody : Lower (LexicalFrame × List (String × Template) × Code)} {P : List (String × Template) → Prop}
    (hbody : Gives functionBody fun body => P body.2.1) :
    Gives (template kindName span flags arity name bindsSelf isArrow parameters functionBody) fun t =>
      P t.hoisted.functions := by
  refine gives_ite (gives_fault _ _ _) ?_
  refine (gives_inBody (P := fun parts => P parts.2.2.1) isArrow ?_).bind fun result hresult => gives_bind fun _ =>
    gives_pure hresult
  exact gives_bind fun _ => hbody.bind fun _ h => gives_pure h

theorem Node.hoists_lowerProgram (l : List Node) (span : Span) :
    Lower.Gives (Node.mk (.program l) span).lowerProgram fun p => Hoists l 0 p.hoisted.functions := by
  refine (Lower.hoists_body (declares_lowerFunctions l 0)).bind fun body hbody => Lower.gives_bind fun s => ?_
  exact Lower.gives_pure hbody.2

theorem Kind.hoists_lower_block (l : List Node) (span : Span) (labels : List String) (depth : Nat) :
    Lower.Gives (Kind.lower (.blockStatement l) span labels depth) fun c =>
      ∃ functions body, c = .block (lexicalFrame l) functions body ∧ Node.Hoists l depth functions := by
  refine (Lower.hoists_body (Node.declares_lowerFunctions l depth)).bind fun body hbody => Lower.gives_pure ?_
  exact ⟨body.2.1, body.2.2, by rw [← hbody.1], hbody.2⟩

theorem Kind.hoists_lower_switch (discriminant : Node) (cases : List Node) (span : Span) (labels : List String)
    (depth : Nat) :
    Lower.Gives (Kind.lower (.switchStatement discriminant cases) span labels depth) fun c =>
      ∃ d frame functions tests bodies, c = .switch d frame functions tests bodies ∧
        Node.Hoists (cases.flatMap Node.consequent) depth functions := by
  refine Lower.gives_bind fun d => Lower.gives_inFrame _ ?_
  refine (Node.declares_lowerCaseFunctions cases depth).bind fun all hall => Lower.gives_bind fun lowered => ?_
  exact Lower.gives_pure ⟨_, _, _, _, _, rfl, all, hall, rfl⟩

theorem exists_of_forall₂ {α β : Type} {R : α → β → Prop} {l : List α} {l' : List β} (h : List.Forall₂ R l l') {b : β}
    (hb : b ∈ l') : ∃ a ∈ l, R a b := by
  obtain ⟨i, hi, rfl⟩ := List.mem_iff_getElem.mp hb
  exact ⟨_, List.getElem_mem _, h.get (h.length_eq ▸ hi) hi⟩

theorem split_of_forall₂ {α β : Type} {R : α → β → Prop} {front back : List α} {a : α} {l : List β}
    (h : List.Forall₂ R (front ++ a :: back) l) :
    ∃ front' b back', l = front' ++ b :: back' ∧ R a b ∧ List.Forall₂ R back back' := by
  induction front generalizing l with
  | nil =>
    obtain ⟨b, back', hab, hback, rfl⟩ := List.forall₂_cons_left_iff.mp h
    exact ⟨[], b, back', rfl, hab, hback⟩
  | cons first front ih =>
    obtain ⟨first', l', -, hrest, rfl⟩ := List.forall₂_cons_left_iff.mp h
    obtain ⟨front', b, back', rfl, hab, hback⟩ := ih hrest
    exact ⟨first' :: front', b, back', rfl, hab, hback⟩

/-- Where the functions of some statements are instantiated, every declaration among these is bound there, if its name is
not declared again behind it. -/
theorem Node.Hoists.instantiated {l : List Node} {depth : Nat} {functions : List (String × Template)}
    (h : Node.Hoists l depth functions) (answers : Answers) {m : Machine} {scope : ScopeId} {data : ObjectId}
    (hscope : (m.scopeAt scope).data = data) (hdata : data.index < m.heap.size)
    (hplain : (m.objectAt data).elements = none) :
    ∃ m', (Eval.instantiate functions scope).run answers m = .ok () m' ∧
      ∀ front n back, Node.declarations l = front ++ n :: back →
        (∀ other ∈ back, other.functionName? ≠ n.functionName?) →
          ∃ (entry : String × Template) (id : ObjectId), n.Declares depth entry ∧ m.heap.size ≤ id.index ∧
            (m'.objectAt data).stored? (.string entry.1) = some (.ordinary (.object id)) ∧
            (m'.objectAt id).callable = some (.closure entry.2 scope none) := by
  obtain ⟨all, hall, rfl⟩ := h
  have harrow : ∀ entry ∈ Lower.keepLast all, entry.2.isArrow = false := by
    intro entry hentry
    obtain ⟨n, -, hn⟩ := exists_of_forall₂ hall (Lower.mem_of_mem_keepLast hentry)
    exact hn.isArrow
  obtain ⟨m', hrun, hins⟩ := Eval.run_instantiate answers harrow hscope hdata hplain
  refine ⟨m', hrun, fun front n back hl hback => ?_⟩
  rw [hl] at hall
  obtain ⟨front', entry, back', rfl, hn, hrest⟩ := split_of_forall₂ hall
  have hlast : ∀ other ∈ back', other.1 ≠ entry.1 := by
    intro other hother hsame
    obtain ⟨n', hn', hdeclares⟩ := exists_of_forall₂ hrest hother
    exact hback n' hn' (by rw [hdeclares.name, hn.name, hsame])
  obtain ⟨f, b, hkept⟩ := List.append_of_mem (Lower.mem_keepLast front' back' hlast)
  have hpairwise := Lower.pairwise_keepLast (front' ++ entry :: back')
  rw [hkept] at hpairwise
  have hb : ∀ other ∈ b, other.1 ≠ entry.1 :=
    (List.pairwise_cons.mp (List.pairwise_append.mp hpairwise).2.1).1
  obtain ⟨id, hnew, hstored, hcallable⟩ := hins.bound f entry b hkept hb
  exact ⟨entry, id, hn, hnew, hstored, hcallable⟩

/-- **Which function declarations are instantiated.** Lowering a program, the body of a function, a block or a switch
hoists the declarations among their statements; where they are entered, each of these is made and bound, unless its name
is declared again behind it. A declaration that is lowered in any other place comes to nothing. -/
theorem declarations_instantiated (l : List Node) (depth : Nat) :
    (∀ span, Lower.Gives (Node.mk (.program l) span).lowerProgram fun p => Node.Hoists l 0 p.hoisted.functions) ∧
    (∀ span kindName span' flags arity name bindsSelf isArrow params,
      Lower.Gives (Lower.template kindName span' flags arity name bindsSelf isArrow (Node.lowerParameters params depth)
        ((Node.mk (.blockStatement l) span).lowerBody depth)) fun t => Node.Hoists l depth t.hoisted.functions) ∧
    (∀ span labels, Lower.Gives (Kind.lower (.blockStatement l) span labels depth) fun c =>
      ∃ functions body, c = .block (lexicalFrame l) functions body ∧ Node.Hoists l depth functions) ∧
    (∀ discriminant cases span labels,
      Lower.Gives (Kind.lower (.switchStatement discriminant cases) span labels depth) fun c =>
        ∃ d frame functions tests bodies, c = .switch d frame functions tests bodies ∧
          Node.Hoists (cases.flatMap Node.consequent) depth functions) ∧
    (∀ functions, Node.Hoists l depth functions → ∀ answers (m : Machine) scope data,
      (m.scopeAt scope).data = data → data.index < m.heap.size → (m.objectAt data).elements = none →
        ∃ m', (Eval.instantiate functions scope).run answers m = .ok () m' ∧
          ∀ front n back, Node.declarations l = front ++ n :: back →
            (∀ other ∈ back, other.functionName? ≠ n.functionName?) →
              ∃ (entry : String × Template) (id : ObjectId), n.Declares depth entry ∧ m.heap.size ≤ id.index ∧
                (m'.objectAt data).stored? (.string entry.1) = some (.ordinary (.object id)) ∧
                (m'.objectAt id).callable = some (.closure entry.2 scope none)) ∧
    (∀ answers (m : Machine) frame functions (x : Eval Completion), (∀ entry ∈ functions, entry.2.isArrow = false) →
      ∃ m₁ m₂, m₁.scope = ⟨m.scopes.size⟩ ∧ (m₁.scopeAt m₁.scope).data = ⟨m.heap.size⟩ ∧
        Eval.Instantiated functions m₁.scope ⟨m.heap.size⟩ m₁ m₂ ∧
        (Eval.inBlock frame functions x).run answers m =
          onMachine (·.withRegisters fun r => { r with scope := m.scope }) (x.run answers m₂)) ∧
    ∀ id params body flags span labels,
      Kind.lower (.function .declaration id params body flags) span labels depth = pure .empty :=
  ⟨Node.hoists_lowerProgram l,
    fun _ _ _ _ _ _ _ _ _ => Lower.functions_of_template
      ((Lower.hoists_body (Node.declares_lowerFunctions l depth)).mono fun _ h => h.2),
    fun span labels => Kind.hoists_lower_block l span labels depth,
    fun discriminant cases span labels => Kind.hoists_lower_switch discriminant cases span labels depth,
    fun _ h answers _ _ _ hscope hdata hplain => h.instantiated answers hscope hdata hplain,
    fun answers m frame _ x harrow => Eval.run_inBlock answers frame x m harrow,
    fun _ _ _ _ _ _ => rfl⟩

/-- How many functions a text instantiates. -/
def Program.functionCount? (text : String) : Option Nat :=
  ((parse text {}).toOption.bind fun n => (ofTree n none).toOption).map fun p => p.hoisted.functions.length

/-- The function that is the branch of an `if` is never made. -/
theorem Program.functionCount?_branch : functionCount? "if (true) function f() {}" = some 0 ∧
    functionCount? "function f() {}" = some 1 := by
  decide +kernel

end GuestScript
