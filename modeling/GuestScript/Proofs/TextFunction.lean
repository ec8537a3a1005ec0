import GuestScript.Proofs.Attempt
import GuestScript.Proofs.Mirror.Update
import GuestScript.Proofs.Lowered
import GuestScript.Context

/-!
# Functions that are made from texts

A function can be made from the texts of its parameters and of its body: the texts are pasted into a frame, and the
whole is evaluated as a program in the global scope. This says what can come of it (`TextFunction.Ends`):

* a text cannot be had from an argument, or the whole is no program, and nothing of it is run;
* the program is one function expression, and all that is done is to make that function;
* the texts close the frame, and the program is run like any other one.

The last case is the one that a caller would not expect. It is told from the one before it by the program alone
(`Program.onlyFunction?`), and the tree of one function expression is never there (`Program.onlyFunction_ofTree`).
-/

namespace GuestScript

variable {template : Template} {outer inner : Option Position} {r : EStateM.Result Stop Machine Value} {text : String}

/-! ## 1. Programs that are one function -/

/-- The function of a program that is one function expression, with the places of the statement and of the function. -/
def Program.onlyFunction? : Program → Option (Template × Option Position × Option Position)
  | ⟨.mk [] [] [] _, .sequence [.step outer (.expression (.step inner (.function template)))]⟩ =>
    some (template, outer, inner)
  | _ => none

namespace Eval

/-- Make a function, and note it as the result: a step for the statement, and one for the function. -/
def makeOnly (template : Template) (outer inner : Option Position) : Eval Value := do
  tick outer
  tick inner
  let f ← functionValue template
  noteResult f.toValue
  pure f.toValue

section

variable {n : Nat} {m : Machine} {α : Type} {x : Eval α} {r : EStateM.Result Stop Machine α} {d : Log}

/-- An action that is run in the current scope is run as it is. -/
theorem Does.inCurrentScope (h : x.Does n m r d) : (Eval.inScope m.scope x).Does n m r d := by
  have hback : onMachine (·.withRegisters fun r => { r with scope := m.scope }) r = r := by
    have hb := run_balanced (answers_balanced n) x m
    rw [h.result] at hb
    cases r with
    | ok a m' =>
      have hscope : m'.scope = m.scope := hb.scope
      simp only [onMachine, Machine.withRegisters, ← hscope]
    | error s m' =>
      have hscope : m'.scope = m.scope := hb.scope
      simp only [onMachine, Machine.withRegisters, ← hscope]
  rw [← hback]
  exact Does.inScope h

/-- Outside all functions a value is kept as the result. -/
theorem does_noteResult (n : Nat) {m : Machine} (hcalls : m.calls = []) (v : Value) :
    (noteResult v).Does n m (.ok () { m with result := v }) [.start (update (.result v)) m] := by
  refine ⟨?_, rfl⟩
  simp [noteResult, run, Machine.updated, Update.apply.eq_def, hcalls]

theorem calls_of_does {a : α} {m' : Machine} (hx : x.Does n m (.ok a m') d) : m'.calls = m.calls := by
  have hb := run_balanced (answers_balanced n) x m
  rw [hx.result] at hb
  exact hb.calls

end

/-- The statement of such a program, and then a look at the result. -/
theorem does_onlyStatement (n : Nat) {m : Machine} (hcalls : m.calls = []) (template : Template)
    (outer inner : Option Position) : ∃ r d, (makeOnly template outer inner).Does n m r d ∧
      ∃ result, (sequence [step outer (expressionStatement (step inner (functionValue template)))] .empty).Does n m
          result d ∧
        ((∃ s m', r = .error s m' ∧ result = .error s m') ∨
          ∃ v m', r = .ok v m' ∧ m'.result = v ∧ result = .ok (.value v) m') := by
  obtain ⟨r₁, d₁, houter⟩ := (tick outer).exists_does n m
  cases r₁ with
  | error s m₁ =>
    exact ⟨_, _, houter.bind_error, _, (houter.bind_error.bind_error : Does _ _ _ _ _), .inl ⟨s, m₁, rfl, rfl⟩⟩
  | ok _ m₁ =>
    obtain ⟨r₂, d₂, hinner⟩ := (tick inner).exists_does n m₁
    cases r₂ with
    | error s m₂ =>
      have hstatement : (expressionStatement (step inner (functionValue template))).Does n m₁ (.error s m₂) d₂ :=
        hinner.bind_error.bind_error.bind_error
      exact ⟨_, _, houter.bind hinner.bind_error, _, (houter.bind hstatement).bind_error, .inl ⟨s, m₂, rfl, rfl⟩⟩
    | ok _ m₂ =>
      obtain ⟨r₃, d₃, hmade⟩ := (functionValue template).exists_does n m₂
      cases r₃ with
      | error s m₃ =>
        have hstatement : (expressionStatement (step inner (functionValue template))).Does n m₁ (.error s m₃) (d₂ ++ d₃) :=
          (hinner.bind hmade).bind_error.bind_error
        exact ⟨_, _, houter.bind (hinner.bind hmade.bind_error), _, (houter.bind hstatement).bind_error,
          .inl ⟨s, m₃, rfl, rfl⟩⟩
      | ok f m₃ =>
        have hcalls₃ : m₃.calls = [] := by
          rw [calls_of_does hmade, calls_of_does hinner, calls_of_does houter, hcalls]
        have hnote := does_noteResult n hcalls₃ f.toValue
        have hvalue : (valueOf (step inner (functionValue template))).Does n m₁ (.ok f.toValue m₃) (d₂ ++ d₃) :=
          (hinner.bind hmade).bind_nil (does_pure n _ _)
        have hstatement : (expressionStatement (step inner (functionValue template))).Does n m₁
            (.ok (.value f.toValue) { m₃ with result := f.toValue }) (d₂ ++ d₃ ++ [.start (update (.result f.toValue)) m₃]) :=
          hvalue.bind (hnote.bind_nil (does_pure n _ _))
        have hfirst : (step outer (expressionStatement (step inner (functionValue template)))).Does n m
            (.ok (.value f.toValue) { m₃ with result := f.toValue })
            (d₁ ++ (d₂ ++ d₃ ++ [.start (update (.result f.toValue)) m₃])) := houter.bind hstatement
        have hmake : (makeOnly template outer inner).Does n m (.ok f.toValue { m₃ with result := f.toValue })
            (d₁ ++ (d₂ ++ (d₃ ++ [.start (update (.result f.toValue)) m₃]))) :=
          houter.bind (hinner.bind (hmade.bind (hnote.bind_nil (does_pure n f.toValue _))))
        rw [← List.append_assoc d₂] at hmake
        exact ⟨_, _, hmake, _, hfirst.bind_nil (does_pure n (Completion.value f.toValue) _),
          .inr ⟨f.toValue, _, rfl, rfl, rfl⟩⟩

/-- **A program that is one function expression only makes that function.** -/
theorem does_execute_iff {p : Program} (hp : p.onlyFunction? = some (template, outer, inner)) {n : Nat} {m : Machine}
    (hcalls : m.calls = []) {d : Log} :
    (execute p).Does n m r d ↔ (makeOnly template outer inner).Does n m r d := by
  obtain ⟨uses, rfl⟩ : ∃ uses, p = ⟨.mk [] [] [] uses,
      .sequence [.step outer (.expression (.step inner (.function template)))]⟩ := by
    unfold Program.onlyFunction? at hp
    split at hp
    · cases hp
      exact ⟨_, rfl⟩
    · cases hp
  obtain ⟨r', d', hmake, result, hstatement, hresult⟩ := does_onlyStatement n hcalls template outer inner
  have hexecute : (execute ⟨.mk [] [] [] uses,
      .sequence [.step outer (.expression (.step inner (.function template)))]⟩).Does n m r' d' := by
    have htarget : (read State.variableScope).Does n m (.ok m.variableScope m) [] := ⟨rfl, rfl⟩
    have hscope : currentScope.Does n m (.ok m.scope m) [] := ⟨rfl, rfl⟩
    refine htarget.bind ((does_pure n _ m).bind ((does_pure n _ m).bind (hscope.bind ((does_pure n m.scope m).bind ?_))))
    rcases hresult with ⟨s, m', rfl, rfl⟩ | ⟨v, m', rfl, hv, rfl⟩
    · exact hstatement.inCurrentScope.bind_error
    · refine hstatement.inCurrentScope.bind_nil ⟨?_, rfl⟩
      rw [← hv]
      rfl
  constructor
  · intro h
    obtain ⟨rfl, rfl⟩ := h.unique hexecute
    exact hmake
  · intro h
    obtain ⟨rfl, rfl⟩ := h.unique hmake
    exact hexecute

end Eval

/-! ## 2. What is made -/

section

variable {n : Nat} {m m' : Machine} {d : Log}

theorem Eval.heap_of_tick {position : Option Position} (h : (tick position).Does n m (.ok () m') d) :
    m'.heap = m.heap ∧ m'.scope = m.scope := by
  rcases h.of_bind with ⟨s, m₁, -, hr⟩ | ⟨_, m₁, d₁, d₂, hcharge, hplace, -⟩
  · cases hr
  have hcharged : m₁.heap = m.heap ∧ m₁.scope = m.scope := by
    have hresult : m.charged = .ok () m₁ := hcharge.result
    unfold Machine.charged at hresult
    split at hresult
    · cases hresult
    dsimp only at hresult
    split at hresult
    · cases hresult
    · cases hresult
      exact ⟨rfl, rfl⟩
  cases position with
  | none =>
    obtain ⟨hr, -⟩ := hplace.unique (Eval.does_pure n () m₁)
    cases hr
    exact hcharged
  | some p =>
    have hresult : m₁.updated (.position p) = .ok () m' := hplace.result
    cases hresult
    exact hcharged

theorem Object.callable_insert (o : Object) (name : String) (p : Property) :
    (o.insert name p).callable = o.callable := by
  have hstore (o : Object) (key : Key) : (o.store key p).callable = o.callable := by
    unfold Object.store
    split <;> rfl
  unfold Object.insert
  split
  · split
    · rfl
    · exact hstore o _
  · exact hstore o _

/-- A function and its prototype take the next two addresses, and no other object and no scope changes. -/
theorem Eval.run_newFunction (answers : Answers) (harrow : template.isArrow = false) (scope : ScopeId) (m : Machine) :
    ∃ m', (newFunction (.closure template scope none)).run answers m = .ok ⟨m.heap.size⟩ m' ∧
      m'.heap.size = m.heap.size + 2 ∧
      (m'.objectAt ⟨m.heap.size⟩).callable = some (.closure template scope none) ∧
      (∀ id : ObjectId, id.index < m.heap.size → m'.objectAt id = m.objectAt id) ∧ m'.scopes = m.scopes := by
  simp only [newFunction, harrow, Bool.not_false, if_true, allocate, modifyObject, updateObject, bind, pure, run,
    Machine.updated, Update.apply.eq_def, State.changeObject_eq]
  refine ⟨_, rfl, ?_, ?_, fun id hid => ?_, rfl⟩
  · simp [State.setObject]
  · have hlt : m.heap.size < m.heap.size + 1 + 1 := by omega
    simp [State.objectAt, State.setObject, functionObject, Array.getElem_push, hlt, Object.callable_insert]
  · have hne : m.heap.size ≠ id.index := by omega
    have hne' : id.index ≠ m.heap.size + 1 := by omega
    simp [State.objectAt, State.setObject, Array.getElem?_setIfInBounds_ne hne, Array.getElem?_push, hne', hne.symm]

/-- A value is a new function with a template, in a scope, and only its prototype is new besides. -/
structure Machine.Makes (m : Machine) (template : Template) (scope : ScopeId) (v : Value) (m' : Machine) : Prop where
  value : v = .object ⟨m.heap.size⟩
  size : m'.heap.size = m.heap.size + 2
  callable : (m'.objectAt ⟨m.heap.size⟩).callable = some (.closure template scope none)
  kept : ∀ id : ObjectId, id.index < m.heap.size → m'.objectAt id = m.objectAt id

theorem Eval.made_of_makeOnly (harrow : template.isArrow = false) {v : Value}
    (h : (makeOnly template outer inner).Does n m (.ok v m') d) : m.Makes template m.scope v m' := by
  rcases h.of_bind with ⟨s, m₁, -, hr⟩ | ⟨_, m₁, d₁, d₂, houter, h₁, -⟩
  · cases hr
  rcases h₁.of_bind with ⟨s, m₂, -, hr⟩ | ⟨_, m₂, d₃, d₄, hinner, h₂, -⟩
  · cases hr
  obtain ⟨hheap₁, hscope₁⟩ := heap_of_tick houter
  obtain ⟨hheap₂, hscope₂⟩ := heap_of_tick hinner
  have hheap : m₂.heap = m.heap := hheap₂.trans hheap₁
  have hscope : m₂.scope = m.scope := hscope₂.trans hscope₁
  obtain ⟨m₃, hmade, hsize, hcallable, hkept, -⟩ := run_newFunction (answers n) harrow m.scope m₂
  have hvalue : (functionValue template).run (answers n) m₂ = .ok (.value (.object ⟨m₂.heap.size⟩)) m₃ := by
    simp only [functionValue, currentReceiver, currentScope, harrow, bind, pure, run, hscope]
    simp [hmade]
  have hnoted (v : Value) : ∃ m₄, (noteResult v).run (answers n) m₃ = .ok () m₄ ∧ m₄.heap = m₃.heap := by
    refine ⟨_, rfl, ?_⟩
    dsimp only
    split <;> rfl
  obtain ⟨m₄, hnote, hheap₄⟩ := hnoted (.object ⟨m₂.heap.size⟩)
  have hresult := h₂.result
  simp only [bind, pure, run, hvalue, Completion.toValue, hnote] at hresult
  cases hresult
  rw [hheap] at hsize hcallable hkept ⊢
  refine ⟨rfl, by rw [hheap₄, hsize], ?_, fun id hid => ?_⟩
  · simpa only [State.objectAt, hheap₄] using hcallable
  · simpa only [State.objectAt, hheap₄, hheap] using hkept id hid

end

/-! ## 3. Trees that are one function -/

namespace Lower

variable {kindName name : String} {span : Span} {flags : FunctionFlags} {arity : Nat} {bindsSelf : Bool}
  {parameters : Lower (List (Pattern × Bool))}
  {functionBody : Lower (LexicalFrame × List (String × Template) × Code)} {s s' : Lowering} {t : Template}

/-- A function that is no arrow leaves no trace in the bodies around it. -/
theorem bodies_of_template
    (h : Lower.template kindName span flags arity name bindsSelf false parameters functionBody s = .ok t s') :
    s'.bodies = s.bodies ∧ t.isArrow = false := by
  unfold template at h
  split at h
  · cases h
  obtain ⟨⟨⟨ps, frame, functions, code⟩, b⟩, s₁, hbody, h⟩ := of_bind h
  obtain ⟨text, s₂, htext, h⟩ := of_bind h
  cases htext
  cases h
  obtain ⟨outer, s₃, houter, hbody⟩ := of_bind hbody
  cases houter
  obtain ⟨_, s₄, hopen, hbody⟩ := of_bind hbody
  obtain ⟨parts, s₅, hparts, hbody⟩ := of_bind hbody
  obtain ⟨s₆, s₇, hget, hbody⟩ := of_bind hbody
  cases hget
  obtain ⟨_, s₈, hset, hbody⟩ := of_bind hbody
  cases hset
  cases hbody
  exact ⟨rfl, rfl⟩

end Lower

section

variable {id : Option Node} {params : List Node} {body : Node} {flags : FunctionFlags} {outer inner span : Span}
  {directive source : Option String} {p : Program}

/-- The function that a function expression is lowered to, in a program of its own. -/
def Node.expressionTemplate (id : Option Node) (params : List Node) (body : Node) (flags : FunctionFlags)
    (span : Span) : Lower Template :=
  Lower.template "FunctionExpression" span flags (Lower.leadingParameters params) ((Lower.nameOf? id).getD "")
    (Lower.nameOf? id).isSome false (Node.lowerParameters params 2) (body.lowerBody 2)

/-- A function expression in a place of its own is lowered to a step. -/
theorem Node.of_lower_expression {s s' : Lowering} {c : Code}
    (h : (Node.mk (.function .expression id params body flags) inner).lower 1 s = .ok c s') :
    ∃ t, expressionTemplate id params body flags inner s = .ok t s' ∧ c = .step inner.position (.function t) := by
  obtain ⟨_, s₁, hcheck, h⟩ := Lower.of_bind h
  cases hcheck
  obtain ⟨f, s₂, hf, h⟩ := Lower.of_bind h
  cases h
  change (expressionTemplate id params body flags inner >>= fun t => pure (Code.function t)) _ = _ at hf
  obtain ⟨t, s₃, ht, hf⟩ := Lower.of_bind hf
  cases hf
  exact ⟨t, ht, rfl⟩

/-- A program is lowered from its functions and its statements. -/
theorem Node.of_lowerProgram {l : List Node} {s s' : Lowering}
    (h : (Node.mk (.program l) span).lowerProgram s = .ok p s') :
    ∃ functions statements s₁ s₂ s₃, Lower.modifyBody (fun b => { b with frames := lexicalFrame l :: b.frames }) s = .ok () s₁ ∧
      lowerFunctions l 0 s₁ = .ok functions s₂ ∧ lowerStatements l 0 s₂ = .ok statements s₃ ∧
      p = ⟨.mk (s₃.bodies.headD {}).vars.toList (Lower.keepLast functions) (lexicalFrame l)
        (s₃.bodies.headD {}).usesArguments, .sequence statements⟩ := by
  obtain ⟨⟨frame, functions, code⟩, s₁, hbody, hp⟩ := Lower.of_bind h
  obtain ⟨s₂, s₃, hget, hp⟩ := Lower.of_bind hp
  obtain ⟨_, s₄, hopen, hbody⟩ := Lower.of_bind hbody
  obtain ⟨parts, s₅, hparts, hbody⟩ := Lower.of_bind hbody
  obtain ⟨functions', s₆, hfunctions, hparts⟩ := Lower.of_bind hparts
  obtain ⟨statements, s₇, hstatements, hparts⟩ := Lower.of_bind hparts
  obtain ⟨_, s₈, hclose, hbody⟩ := Lower.of_bind hbody
  cases hparts
  cases hget
  cases hbody
  cases hclose
  refine ⟨functions', statements, s₄, s₆, s₅, hopen, hfunctions, hstatements, ?_⟩
  obtain ⟨text, bodies⟩ := s₅
  cases bodies with
  | nil =>
    cases hp
    rfl
  | cons b rest =>
    cases hp
    rfl

/-- **A tree that is one function expression gives a program that is that function.** -/
theorem Program.onlyFunction_ofTree
    (h : Program.ofTree (.mk (.program [.mk (.expressionStatement (.mk (.function .expression id params body flags) inner)
      directive) outer]) span) source = .ok p) :
    ∃ s s' t, Node.expressionTemplate id params body flags inner s = .ok t s' ∧ s.source = source ∧
      t.isArrow = false ∧ p.onlyFunction? = some (t, outer.position, inner.position) := by
  unfold Program.ofTree at h
  split at h
  · rename_i p' s' hp
    cases h
    obtain ⟨functions, statements, s₁, s₂, s₃, hopen, hfunctions, hstatements, rfl⟩ := Node.of_lowerProgram hp
    cases hopen
    cases hfunctions
    obtain ⟨c, s₄, hc, hstatements⟩ := Lower.of_bind hstatements
    cases hstatements
    obtain ⟨_, s₅, hcheck, hc⟩ := Lower.of_bind hc
    cases hcheck
    obtain ⟨c', s₆, hc', hc⟩ := Lower.of_bind hc
    cases hc
    change (Node.lower (.mk (.function .expression id params body flags) inner) 1 >>= fun c => pure (Code.expression c)) _ = _
      at hc'
    obtain ⟨c₁, s₇, hc₁, hc'⟩ := Lower.of_bind hc'
    cases hc'
    obtain ⟨t, ht, rfl⟩ := Node.of_lower_expression hc₁
    obtain ⟨hbodies, harrow⟩ := Lower.bodies_of_template ht
    refine ⟨_, _, t, ht, rfl, harrow, ?_⟩
    rw [hbodies]
    rfl
  · cases h

end

/-! ## 4. Making functions -/

/-- The bindings that a host names, or new ones. -/
def Session.orNewBindings : Option ObjectId → Session ObjectId
  | some id => pure id
  | none => newBindings

/-- Run an action as a program is run, from a fresh state. -/
def Session.runAs (x : Eval Value) : Session Value := do
  restart
  let result ← fun m =>
    match x.runOn m with
    | .ok v m => .ok v (returned m)
    | .error s m => surface s (returned m)
  ofEval (Eval.hideGlobal result)

/-- Run a program; one that is only a function just makes it. -/
def Program.outcome (p : Program) : Eval Value :=
  match p.onlyFunction? with
  | some (template, outer, inner) => Eval.makeOnly template outer inner
  | none => Eval.execute p

/-- The program that a text spells, with its tree. -/
def Rules.Spells (rules : Rules) (text : String) (tree : Node) (p : Program) : Prop :=
  ∃ parser, rules.parser = some parser ∧
    parser text { ecmaVersion := rules.ecmaVersion, allowReturn := false } = .ok tree ∧
    Program.ofTree tree (some text) = .ok p

/-- A tree that is a program of one function expression. -/
def Node.IsOnlyFunction (n : Node) : Prop :=
  ∃ id params body flags inner directive outer span,
    n = .mk (.program [.mk (.expressionStatement (.mk (.function .expression id params body flags) inner) directive)
      outer]) span

namespace TextFunction

/-- The text that is evaluated to make a function from the texts of its parameters and of its body: the body stands on
lines of its own. -/
def inLines (texts : List String) : String :=
  "(function anonymous(" ++ ",".intercalate texts.dropLast ++ "\n) \x7b\n" ++ texts.getLast?.getD "" ++ "\n\x7d);"

/-- The text that a host evaluates to make a function: all of it stands on one line. -/
def inOneLine (params : List String) (code : String) : String :=
  "(function anonymous(" ++ ",".intercalate params ++ ")\x7b " ++ code ++ " \x7d);"

/-- The frame that the program is run in: the global scope, for the object of bindings. -/
def frame (m : Machine) : Frame :=
  .program m.globalScope (.object m.bindings)

/-- How making a function from texts ends, and what it does. -/
inductive Ends (n : Nat) (args : Array Value) (m : Machine) : EStateM.Result Stop Machine Value → Log → Prop where
  /-- An argument has no text. -/
  | argument {s : Stop} {m₁ : Machine} {d : Log} (htexts : (args.toList.mapM Eval.toText).Does n m (.error s m₁) d) :
      Ends n args m (.error s m₁) d
  /-- The whole text is no program: it is refused, and nothing of it is run. -/
  | refused {texts : List String} {m₁ m₂ : Machine} {s : Stop} {d d' : Log}
      (htexts : (args.toList.mapM Eval.toText).Does n m (.ok texts m₁) d)
      (hwhole : ∀ tree p, ¬ m₁.rules.Spells (inLines texts) tree p)
      (hrefused : (Eval.compileText (inLines texts)).Does n m₁ (.error s m₂) d') :
      Ends n args m (.error s m₂) (d ++ d')
  /-- The whole text is only a function, and all that is done is to make it. -/
  | makes {texts : List String} {m₁ : Machine} {tree : Node} {p : Program} {template : Template}
      {outer inner : Option Position} {r : EStateM.Result Stop Machine Value} {d d' : Log}
      (htexts : (args.toList.mapM Eval.toText).Does n m (.ok texts m₁) d)
      (hwhole : m₁.rules.Spells (inLines texts) tree p) (honly : p.onlyFunction? = some (template, outer, inner))
      (hdoes : (Eval.within (frame m₁) (Eval.makeOnly template outer inner)).Does n m₁ r d')
      (hmade : template.isArrow = false → ∀ v m₂, r = .ok v m₂ → m₁.Makes template m₁.globalScope v m₂) :
      Ends n args m r (d ++ d')
  /-- The whole text is any other program, and that is run. -/
  | runs {texts : List String} {m₁ : Machine} {tree : Node} {p : Program}
      {r : EStateM.Result Stop Machine Value} {d d' : Log}
      (htexts : (args.toList.mapM Eval.toText).Does n m (.ok texts m₁) d)
      (hwhole : m₁.rules.Spells (inLines texts) tree p) (honly : p.onlyFunction? = none) (hother : ¬ tree.IsOnlyFunction)
      (hdoes : (Eval.within (frame m₁) (Eval.execute p)).Does n m₁ r d') :
      Ends n args m r (d ++ d')

end TextFunction

section

variable {n : Nat} {m m' : Machine} {d : Log} {p : Program}

/-- Running a program does what its outcome does. -/
theorem Eval.does_outcome_iff (p : Program) (hcalls : m.calls = []) :
    p.outcome.Does n m r d ↔ (execute p).Does n m r d := by
  cases honly : p.onlyFunction? with
  | none => simp only [Program.outcome, honly]
  | some parts =>
    obtain ⟨template, outer, inner⟩ := parts
    simp only [Program.outcome, honly]
    exact (does_execute_iff honly hcalls).symm

/-- Inside of a frame it only matters what an action does there. -/
theorem Eval.does_within_congr {α : Type} {x y : Eval α} {frame : Frame}
    (h : ∀ r d, x.Does n (m.withRegisters frame.enter) r d ↔ y.Does n (m.withRegisters frame.enter) r d)
    {r : EStateM.Result Stop Machine α} : (within frame x).Does n m r d ↔ (within frame y).Does n m r d := by
  obtain ⟨r', d', hx⟩ := x.exists_does n (m.withRegisters frame.enter)
  have hy := (h r' d').mp hx
  have hxy (z : Eval α) (hz : z.Does n (m.withRegisters frame.enter) r' d') :
      (within frame z).Does n m (onMachine (·.withRegisters (frame.leave m.toRegisters)) r') d' := by
    refine ⟨?_, (deeds_within _ _ m frame z).trans hz.deeds⟩
    rw [run, Run.between_eq, hz.result]
  constructor
  · intro hr
    obtain ⟨rfl, rfl⟩ := hr.unique (hxy x hx)
    exact hxy y hy
  · intro hr
    obtain ⟨rfl, rfl⟩ := hr.unique (hxy y hy)
    exact hxy x hx

/-- A text is a program, and then compiling it does nothing, or it is refused. -/
theorem Eval.compileText_cases (n : Nat) (m : Machine) (text : String) :
    (∃ tree p, m.rules.Spells text tree p ∧ (compileText text).Does n m (.ok p m) []) ∨
      ((∀ tree p, ¬ m.rules.Spells text tree p) ∧ ∃ s m' d, (compileText text).Does n m (.error s m') d) := by
  have hrules : (read State.rules).Does n m (.ok m.rules m) [] := ⟨rfl, rfl⟩
  have hthrow (kind : ErrorKind) (message : String) :
      ∃ s m' d, (throwFault kind message : Eval Program).Does n m (.error s m') d := by
    obtain ⟨r, d, h⟩ := (throwFault kind message : Eval Program).exists_does n m
    rcases h.of_bind with ⟨s, m₁, hs, rfl⟩ | ⟨v, m₁, d₁, d₂, hv, hr, rfl⟩
    · exact ⟨s, m₁, d, h⟩
    · obtain ⟨rfl, rfl⟩ := hr.unique (does_throwValue n _ m₁)
      exact ⟨_, _, _, h⟩
  unfold compileText
  cases hparser : m.rules.parser with
  | none =>
    refine .inr ⟨?_, .interrupt (.of .missingParser "" none), m, _, hrules.bind (?_ : Does n _ m _ [])⟩
    · rintro tree p ⟨parser, hsome, -⟩
      cases hparser.symm.trans hsome
    · simp only [hparser]
      exact ⟨rfl, rfl⟩
  | some parser =>
    cases htree : parser text { ecmaVersion := m.rules.ecmaVersion, allowReturn := false } with
    | error e =>
      obtain ⟨s, m', d, hfault⟩ := hthrow .syntaxError e.message
      refine .inr ⟨?_, s, m', _, hrules.bind (?_ : Does n _ m _ d)⟩
      · rintro tree p ⟨parser', hsome, hok, -⟩
        cases hparser.symm.trans hsome
        cases htree.symm.trans hok
      · simp only [hparser, htree]
        exact hfault
    | ok tree =>
      cases hp : Program.ofTree tree (some text) with
      | ok p =>
        refine .inl ⟨tree, p, ⟨parser, hparser, htree, hp⟩, hrules.bind (?_ : Does n _ m _ [])⟩
        simp only [hparser, htree, compileTree, hp]
        exact does_pure n p m
      | error e =>
        have hnone (tree' : Node) (p : Program) : ¬ m.rules.Spells text tree' p := by
          rintro ⟨parser', hsome, hok, hp'⟩
          cases hparser.symm.trans hsome
          cases htree.symm.trans hok
          cases hp.symm.trans hp'
        cases e with
        | interrupt i =>
          refine .inr ⟨hnone, .interrupt i, m, _, hrules.bind (?_ : Does n _ m _ [])⟩
          simp only [hparser, htree, compileTree, hp]
          exact ⟨rfl, rfl⟩
        | guest kind message =>
          obtain ⟨s, m', d, hfault⟩ := hthrow kind message
          refine .inr ⟨hnone, s, m', _, hrules.bind (?_ : Does n _ m _ d)⟩
          simp only [hparser, htree, compileTree, hp]
          exact hfault

theorem TextFunction.isEmpty_inLines (texts : List String) : (inLines texts).isEmpty = false := by
  have happend (text rest : String) (h : text.isEmpty = false) : (text ++ rest).isEmpty = false := by
    simp only [String.isEmpty_eq_false_iff, ne_eq, String.append_eq_empty_iff, not_and] at h ⊢
    exact fun hempty => absurd hempty h
  have hfirst : "(function anonymous(".isEmpty = false := by decide
  exact happend _ _ (happend _ _ (happend _ _ (happend _ _ hfirst)))

/-- Text that is refused is not run. -/
theorem Eval.does_evalGlobally_error {s : Stop} (htext : text.isEmpty = false)
    (h : (compileText text).Does n m (.error s m') d) :
    (evalGlobally (some (.string text))).Does n m (.error s m') d := by
  have hscope : (read State.globalScope).Does n m (.ok m.globalScope m) [] := ⟨rfl, rfl⟩
  have hbindings : (read State.bindings).Does n m (.ok m.bindings m) [] := ⟨rfl, rfl⟩
  refine hscope.bind (hbindings.bind (?_ : Does n _ m _ d))
  simp only [evalCode, htext, Bool.false_eq_true, if_false]
  exact h.bind_error

/-- Text that is a program is run in the global scope. -/
theorem Eval.does_evalGlobally (htext : text.isEmpty = false) (h : (compileText text).Does n m (.ok p m) [])
    (hrun : (within (TextFunction.frame m) (execute p)).Does n m r d) :
    (evalGlobally (some (.string text))).Does n m r d := by
  have hscope : (read State.globalScope).Does n m (.ok m.globalScope m) [] := ⟨rfl, rfl⟩
  have hbindings : (read State.bindings).Does n m (.ok m.bindings m) [] := ⟨rfl, rfl⟩
  refine hscope.bind (hbindings.bind (?_ : Does n _ m _ d))
  simp only [evalCode, htext, Bool.false_eq_true, if_false]
  exact h.bind hrun

/-- A text that spells a program is compiled to it. -/
theorem Eval.does_compileText {tree : Node} (h : m.rules.Spells text tree p) :
    (compileText text).Does n m (.ok p m) [] := by
  rcases compileText_cases n m text with ⟨tree', p', h', hcompile⟩ | ⟨hnone, -⟩
  · obtain ⟨parser, hparser, htree, hp⟩ := h
    obtain ⟨parser', hparser', htree', hp'⟩ := h'
    cases hparser.symm.trans hparser'
    cases htree.symm.trans htree'
    cases hp.symm.trans hp'
    exact hcompile
  · exact absurd h (hnone tree p)

/-- What is made inside of a frame is there after it, too. -/
theorem Eval.made_of_within (harrow : template.isArrow = false) {v : Value}
    (h : (within (TextFunction.frame m) (makeOnly template outer inner)).Does n m (.ok v m') d) :
    m.Makes template m.globalScope v m' := by
  obtain ⟨r, d', hx⟩ := (makeOnly template outer inner).exists_does n (m.withRegisters (TextFunction.frame m).enter)
  have hresult := h.result
  rw [run, Run.between_eq, hx.result] at hresult
  cases r with
  | error s m₁ => cases hresult
  | ok v' m₁ =>
    cases hresult
    obtain ⟨hvalue, hsize, hcallable, hkept⟩ := made_of_makeOnly harrow hx
    exact ⟨hvalue, hsize, hcallable, hkept⟩

namespace TextFunction

variable {args : Array Value} {r : EStateM.Result Stop Machine Value}

theorem Ends.does (h : Ends n args m r d) : (Eval.functionFromTexts args).Does n m r d := by
  cases h with
  | argument htexts => exact htexts.bind_error
  | refused htexts hwhole hrefused => exact htexts.bind (Eval.does_evalGlobally_error (isEmpty_inLines _) hrefused)
  | makes htexts hwhole honly hdoes hmade =>
    refine htexts.bind (Eval.does_evalGlobally (isEmpty_inLines _) (Eval.does_compileText hwhole) ?_)
    exact (Eval.does_within_congr fun r d => (Eval.does_execute_iff honly rfl).symm).mp hdoes
  | runs htexts hwhole honly hother hdoes =>
    exact htexts.bind (Eval.does_evalGlobally (isEmpty_inLines _) (Eval.does_compileText hwhole) hdoes)

/-- The rules leave out nothing. -/
theorem exists_ends (n : Nat) (args : Array Value) (m : Machine) : ∃ r d, Ends n args m r d := by
  obtain ⟨r₁, d₁, htexts⟩ := (args.toList.mapM Eval.toText).exists_does n m
  cases r₁ with
  | error s m₁ => exact ⟨_, _, .argument htexts⟩
  | ok texts m₁ =>
    rcases Eval.compileText_cases n m₁ (inLines texts) with ⟨tree, p, hwhole, -⟩ | ⟨hwhole, s, m₂, d₂, hrefused⟩
    · cases honly : p.onlyFunction? with
      | none =>
        obtain ⟨r, d, hdoes⟩ := (Eval.within (frame m₁) (Eval.execute p)).exists_does n m₁
        refine ⟨_, _, .runs htexts hwhole honly ?_ hdoes⟩
        rintro ⟨id, params, body, flags, inner, directive, outer, span, rfl⟩
        obtain ⟨parser, -, -, hp⟩ := hwhole
        obtain ⟨_, _, t, -, -, -, hsome⟩ := Program.onlyFunction_ofTree hp
        cases honly.symm.trans hsome
      | some parts =>
        obtain ⟨template, outer, inner⟩ := parts
        obtain ⟨r, d, hdoes⟩ := (Eval.within (frame m₁) (Eval.makeOnly template outer inner)).exists_does n m₁
        refine ⟨_, _, .makes htexts hwhole honly hdoes fun harrow v m₂ hr => ?_⟩
        subst hr
        exact Eval.made_of_within harrow hdoes
    · exact ⟨_, _, .refused htexts hwhole hrefused⟩

end TextFunction

/-- A run of a program that a host makes comes to the outcome of the program. -/
theorem Program.outcome_runOn (p : Program) (hcalls : m.calls = []) : (Eval.execute p).runOn m = p.outcome.runOn m := by
  obtain ⟨r, d, h⟩ := p.outcome.exists_does nestingLimit m
  exact ((Eval.does_outcome_iff p hcalls).mp h).result.trans h.result.symm

/-- Actions that come to the same from the start of an evaluation on are the same to a host. -/
theorem Session.runAs_congr {x y : Eval Value} (h : ∀ m : Machine, m.calls = [] → x.runOn m = y.runOn m) :
    runAs x = runAs y := by
  funext m
  have hrestart : restart m = .ok () (restarted m) := rfl
  simp only [runAs, bind, EStateM.bind, hrestart, h (restarted m) rfl]

/-- **What comes of making a function from texts.** Either an argument has no text, or the whole text is no program, and
then it fails and nothing of the texts is run; or the whole text is one function expression, and then just this function
is made; or the texts close the function early, and then what they spell is run as a program. A host makes functions in
the same way, from a text of one line. -/
theorem functions_from_texts (n : Nat) (args : Array Value) (m : Machine) :
    (∀ (r : EStateM.Result Stop Machine Value) (d : Log),
      (Eval.functionFromTexts args).Does n m r d ↔ TextFunction.Ends n args m r d) ∧
    ∀ (options : Options) (code : String) (params : List String) (context : Option ObjectId),
      Session.functionIn options code params context = (do
        Session.reset (← Session.orNewBindings context) options.withDefaultParser
        let p ← Session.compile (.text (TextFunction.inOneLine params code))
        Session.runAs p.outcome) := by
  refine ⟨fun r d => ⟨fun h => ?_, TextFunction.Ends.does⟩, fun options code params context => ?_⟩
  · obtain ⟨r', d', hends⟩ := TextFunction.exists_ends n args m
    obtain ⟨rfl, rfl⟩ := h.unique hends.does
    exact hends
  · have hrun (p : Program) : Session.run p = Session.runAs p.outcome :=
      Session.runAs_congr fun _ hcalls => p.outcome_runOn hcalls
    rw [← show Session.run = fun p => Session.runAs p.outcome from funext hrun]
    cases context <;> rfl

/-- On one line, a comment at the end of the text of a body takes the end of the function with it. -/
theorem TextFunction.not_parsed_of_comment : (parse (inOneLine [] "return 1 // done") {}).isOk = false ∧
    (parse (inOneLine [] "return 1") {}).isOk = true ∧ (parse (inLines ["return 1 // done"]) {}).isOk = true := by
  decide +kernel

end

end GuestScript
