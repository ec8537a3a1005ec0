import GuestScript.Proofs.Reach.Record

/-!
# Text that is evaluated globally does not see its caller

Where a machine is in a program is kept in four registers: the scope, the receiver, the result that the program has so
far, and the names of the functions that are running. A program of its own replaces all four for as long as it runs, so
what it does cannot depend on them (`Eval.blind_program`). What is left to show is that nothing looks at them on the way
to the program: not while the text is compiled, nor when it is refused.
-/

namespace GuestScript

/-! ## 1. Callers -/

/-- The place in a program from which a function is called. -/
structure Caller where
  scope : ScopeId
  receiver : Value
  result : Value
  calls : List String

/-- The machine in the middle of another caller. -/
def Machine.calledBy (m : Machine) (c : Caller) : Machine :=
  m.withRegisters fun r => { r with scope := c.scope, receiver := c.receiver, result := c.result, calls := c.calls }

namespace Eval

section

variable {α β : Type} {answers : Answers} {x : Eval α}

/-- On a machine with another caller an action does the same, and leaves that caller as it was. -/
def Blind (answers : Answers) (x : Eval α) : Prop :=
  ∀ (m : Machine) (c : Caller), x.run answers (m.calledBy c) = onMachine (·.calledBy c) (x.run answers m)

theorem blind_pure (a : α) : (pure a : Eval α).Blind answers := fun _ _ => rfl

theorem blind_stop (s : Stop) : (stop s : Eval α).Blind answers := fun _ _ => rfl

theorem Blind.bind {f : α → Eval β} (hx : x.Blind answers) (hf : ∀ a, (f a).Blind answers) :
    (x >>= f).Blind answers := by
  intro m c
  have hx := hx m c
  simp only [Bind.bind, run, hx]
  cases x.run answers m with
  | ok a m' => exact hf a m' c
  | error e m' => rfl

theorem blind_read {f : State → α} (h : ∀ (m : Machine) (c : Caller), f (m.calledBy c).toState = f m.toState) :
    (read f).Blind answers := by
  intro m c
  simp only [run, h, onMachine]

theorem blind_allocate (o : Object) : (allocate o).Blind answers := fun _ _ => rfl

theorem Blind.target {target : Option ObjectId} (hx : x.Blind answers) : (withNewTarget target x).Blind answers := by
  intro m c
  have hx := hx (m.withRegisters (Frame.enter (.target target))) c
  simp only [withNewTarget, run, Run.between_eq]
  exact (congrArg (onMachine _) hx).trans (by cases x.run answers _ <;> rfl)

/-- **A program does not see its caller**, whatever it does: the frame that it runs in replaces all there is to see. -/
theorem blind_program (scope : ScopeId) (receiver : Value) (x : Eval α) :
    (within (.program scope receiver) x).Blind answers := by
  intro m c
  have henter : (m.calledBy c).withRegisters (Frame.enter (.program scope receiver)) =
      m.withRegisters (Frame.enter (.program scope receiver)) := rfl
  simp only [run, Run.between_eq, henter]
  cases x.run answers _ <;> rfl

/-! ## 2. Evaluating text -/

theorem blind_throwFault (kind : ErrorKind) (message : String) : (throwFault kind message : Eval α).Blind answers :=
  (blind_allocate _).bind fun _ => blind_stop _

theorem blind_compileTree (tree : Node) (source : Option String) : (compileTree tree source).Blind answers := by
  unfold compileTree
  split
  · exact blind_pure _
  · exact blind_stop _
  · exact blind_throwFault _ _

theorem blind_compileText (text : String) : (compileText text).Blind answers := by
  refine (blind_read fun _ _ => rfl).bind fun rules => ?_
  split
  · exact blind_stop _
  · split
    · exact blind_throwFault _ _
    · exact blind_compileTree _ _

theorem blind_evalCode (code : Option Value) (scope : ScopeId) (receiver : Value) :
    (evalCode code scope receiver).Blind answers := by
  unfold evalCode
  split
  · exact blind_pure _
  · split
    · exact blind_pure _
    · exact (blind_compileText _).bind fun _ => blind_program _ _ _
  · exact blind_pure _

theorem blind_evalGlobally (code : Option Value) : (evalGlobally code).Blind answers :=
  (blind_read fun _ _ => rfl).bind fun _ => (blind_read fun _ _ => rfl).bind fun _ => blind_evalCode _ _ _

/-- Requests to evaluate text are answered without a look at the caller. -/
theorem blind_evalText (n : Nat) (code : Option Value) (scope : ScopeId) (receiver : Value) :
    (evalText code scope receiver).Blind (Eval.answers n) := by
  cases n with
  | zero => exact fun _ _ => rfl
  | succ n => exact blind_evalCode code scope receiver

end

/-! ## 3. Calls of the function that evaluates text -/

/-- A call of the function that evaluates text evaluates it globally, whatever the receiver. -/
theorem run_callFunction_evalText {answers : Answers} {m : Machine} {id : ObjectId}
    (h : (m.objectAt id).callable = some .evalText) (receiver : Value) (args : Array Value) :
    (callFunction (.object id) receiver args).run answers m =
      (withNewTarget none (evalGlobally args[0]?)).run answers m := by
  simp only [callFunction, callable?, object, bind, pure, run, h]

end Eval

/-- Whether scopes of some kind belong to a part of a script. The others are those of the built-in names, of a root
context and of the bindings of the host. -/
def ScopeKind.isLocal : ScopeKind → Bool
  | .function | .block | .withObject => true
  | .super | .root | .global => false

namespace Eval

/-- What a call of a function by its name starts with: the scope that binds the name, the function and the values of
the arguments. -/
def namedCallParts (position : Option Position) (name : String) (args : List (Eval Completion × Bool)) :
    Eval (ScopeId × Value × Array Value) := do
  tick position
  let (scope, function) ← resolveValue name position
  let values ← arguments args #[]
  pure (scope, function, values)

/-- A call that is written with the name `eval` has gone from one machine to another: the name was found in a local
scope, as the function that evaluates text, and the arguments have got their values. -/
def ReachesEval (answers : Answers) (position : Option Position) (args : List (Eval Completion × Bool))
    (m : Machine) (values : Array Value) (m' : Machine) : Prop :=
  ∃ scope id, (namedCallParts position "eval" args).run answers m = .ok (scope, .object id, values) m' ∧
    (m'.scopeAt scope).kind.isLocal ∧ (m'.objectAt id).callable = some .evalText

/-- From there on, the text is evaluated globally. -/
theorem ReachesEval.run_callNameLink {answers : Answers} {position : Option Position}
    {args : List (Eval Completion × Bool)} {m m' : Machine} {values : Array Value}
    (h : ReachesEval answers position args m values m') (optional : Bool) (label : String) :
    (callNameLink position "eval" args optional label).run answers m =
      (do
        let v ← evalText values[0]? m'.globalScope (.object m'.bindings)
        pure (some (Reference.mk .undefined v))).run answers m' := by
  obtain ⟨scope, id, hparts, hlocal, hcallable⟩ := h
  obtain ⟨_, m₁, htick, hparts⟩ := run_bind_ok hparts
  obtain ⟨⟨scope', function⟩, m₂, hresolve, hparts⟩ := run_bind_ok hparts
  obtain ⟨values', m₃, hvalues, hparts⟩ := run_bind_ok hparts
  cases hparts
  have hisEval : (isEvalText (.object id)).run answers m' = .ok true m' := by
    simp only [isEvalText, callable?, object, bind, pure, run, hcallable]
  have hnullish : (optional && (Value.object id).isNullish) = false := by simp [Value.isNullish.eq_def]
  unfold callNameLink
  rw [run_bind_of_ok htick, run_bind_of_ok hresolve]
  dsimp only
  rw [hnullish, if_neg Bool.false_ne_true, run_bind_of_ok hvalues, run_bind_of_ok (a := m'.scopeAt scope) rfl]
  rw [run_bind_of_ok hisEval, if_pos (by rfl)]
  -- no local scope is one of those whose `eval` sees the caller
  cases hkind : (m'.scopeAt scope).kind with
  | super | root | global => rw [hkind] at hlocal; cases hlocal
  | function | block | withObject => simp only [evalByName.eq_def, bind, run]

/-- **Text that is evaluated globally does not see its caller.** On two machines that differ in nothing but the caller,
a call of the function that evaluates text gives the same result, or stops in the same way, and leaves the same machine
behind, but for the caller, which each machine keeps. So does a call that is written with the name `eval`, once it has
evaluated its arguments, if the name stands for the function in a scope of the script; nor does it matter which scope
that is, what the call looks like, and how the machine got there. -/
theorem evalText_ignores_caller (n : Nat) (m : Machine) (c : Caller) :
    (∀ (id : ObjectId) (receiver receiver' : Value) (args : Array Value),
      (m.objectAt id).callable = some .evalText →
        (callFunction (.object id) receiver' args).run (answers n) (m.calledBy c) =
          onMachine (·.calledBy c) ((callFunction (.object id) receiver args).run (answers n) m)) ∧
    ∀ (position position' : Option Position) (args args' : List (Eval Completion × Bool)) (optional optional' : Bool)
      (label label' : String) (values : Array Value) (start start' : Machine),
      ReachesEval (answers n) position args start values m →
      ReachesEval (answers n) position' args' start' values (m.calledBy c) →
        (callNameLink position' "eval" args' optional' label').run (answers n) start' =
          onMachine (·.calledBy c) ((callNameLink position "eval" args optional label).run (answers n) start) := by
  refine ⟨fun id receiver receiver' args h => ?_, ?_⟩
  · have h' : ((m.calledBy c).objectAt id).callable = some .evalText := h
    rw [run_callFunction_evalText h, run_callFunction_evalText h']
    exact (blind_evalGlobally _).target m c
  · intro position position' args args' optional optional' label label' values start start' h h'
    rw [h.run_callNameLink, h'.run_callNameLink]
    exact ((blind_evalText n _ _ _).bind fun _ => blind_pure _) m c

/-- A machine with the bindings of a host and a function's scope that has the function that evaluates text under its
own name, with a block in that scope. -/
def rebound : Machine where
  heap := #[{}, { callable := some .evalText }, { properties := #[(.string "eval", .hidden (.object ⟨1⟩))] }, {}]
  scopes := #[{ data := ⟨0⟩, parent := none, kind := .global },
    { data := ⟨2⟩, parent := some ⟨0⟩, kind := .function }, { data := ⟨3⟩, parent := some ⟨1⟩, kind := .block }]
  scope := ⟨1⟩
  limits := { timeout := 0, maxSteps := 4 }

/-- A caller in the block, with another receiver, inside a call. -/
def calledInBlock : Caller where
  scope := ⟨2⟩
  receiver := .object ⟨0⟩
  result := .null
  calls := ["f"]

/-- The argument of a call that evaluates a text. -/
def textArgument : List (Eval Completion × Bool) :=
  [(pure (.value (.string "x")), false)]

/-- The machine after one step, called from some place. -/
def reboundFrom (c : Caller) : Machine :=
  { rebound with steps := 1 }.calledBy c

theorem resolve_reboundFrom {c : Caller} (h : c.scope = ⟨1⟩ ∨ c.scope = ⟨2⟩) :
    (reboundFrom c).resolve "eval" .use = .found ⟨1⟩ := by
  obtain ⟨scope, receiver, result, calls⟩ := c
  rcases h with rfl | rfl <;> rfl

theorem ownValue?_reboundFrom (c : Caller) :
    ((reboundFrom c).objectAt ((reboundFrom c).scopeAt ⟨1⟩).data).ownValue? "eval" = some (.object ⟨1⟩) := rfl

theorem run_hideGlobal_reboundFrom (c : Caller) (answers : Answers) :
    (hideGlobal (.object ⟨1⟩)).run answers (reboundFrom c) = .ok (.object ⟨1⟩) (reboundFrom c) := rfl

/-- From both scopes, a call of `eval` reaches the function that evaluates text. -/
theorem reachesEval_rebound (c : Caller) (h : c.scope = ⟨1⟩ ∨ c.scope = ⟨2⟩) :
    ReachesEval (answers 1) none textArgument (rebound.calledBy c) #[.string "x"] (reboundFrom c) := by
  have htick : (tick none).run (answers 1) (rebound.calledBy c) = .ok () (reboundFrom c) := by
    simp [tick, bind, pure, run, Machine.charged, reboundFrom, Machine.calledBy, Machine.withRegisters, rebound]
  have hread : (readFrom? ⟨1⟩ "eval").run (answers 1) (reboundFrom c) = .ok (some (.object ⟨1⟩)) (reboundFrom c) :=
    run_readFrom? (ownValue?_reboundFrom c) (run_hideGlobal_reboundFrom c)
  refine ⟨⟨1⟩, ⟨1⟩, ?_, rfl, rfl⟩
  rw [namedCallParts, run_bind_of_ok htick, run_bind_of_ok (run_resolveValue (resolve_reboundFrom h) hread)]
  rfl

/-- A local name for the function that evaluates text is called in a function and in a block of it: the text does not
see which of the two. -/
theorem evalText_ignores_caller_rebound :
    let m := { rebound with steps := 1 }
    (callFunction (.object ⟨1⟩) .null #[.string "x"]).run (answers 1) (m.calledBy calledInBlock) =
        onMachine (·.calledBy calledInBlock)
          ((callFunction (.object ⟨1⟩) .undefined #[.string "x"]).run (answers 1) m) ∧
      (callNameLink none "eval" textArgument true "eval").run (answers 1) (rebound.calledBy calledInBlock) =
        onMachine (·.calledBy calledInBlock)
          ((callNameLink none "eval" textArgument false "").run (answers 1) rebound) := by
  have hfunction : ReachesEval (answers 1) none textArgument rebound #[.string "x"] { rebound with steps := 1 } :=
    reachesEval_rebound ⟨⟨1⟩, .undefined, .undefined, []⟩ (.inl rfl)
  have hblock := reachesEval_rebound calledInBlock (.inr rfl)
  obtain ⟨hcalls, hnamed⟩ := evalText_ignores_caller 1 { rebound with steps := 1 } calledInBlock
  exact ⟨hcalls ⟨1⟩ _ _ _ rfl, hnamed _ _ _ _ _ _ _ _ _ _ _ hfunction hblock⟩

end Eval

end GuestScript
