import GuestScript.Proofs.Balance

/-!
# How a try statement ends

The law of `try`, `catch` and `finally`, as rules that say how the parts of a statement end and on which machines they
start (`Attempt.Ends`). That the statement follows the rules, and nothing else, is `Code.attempt_does_iff`.

A rule says how the statement ends, and what its deeds are, so it says of each part whether it is run, how often, and on
which machine.

* `Attempt.Guarded` has the rules for the block and the handler, `Attempt.Ends` those for the whole statement.
* A run that ends for lack of nesting counts as interrupted: no part of the statement can hold that either.

What a run does to the machine is told by its *deeds*: the starts of the operations that change the machine, count a
step or leave it to a function, in order. The rest of a log only says how these are put together. So a part whose deeds
are among those of the whole once is run once, and a whole that has no other deeds does nothing else. `Eval.Does` says
what a run of an action comes to: how it ends, and what its deeds are. It can be put together from the parts of an
action, and taken apart again.
-/

namespace GuestScript

/-! ## 1. Deeds -/

/-- Whether an event is the start of an operation that changes the machine, counts a step or leaves it to a function. -/
def Event.isDeed : Event → Bool
  | .start (.update _) _ | .start .charge _ | .start (.ask _) _ => true
  | _ => false

/-- The deeds in a log. -/
def Log.deeds (l : Log) : Log :=
  l.filter Event.isDeed

namespace Eval

/-- The deeds of an action that is run on a machine. -/
def deeds (answers : Answers) (logs : RequestLogs) {α : Type} (x : Eval α) (m : Machine) : Log :=
  Log.deeds (x.log answers logs m)

section

variable {α β : Type} (answers : Answers) (logs : RequestLogs) (m : Machine)

/-- The deeds of an action that is no operation are those of its parts. -/
theorem deeds_eq_inside {x : Eval α} (hx : (Event.start x m).isDeed = false) :
    x.deeds answers logs m = Log.deeds (x.inside answers logs m) := by
  have hfinish : (Event.finish x (x.run answers m)).isDeed = false := rfl
  simp [deeds, Log.deeds, log_eq, hx, hfinish]

theorem deeds_done (a : α) : (pure a : Eval α).deeds answers logs m = [] := rfl

theorem deeds_stop (s : Stop) : (stop s : Eval α).deeds answers logs m = [] := rfl

theorem deeds_update (u : Update α) : (update u).deeds answers logs m = [.start (update u) m] := rfl

theorem deeds_read (f : State → α) : (read f).deeds answers logs m = [] := rfl

theorem deeds_bind (x : Eval α) (f : α → Eval β) :
    (x >>= f).deeds answers logs m = x.deeds answers logs m ++
      match x.run answers m with
      | .ok a m => (f a).deeds answers logs m
      | .error _ _ => [] := by
  refine (deeds_eq_inside answers logs m (x := andThen x f) rfl).trans ?_
  rw [inside_andThen]
  cases x.run answers m with
  | ok a m' => simp [deeds, Log.deeds]
  | error e m' => simp [deeds, Log.deeds]

theorem deeds_settle (x : Eval α) : (settle x).deeds answers logs m = x.deeds answers logs m :=
  deeds_eq_inside answers logs m rfl

theorem deeds_within (frame : Frame) (x : Eval α) :
    (within frame x).deeds answers logs m = x.deeds answers logs (m.withRegisters frame.enter) :=
  deeds_eq_inside answers logs m rfl

end

end Eval

/-! ## 2. What a run comes to -/

namespace Eval

/-- What a run of an action comes to: its result and its deeds. -/
structure Does (n : Nat) {α : Type} (x : Eval α) (m : Machine) (r : EStateM.Result Stop Machine α) (d : Log) :
    Prop where
  result : x.run (Eval.answers n) m = r
  deeds : x.deeds (Eval.answers n) (Eval.logs n) m = d

section

variable {n : Nat} {α β : Type} {x : Eval α} {f : α → Eval β} {m m' : Machine} {d d' : Log}
  {r : EStateM.Result Stop Machine β}

theorem exists_does (n : Nat) (x : Eval α) (m : Machine) : ∃ r d, x.Does n m r d := ⟨_, _, rfl, rfl⟩

/-- A run comes to one thing only. -/
theorem Does.unique {r r' : EStateM.Result Stop Machine α} (h : x.Does n m r d) (h' : x.Does n m r' d') :
    r = r' ∧ d = d' :=
  ⟨h.result.symm.trans h'.result, h.deeds.symm.trans h'.deeds⟩

theorem Does.bind {a : α} (hx : x.Does n m (.ok a m') d) (hf : (f a).Does n m' r d') :
    (x >>= f).Does n m r (d ++ d') where
  result := by
    simp only [Bind.bind, run, hx.result]
    exact hf.result
  deeds := by
    rw [deeds_bind, hx.deeds, hx.result]
    exact congrArg (d ++ ·) hf.deeds

/-- What comes after does nothing to the machine. -/
theorem Does.bind_nil {a : α} (hx : x.Does n m (.ok a m') d) (hf : (f a).Does n m' r []) : (x >>= f).Does n m r d := by
  have h := hx.bind hf
  rwa [List.append_nil] at h

theorem Does.bind_error {s : Stop} (hx : x.Does n m (.error s m') d) : (x >>= f).Does n m (.error s m') d where
  result := by simp only [Bind.bind, run, hx.result]
  deeds := by rw [deeds_bind, hx.deeds, hx.result, List.append_nil]

theorem Does.settle {r : EStateM.Result Stop Machine α} (hx : x.Does n m r d) :
    (Eval.settle x).Does n m (settled r) d where
  result := by rw [run_settle, hx.result]
  deeds := by rw [deeds_settle, hx.deeds]

theorem Does.inScope {scope : ScopeId} {r : EStateM.Result Stop Machine α}
    (hx : x.Does n (m.withRegisters fun r => { r with scope := scope }) r d) :
    (Eval.inScope scope x).Does n m (onMachine (·.withRegisters fun r => { r with scope := m.scope }) r) d where
  result := by
    simp only [Eval.inScope, run, Run.between_eq]
    exact congrArg _ hx.result
  deeds := (deeds_within _ _ m (.scope scope) x).trans hx.deeds

/-- What two actions come to, one after the other, is what each of them comes to. -/
theorem Does.of_bind (h : (x >>= f).Does n m r d) :
    (∃ s m₁, x.Does n m (.error s m₁) d ∧ r = .error s m₁) ∨
      ∃ a m₁ d₁ d₂, x.Does n m (.ok a m₁) d₁ ∧ (f a).Does n m₁ r d₂ ∧ d = d₁ ++ d₂ := by
  obtain ⟨rx, dx, hx⟩ := x.exists_does n m
  cases rx with
  | error s m₁ =>
    obtain ⟨rfl, rfl⟩ := h.unique hx.bind_error
    exact .inl ⟨s, m₁, hx, rfl⟩
  | ok a m₁ =>
    obtain ⟨rf, df, hf⟩ := (f a).exists_does n m₁
    obtain ⟨rfl, rfl⟩ := h.unique (hx.bind hf)
    exact .inr ⟨a, m₁, dx, df, hx, hf, rfl⟩

theorem does_pure (n : Nat) (a : α) (m : Machine) : (pure a : Eval α).Does n m (.ok a m) [] := ⟨rfl, rfl⟩

theorem does_read (n : Nat) (f : State → α) (m : Machine) : (read f).Does n m (.ok (f m.toState) m) [] := ⟨rfl, rfl⟩

/-- What is left to do when it is known what the first action comes to. -/
theorem Does.rest {a : α} (hx : x.Does n m (.ok a m') d) (h : (x >>= f).Does n m r d') :
    ∃ d'', (f a).Does n m' r d'' ∧ d' = d ++ d'' := by
  rcases h.of_bind with ⟨s, m₁, hx', -⟩ | ⟨a', m₁, d₁, d₂, hx', hf, rfl⟩
  · cases (hx.unique hx').1
  · obtain ⟨hresult, rfl⟩ := hx.unique hx'
    cases hresult
    exact ⟨d₂, hf, rfl⟩

/-- To read does nothing. -/
theorem Does.of_read {f : State → α} {g : α → Eval β} (h : (read f >>= g).Does n m r d) :
    (g (f m.toState)).Does n m r d := by
  obtain ⟨d', hrest, rfl⟩ := (does_read n f m).rest h
  exact hrest

/-- Whether a run gives a result. -/
def returns : EStateM.Result Stop Machine α → Bool
  | .ok _ _ => true
  | .error _ _ => false

theorem exists_of_returns {r : EStateM.Result Stop Machine α} (h : returns r = true) : ∃ a m', r = .ok a m' := by
  cases r with
  | ok a m' => exact ⟨a, m', rfl⟩
  | error s m' => cases h

theorem does_throwValue (n : Nat) (v : Value) (m : Machine) :
    (throwValue v : Eval α).Does n m (.error (.thrown v) m) [] := ⟨rfl, rfl⟩

end

end Eval

end GuestScript

namespace GuestScript

/-! ## 3. Rules -/

/-- Two machines are at the same place in a program: in the same scope, with the same receiver, and with the same
functions running. -/
structure Machine.SamePlace (m m' : Machine) : Prop where
  scope : m'.scope = m.scope
  receiver : m'.receiver = m.receiver
  calls : m'.calls = m.calls

/-- The change that opens a block without declarations in a scope. -/
def Update.freshBlock (parent : ScopeId) : Update ScopeId :=
  .newFrame .block (some parent) [] #[]

/-- The machine in a fresh block of its current scope. -/
def Machine.inFreshBlock (m : Machine) : Machine :=
  (finalMachine (m.updated (.freshBlock m.scope))).withRegisters fun r => { r with scope := ⟨m.scopes.size⟩ }

/-- What a handler does in its block: it binds the thrown value, if it has a parameter, and runs its body. -/
def Code.catching (handler : Option Pattern × Code) (thrown : Value) : Eval Completion := do
  match handler.1 with
  | some p => p.bind thrown
  | none => pure ()
  handler.2.exec

namespace Attempt

/-- How the block of a try statement ends with its handler, and what the two do. -/
inductive Guarded (n : Nat) (block : Code) (handler : Option (Option Pattern × Code)) (m : Machine) :
    EStateM.Result Stop Machine Completion → Log → Prop where
  /-- Without a handler, or when the block did not throw, it ends like the block. -/
  | passes {r : EStateM.Result Stop Machine Completion} {d : Log} (hblock : block.exec.Does n m r d)
      (hr : handler = none ∨ ∀ v m', r ≠ .error (.thrown v) m') : Guarded n block handler m r d
  /-- When the block threw, the handler runs in a fresh block at the place of the statement, and it ends like the
  handler, back in the scope of the statement. -/
  | handles {v : Value} {m₁ : Machine} {d d' : Log} {h : Option Pattern × Code}
      {r : EStateM.Result Stop Machine Completion} (hblock : block.exec.Does n m (.error (.thrown v) m₁) d)
      (hh : handler = some h) (hplace : m.SamePlace m₁) (hhandler : (Code.catching h v).Does n m₁.inFreshBlock r d') :
      Guarded n block handler m (onMachine (·.withRegisters fun r => { r with scope := m.scope }) r)
        (d ++ .start (.update (.freshBlock m.scope)) m₁ :: d')

/-- How a try statement ends, and what it does. -/
inductive Ends (n : Nat) (block : Code) (handler : Option (Option Pattern × Code)) (finalizer : Option Code)
    (m : Machine) : EStateM.Result Stop Machine Completion → Log → Prop where
  /-- Without a finalizer, it ends like its block with the handler. -/
  | plain {r : EStateM.Result Stop Machine Completion} {d : Log} (h : Guarded n block handler m r d)
      (hf : finalizer = none) : Ends n block handler finalizer m r d
  /-- When the block or the handler was interrupted, so is the statement, and nothing else is done. -/
  | interrupted {s : Stop} {m₁ : Machine} {d : Log} (h : Guarded n block handler m (.error s m₁) d)
      (hs : ∀ v, s ≠ .thrown v) : Ends n block handler finalizer m (.error s m₁) d
  /-- Else the finalizer runs at the place of the statement. When it throws, is interrupted or jumps, the statement
  ends like it. -/
  | replaced {r r' : EStateM.Result Stop Machine Completion} {d d' : Log} {f : Code}
      (h : Guarded n block handler m r d) (hr : ∀ s m₁, r = .error s m₁ → ∃ v, s = .thrown v)
      (hf : finalizer = some f) (hplace : m.SamePlace (finalMachine r))
      (hfinalizer : f.exec.Does n (finalMachine r) r' d') (hr' : ∀ c m₁, r' = .ok c m₁ → c.isAbrupt = true) :
      Ends n block handler finalizer m r' (d ++ d')
  /-- When the finalizer ends in any other way, the statement ends like its block with the handler. -/
  | kept {r : EStateM.Result Stop Machine Completion} {c : Completion} {m₁ : Machine} {d d' : Log} {f : Code}
      (h : Guarded n block handler m r d) (hr : ∀ s m₁, r = .error s m₁ → ∃ v, s = .thrown v)
      (hf : finalizer = some f) (hplace : m.SamePlace (finalMachine r))
      (hfinalizer : f.exec.Does n (finalMachine r) (.ok c m₁) d') (hc : c.isAbrupt = false) :
      Ends n block handler finalizer m (onMachine (fun _ => m₁) r) (d ++ d')

/-! ## 4. Statements follow the rules -/

section

variable {n : Nat} {block : Code} {handler : Option (Option Pattern × Code)} {finalizer : Option Code}
  {m m' : Machine} {r : EStateM.Result Stop Machine Completion} {d : Log}

/-- A part that has ended leaves the machine at the place where it started. -/
theorem samePlace_of_does {α : Type} {x : Eval α} {r : EStateM.Result Stop Machine α} (h : x.Does n m r d) :
    m.SamePlace (finalMachine r) := by
  have hb := Eval.run_balanced (Eval.answers_balanced n) x m
  rw [h.result] at hb
  exact ⟨hb.scope, hb.receiver, hb.calls⟩

/-- The handler, from the machine that the block left behind. -/
theorem does_handle {h : Option Pattern × Code} {v : Value}
    (hhandler : (Code.catching h v).Does n m.inFreshBlock r d) :
    (Eval.handle (h.1.map Pattern.bind, h.2.exec) v).Does n m
      (onMachine (·.withRegisters fun r => { r with scope := m.scope }) r)
      (.start (.update (.freshBlock m.scope)) m :: d) := by
  have hcurrent : Eval.currentScope.Does n m (.ok m.scope m) [] := ⟨rfl, rfl⟩
  have hframe : (Eval.newFrame .block m.scope []).Does n m
      (.ok ⟨m.scopes.size⟩ (finalMachine (m.updated (.freshBlock m.scope)))) [.start (.update (.freshBlock m.scope)) m] :=
    ⟨rfl, rfl⟩
  obtain ⟨pattern, body⟩ := h
  cases pattern with
  | none => exact hcurrent.bind (hframe.bind (Eval.Does.inScope hhandler))
  | some p => exact hcurrent.bind (hframe.bind (Eval.Does.inScope hhandler))

theorem handler?_eq (handler : Option (Option Pattern × Code)) :
    Code.handler? handler = handler.map fun h => (h.1.map Pattern.bind, h.2.exec) := by
  cases handler with
  | none => rfl
  | some h =>
    obtain ⟨pattern, body⟩ := h
    cases pattern <;> rfl

/-- What follows the rules for a block with a handler is what it comes to. -/
theorem Guarded.does (h : Guarded n block handler m r d) :
    (Eval.guarded block.exec (Code.handler? handler)).Does n m r d := by
  rw [handler?_eq]
  cases h with
  | passes hblock hr =>
    cases handler with
    | none => exact hblock
    | some h =>
      have hnot := hr.resolve_left nofun
      have hsettled := hblock.settle
      cases r with
      | ok c m₁ => exact hsettled.bind_nil (Eval.does_pure n c m₁)
      | error s m₁ =>
        cases s with
        | thrown v => exact absurd rfl (hnot v m₁)
        | interrupt | exhausted | panicked => exact hsettled.bind_error
  | handles hblock hh hplace hhandler =>
    subst hh
    rw [← hplace.scope]
    exact hblock.settle.bind (does_handle hhandler)

/-- The rules for a block with a handler leave out nothing. -/
theorem exists_guarded (n : Nat) (block : Code) (handler : Option (Option Pattern × Code)) (m : Machine) :
    ∃ r d, Guarded n block handler m r d := by
  obtain ⟨r, d, hblock⟩ := block.exec.exists_does n m
  have hplace := samePlace_of_does hblock
  cases handler with
  | none => exact ⟨_, _, .passes hblock (.inl rfl)⟩
  | some h =>
    cases r with
    | ok c m₁ => exact ⟨_, _, .passes hblock (.inr fun _ _ h => nomatch h)⟩
    | error s m₁ =>
      cases s with
      | thrown v =>
        obtain ⟨r', d', hhandler⟩ := (Code.catching h v).exists_does n m₁.inFreshBlock
        exact ⟨_, _, .handles hblock rfl hplace hhandler⟩
      | interrupt | exhausted | panicked => exact ⟨_, _, .passes hblock (.inr fun _ _ h => nomatch h)⟩

/-- What follows the rules for a statement is what it comes to. -/
theorem Ends.does (h : Ends n block handler finalizer m r d) :
    (Code.attempt block handler finalizer).exec.Does n m r d := by
  cases h with
  | plain h hf =>
    subst hf
    exact h.does
  | interrupted h hs =>
    rename_i s m₁
    cases finalizer with
    | none => exact h.does
    | some f =>
      have hsettled := h.does.settle
      cases s with
      | thrown v => exact absurd rfl (hs v)
      | interrupt | exhausted | panicked => exact hsettled.bind_error
  | replaced h hr hf hplace hfinalizer hr' =>
    rename_i r₀ d₀ d' f
    subst hf
    obtain ⟨result, hsettled⟩ : ∃ result, settled r₀ = .ok result (finalMachine r₀) := by
      cases r₀ with
      | ok c m₁ => exact ⟨_, rfl⟩
      | error s m₁ =>
        obtain ⟨v, rfl⟩ := hr s m₁ rfl
        exact ⟨_, rfl⟩
    have hfirst := h.does.settle
    rw [hsettled] at hfirst
    refine hfirst.bind ?_
    cases r with
    | ok c m₁ =>
      refine hfinalizer.bind_nil ?_
      rw [if_pos (hr' c m₁ rfl)]
      exact Eval.does_pure n c m₁
    | error s m₁ => exact hfinalizer.bind_error
  | kept h hr hf hplace hfinalizer hc =>
    rename_i r₀ c m₁ d₀ d' f
    subst hf
    have hfirst := h.does.settle
    have hnot : ¬ c.isAbrupt = true := by simp [hc]
    cases r₀ with
    | ok c₀ m₀ =>
      refine hfirst.bind (hfinalizer.bind_nil ?_)
      rw [if_neg hnot]
      exact Eval.does_pure n c₀ m₁
    | error s m₀ =>
      obtain ⟨v, rfl⟩ := hr s m₀ rfl
      refine hfirst.bind (hfinalizer.bind_nil ?_)
      rw [if_neg hnot]
      exact Eval.does_throwValue n v m₁

/-- The rules for a statement leave out nothing. -/
theorem exists_ends (n : Nat) (block : Code) (handler : Option (Option Pattern × Code)) (finalizer : Option Code)
    (m : Machine) : ∃ r d, Ends n block handler finalizer m r d := by
  obtain ⟨r, d, h⟩ := exists_guarded n block handler m
  cases finalizer with
  | none => exact ⟨r, d, .plain h rfl⟩
  | some f =>
    have hplace := samePlace_of_does h.does
    obtain ⟨r', d', hfinalizer⟩ := f.exec.exists_does n (finalMachine r)
    have hfinal (hr : ∀ s m₁, r = .error s m₁ → ∃ v, s = .thrown v) :
        ∃ r d, Ends n block handler (some f) m r d := by
      cases r' with
      | error s m₁ => exact ⟨_, _, .replaced h hr rfl hplace hfinalizer fun _ _ h => nomatch h⟩
      | ok c m₁ =>
        cases hc : c.isAbrupt with
        | true => exact ⟨_, _, .replaced h hr rfl hplace hfinalizer fun _ _ h => by cases h; exact hc⟩
        | false => exact ⟨_, _, .kept h hr rfl hplace hfinalizer hc⟩
    cases r with
    | ok c m₁ => exact hfinal fun _ _ h => nomatch h
    | error s m₁ =>
      cases s with
      | thrown v => exact hfinal fun _ _ h => by cases h; exact ⟨v, rfl⟩
      | interrupt | exhausted | panicked => exact ⟨_, _, .interrupted h fun _ h => nomatch h⟩

end

end Attempt

/-- **A try statement ends and does what the rules say**, and nothing else. -/
theorem Code.attempt_does_iff (n : Nat) (block : Code) (handler : Option (Option Pattern × Code))
    (finalizer : Option Code) (m : Machine) (r : EStateM.Result Stop Machine Completion) (d : Log) :
    (Code.attempt block handler finalizer).exec.Does n m r d ↔ Attempt.Ends n block handler finalizer m r d := by
  refine ⟨fun h => ?_, Attempt.Ends.does⟩
  obtain ⟨r', d', h'⟩ := Attempt.exists_ends n block handler finalizer m
  obtain ⟨rfl, rfl⟩ := h.unique h'.does
  exact h'

end GuestScript
