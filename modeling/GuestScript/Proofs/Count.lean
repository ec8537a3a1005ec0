import GuestScript.Proofs.Log

/-!
# Counting steps

The count of steps only goes up, and unless an interrupt ends the run it never goes past the limit (`Counted`). So
there can be no more rounds of a loop than the limit allows, as long as each of them counts a step.

That an action counts a step is a property of its tree (`Eval.Counts`). It is enough that some part of it which always
runs does.
-/

namespace GuestScript

variable {α β : Type} {r : EStateM.Result Stop Machine α} {r' : EStateM.Result Stop Machine β} {m' : Machine}
  {answers : Answers} {x : Eval α} {f : α → Eval β}

/-! ## 1. The count during a run -/

/-- What a run from a machine does to the count of steps. -/
structure Counted {α : Type} (m : Machine) (r : EStateM.Result Stop Machine α) : Prop where
  limits : (finalMachine r).limits = m.limits
  steps : m.steps ≤ (finalMachine r).steps
  /-- A step past the limit is an interrupt. -/
  inside : interruptOf r = none → m.steps < (finalMachine r).steps → (finalMachine r).steps ≤ m.limits.maxSteps

namespace Counted

variable {m : Machine}

/-- A run that counts nothing. -/
theorem of_eq (hlimits : (finalMachine r).limits = m.limits) (hsteps : (finalMachine r).steps = m.steps) :
    Counted m r :=
  ⟨hlimits, Nat.le_of_eq hsteps.symm, fun _ hlt => by omega⟩

/-- Runs one after the other. -/
theorem trans (h : Counted m r) (hr : interruptOf r = none) (h' : Counted (finalMachine r) r') : Counted m r' := by
  refine ⟨h'.limits.trans h.limits, Nat.le_trans h.steps h'.steps, fun hnone hlt => ?_⟩
  rcases Nat.lt_or_ge (finalMachine r).steps (finalMachine r').steps with hmore | hsame
  · rw [← h.limits]
    exact h'.inside hnone hmore
  · have hsteps : (finalMachine r').steps = (finalMachine r).steps := Nat.le_antisymm hsame h'.steps
    rw [hsteps] at hlt ⊢
    exact h.inside hr hlt

/-- A run that ends in the same way on the same machine, as far as the count can tell. -/
theorem congr (h : Counted m' r) (hm : m'.limits = m.limits ∧ m'.steps = m.steps)
    (hfinal : (finalMachine r').limits = (finalMachine r).limits ∧ (finalMachine r').steps = (finalMachine r).steps)
    (hinterrupt : interruptOf r' = interruptOf r) : Counted m r' := by
  refine ⟨hfinal.1.trans (h.limits.trans hm.1), ?_, fun hnone hlt => ?_⟩
  · rw [hfinal.2, ← hm.2]
    exact h.steps
  · rw [hfinal.2] at hlt ⊢
    rw [← hm.1]
    rw [← hm.2] at hlt
    exact h.inside (hinterrupt ▸ hnone) hlt

theorem charged (m : Machine) : Counted m m.charged := by
  unfold Machine.charged
  split
  · exact .of_eq rfl rfl
  · dsimp only
    split
    · exact ⟨rfl, Nat.le_succ _, nofun⟩
    · rename_i hroom
      exact ⟨rfl, Nat.le_succ _, fun _ _ => Nat.le_of_not_lt hroom⟩

end Counted

/-- The rounds of a loop count as each round does. -/
theorem Run.rounds_counted {σ α : Type} {round : σ → Run (Flow σ α)} (h : ∀ s m, Counted m (round s m)) :
    ∀ (fuel : Nat) (s : σ) (m : Machine), Counted m (Run.rounds round fuel s m)
  | 0, _, _ => .of_eq rfl rfl
  | fuel + 1, s, m => by
    have hround := h s m
    unfold Run.rounds
    cases hr : round s m with
    | error e m' =>
      rw [hr] at hround
      exact hround.congr ⟨rfl, rfl⟩ ⟨rfl, rfl⟩ rfl
    | ok flow m' =>
      rw [hr] at hround
      cases flow with
      | leave a => exact hround.congr ⟨rfl, rfl⟩ ⟨rfl, rfl⟩ rfl
      | proceed s' =>
        dsimp only
        split
        · exact hround.trans rfl (rounds_counted h fuel s' m')
        · exact hround.congr ⟨rfl, rfl⟩ ⟨rfl, rfl⟩ rfl

namespace Eval

/-- **Every action counts steps within the limit**, if the answers to its requests do. -/
theorem run_counted (hask : ∀ request m, Counted m (answers request m)) {α : Type} (x : Eval α) (m : Machine) :
    Counted m (x.run answers m) := by
  induction x generalizing m with
  | done | stop | read | counted | clock | update => exact .of_eq rfl rfl
  | charge => exact .charged m
  | andThen x f ihx ihf =>
    have hx := ihx m
    simp only [run]
    cases hr : x.run answers m with
    | error e m' =>
      rw [hr] at hx
      exact hx.congr ⟨rfl, rfl⟩ ⟨rfl, rfl⟩ rfl
    | ok a m' =>
      rw [hr] at hx
      exact hx.trans rfl (ihf a m')
  | settle x ih =>
    rw [run_settle]
    refine (ih m).congr ⟨rfl, rfl⟩ ?_ (interruptOf_settled _)
    rw [finalMachine_settled]
    exact ⟨rfl, rfl⟩
  | within frame x ih =>
    simp only [run, Run.between_eq]
    refine (ih (m.withRegisters frame.enter)).congr ⟨rfl, rfl⟩ ?_ (interruptOf_onMachine _ _)
    rw [finalMachine_onMachine]
    exact ⟨rfl, rfl⟩
  | nest name x refused ihx ihr =>
    simp only [run]
    split
    · rw [Run.between_eq]
      refine (ihx (m.withRegisters (Registers.enterCall name))).congr ⟨rfl, rfl⟩ ?_ (interruptOf_onMachine _ _)
      rw [finalMachine_onMachine]
      exact ⟨rfl, rfl⟩
    · exact ihr m
  | loop round start ih => exact Run.rounds_counted ih _ start m
  | ask request => exact hask request m

/-- The answers to requests count steps within the limit, however deep requests are nested. -/
theorem answers_counted : ∀ (n : Nat) (request : Request) (m : Machine), Counted m (Eval.answers n request m)
  | 0, _, _ => .of_eq rfl rfl
  | n + 1, request, m => run_counted (answers_counted n) (serve request) m

/-! ## 2. Actions that count -/

/-- Whether an action that ends in some way has counted a step. -/
def Counts {α : Type} (x : Eval α) (P : α → Prop) : Prop :=
  ∀ (answers : Answers), (∀ request m, Counted m (answers request m)) →
    ∀ (m m' : Machine) (a : α), x.run answers m = .ok a m' → P a → m.steps < m'.steps

variable {P : α → Prop} {Q : β → Prop}

theorem counts_charge {P : Unit → Prop} : charge.Counts P := by
  intro answers _ m m' a hr _
  change m.charged = .ok a m' at hr
  unfold Machine.charged at hr
  split at hr
  · cases hr
  · dsimp only at hr
    split at hr
    · cases hr
    · cases hr
      exact Nat.lt_succ_self _

/-- There is nothing to count for a result that is out of the question. -/
theorem counts_pure {a : α} (ha : ¬ P a) : (pure a : Eval α).Counts P := by
  intro answers _ m m' b hr hb
  change EStateM.Result.ok a m = .ok b m' at hr
  cases hr
  exact absurd hb ha

/-- The two parts of a run of an action and what follows it. -/
theorem run_bind_ok {m : Machine} {b : β} (hr : (x >>= f).run answers m = .ok b m') :
    ∃ a m₁, x.run answers m = .ok a m₁ ∧ (f a).run answers m₁ = .ok b m' := by
  simp only [bind, run] at hr
  cases hx : x.run answers m with
  | error e m₁ =>
    rw [hx] at hr
    cases hr
  | ok a m₁ =>
    rw [hx] at hr
    exact ⟨a, m₁, rfl, hr⟩

/-- What follows an action that gives a result goes on from there. -/
theorem run_bind_of_ok {m : Machine} {a : α} (hx : x.run answers m = .ok a m') :
    (x >>= f).run answers m = (f a).run answers m' := by
  simp only [bind, run, hx]

/-- Nothing follows an action that fails. -/
theorem run_bind_of_error {m : Machine} {e : Stop} (hx : x.run answers m = .error e m') :
    (x >>= f).run answers m = .error e m' := by
  simp only [bind, run, hx]

/-- It is enough if the first part counts. -/
theorem Counts.first (hx : x.Counts fun _ => True) : (x >>= f).Counts Q := by
  intro answers hask m m' b hr _
  obtain ⟨a, m₁, hfirst, hrest⟩ := run_bind_ok hr
  have hlt := hx answers hask m m₁ a hfirst trivial
  have hle := (run_counted hask (f a) m₁).steps
  rw [hrest] at hle
  exact Nat.lt_of_lt_of_le hlt hle

/-- It is enough if the second part counts. -/
theorem Counts.second (hf : ∀ a, (f a).Counts Q) : (x >>= f).Counts Q := by
  intro answers hask m m' b hr hb
  obtain ⟨a, m₁, hfirst, hrest⟩ := run_bind_ok hr
  have hle := (run_counted hask x m).steps
  rw [hfirst] at hle
  exact Nat.lt_of_le_of_lt hle (hf a answers hask m₁ m' b hrest hb)

theorem counts_ite {c : Prop} [Decidable c] {y : Eval α} (hx : c → x.Counts P) (hy : ¬ c → y.Counts P) :
    (if c then x else y).Counts P := by
  split
  · exact hx ‹c›
  · exact hy ‹¬ c›

theorem Counts.within {frame : Frame} {x : Eval α} (hx : x.Counts P) : (within frame x).Counts P := by
  intro answers hask m m' a hr ha
  change (x.run answers).between frame.enter frame.leave m = .ok a m' at hr
  rw [Run.between_eq] at hr
  cases hrun : x.run answers (m.withRegisters frame.enter) with
  | error e m₁ =>
    rw [hrun] at hr
    cases hr
  | ok b m₁ =>
    rw [hrun] at hr
    cases hr
    have hlt := hx answers hask (m.withRegisters frame.enter) m₁ a hrun ha
    exact hlt

end Eval

end GuestScript
