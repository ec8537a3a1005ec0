/-!
# Loops, and runs side by side

A loop goes through *rounds*: a round ends the loop, fails, or hands something on to the next one. A loop *takes* when
every round that is followed by another one leaves less to read. So it comes to an end by itself, and the bound for the
number of its rounds that its definition has does not matter once it exceeds what is left (`Loop.alike_run`).

Two runs that read the same text are compared by `Alike`. It says that they end in the same way, and how far they have
come by then: a run starts *fresh*, is *ready* when it has seen that something is ahead, and has *moved* when it has taken
something.
-/

namespace GuestScript

variable {ε σ α β Carry Result : Type}

/-! ## 1. Comparisons -/

/-- What the states of two runs have to do with each other, and how much there is left to read. -/
structure Comparison (ε σ : Type) where
  /-- Whether two states go together. -/
  Same : σ → σ → Prop
  /-- How much a state has left. -/
  left : σ → Nat
  /-- Whether nothing is ahead. -/
  ended : σ → Bool
  /-- The faults that the first run may end with, whatever the second one does. -/
  Pardons : ε → Prop
  left_eq : ∀ {s t}, Same s t → left s = left t

/-- How far a run has come. -/
inductive Stage where
  | fresh
  /-- Something is ahead. -/
  | ready
  /-- Something has been taken. -/
  | moved

namespace Stage

/-- Whether a state fits a stage of a run that started with no more than a given amount left. -/
def Fits (C : Comparison ε σ) (k : Nat) (s : σ) : Stage → Prop
  | fresh => C.left s ≤ k
  | ready => C.left s ≤ k ∧ C.ended s = false
  | moved => C.left s < k

/-- Whether a stage says no more than another one. -/
def Below : Stage → Stage → Prop
  | fresh, _ | ready, ready | moved, moved => True
  | ready, _ | moved, _ => False

/-- The stage after a look that may have shown something ahead. -/
def ifSeen (stage : Stage) (seen : Bool) : Stage :=
  match stage, seen with
  | fresh, true => ready
  | _, _ => stage

/-- The stage after something may have been taken. -/
def ifTaken (stage : Stage) (taken : Bool) : Stage :=
  match taken with
  | true => moved
  | false => stage

/-- The stage after a round of a loop, given the stages after its last one. -/
def afterRound (after : Result → Stage) : Carry ⊕ Result → Stage
  | .inl _ => moved
  | .inr r => after r

variable {C : Comparison ε σ} {k k' : Nat} {s : σ} {stage stage' : Stage}

theorem below_refl : ∀ stage : Stage, stage.Below stage
  | fresh | ready | moved => trivial

theorem below_ifSeen (stage : Stage) (seen : Bool) : stage.Below (stage.ifSeen seen) := by
  cases stage <;> cases seen <;> trivial

theorem Fits.le (h : stage.Fits C k s) : C.left s ≤ k := by
  cases stage with
  | fresh => exact h
  | ready => exact h.1
  | moved => exact Nat.le_of_lt h

theorem Fits.below (h : stage.Fits C k s) (hbelow : stage'.Below stage) : stage'.Fits C k s := by
  cases stage' with
  | fresh => exact h.le
  | ready | moved =>
    cases stage with
    | fresh => exact hbelow.elim
    | ready | moved => first | exact h | exact hbelow.elim

theorem Fits.mono (h : stage.Fits C k s) (hle : k ≤ k') : stage.Fits C k' s := by
  cases stage with
  | fresh => exact Nat.le_trans h hle
  | ready => exact ⟨Nat.le_trans h.1 hle, h.2⟩
  | moved => exact Nat.lt_of_lt_of_le h hle

end Stage

/-! ## 2. Runs side by side -/

section

open Stage

variable {C : Comparison ε σ} {k : Nat} {before : Stage} {after : α → Stage} {onward : β → Stage}

/-- Whether two runs that started with no more than a given amount left end in the same way, and at a stage that is
given by the result. -/
inductive Agree (C : Comparison ε σ) (k : Nat) (after : α → Stage) :
    EStateM.Result ε σ α → EStateM.Result ε σ α → Prop where
  | ok {a : α} {s t : σ} (hsame : C.Same s t) (hfits : (after a).Fits C k s) : Agree C k after (.ok a s) (.ok a t)
  | error {e : ε} {s t : σ} (hsame : C.Same s t) (hle : C.left s ≤ k) : Agree C k after (.error e s) (.error e t)
  | pardoned {e : ε} {s : σ} {r : EStateM.Result ε σ α} (h : C.Pardons e) : Agree C k after (.error e s) r

/-- Whether two parts of runs, from states that go together and fit a stage, end in the same way and at later stages. -/
def Alike (C : Comparison ε σ) (k : Nat) (before : Stage) (after : α → Stage) (x y : EStateM ε σ α) : Prop :=
  ∀ s t, C.Same s t → before.Fits C k s → Agree C k after (x s) (y t)

variable {x y : EStateM ε σ α}

theorem Agree.mono {k' : Nat} {after' : α → Stage} {r r' : EStateM.Result ε σ α} (h : Agree C k after r r') (hle : k ≤ k')
    (hafter : ∀ a s, (after a).Fits C k s → (after' a).Fits C k' s) : Agree C k' after' r r' := by
  cases h with
  | ok hsame hfits => exact .ok hsame (hafter _ _ hfits)
  | error hsame hleft => exact .error hsame (Nat.le_trans hleft hle)
  | pardoned h => exact .pardoned h

theorem Alike.agree {s t : σ} (h : Alike C k before after x y) (hsame : C.Same s t) (hfits : before.Fits C k s) :
    Agree C k after (x s) (y t) :=
  h s t hsame hfits

theorem alike_pure {a : α} (h : (after a).Below before) : Alike C k before after (pure a) (pure a) :=
  fun _ _ hsame hfits => .ok hsame (hfits.below h)

theorem alike_return (a : α) : Alike C k before (fun _ => before) (pure a) (pure a) :=
  alike_pure (below_refl before)

theorem Agree.bind {s t : σ} {f g : α → EStateM ε σ β} (h : Agree C k after (x s) (y t))
    (hf : ∀ a, Alike C k (after a) onward (f a) (g a)) : Agree C k onward ((x >>= f) s) ((y >>= g) t) := by
  simp only [Bind.bind, EStateM.bind]
  generalize x s = r, y t = r' at h
  cases h with
  | @ok a s' t' hsame hfits => exact hf a s' t' hsame hfits
  | error hsame hle => exact .error hsame hle
  | pardoned h => exact .pardoned h

theorem Alike.bind {f g : α → EStateM ε σ β} (h : Alike C k before after x y)
    (hf : ∀ a, Alike C k (after a) onward (f a) (g a)) : Alike C k before onward (x >>= f) (y >>= g) :=
  fun s t hsame hfits => (h s t hsame hfits).bind hf

theorem get_bind_apply (f : σ → EStateM ε σ α) (s : σ) : (get >>= f) s = f s s :=
  rfl

theorem Alike.map {f : α → β} (h : Alike C k before after x y) (hf : ∀ a, (onward (f a)).Below (after a)) :
    Alike C k before onward (f <$> x) (f <$> y) :=
  h.bind (f := fun a => pure (f a)) fun a => alike_pure (hf a)

theorem alike_ite {c : Prop} [Decidable c] {x' y' : EStateM ε σ α} (hx : c → Alike C k before after x y)
    (hy : ¬ c → Alike C k before after x' y') :
    Alike C k before after (if c then x else x') (if c then y else y') := by
  split
  · exact hx ‹_›
  · exact hy ‹_›

theorem alike_throw (e : ε) : Alike C k before after (throw e) (throw e) :=
  fun _ _ hsame hfits => .error hsame hfits.le

/-- What is known of the stage at the start need not be used, and what is known at the end need not be told. -/
theorem Alike.weaken {before' : Stage} {after' : α → Stage} (h : Alike C k before after x y)
    (hbefore : before.Below before') (hafter : ∀ a, (after' a).Below (after a)) :
    Alike C k before' after' x y :=
  fun s t hsame hfits =>
    (h s t hsame (hfits.below hbefore)).mono (Nat.le_refl k) fun a _ hfits => hfits.below (hafter a)

/-- What starts anywhere does so at every stage. -/
theorem Alike.anywhere (h : Alike C k fresh after x y) : Alike C k before after x y :=
  h.weaken trivial fun _ => below_refl _

/-- **What comes later** has less left than the run started with. -/
theorem Alike.later (h : ∀ k' < k, Alike C k' fresh after x y) : Alike C k moved (fun _ => moved) x y := by
  intro s t hsame hfits
  refine (h (C.left s) hfits s t hsame (Nat.le_refl _)).mono (Nat.le_of_lt hfits) fun a s' h => ?_
  exact Nat.lt_of_le_of_lt h.le hfits

/-! ## 3. Loops -/

/-- A loop. -/
structure Loop (ε σ Carry Result : Type) where
  /-- The loop with a bound for the number of its rounds. -/
  run : Nat → Carry → EStateM ε σ Result
  /-- A round, which hands something on to the next one or ends the loop. -/
  round : Carry → EStateM ε σ (Carry ⊕ Result)
  unroll : ∀ bound c, run (bound + 1) c = round c >>= Sum.elim (run bound) pure

namespace Loop

/-- Whether every round of a loop that is followed by another one leaves less to read. -/
def Takes (loop : Loop ε σ Carry Result) (C : Comparison ε σ) : Prop :=
  ∀ c s c' s', C.Same s s → loop.round c s = .ok (.inl c') s' → C.left s' < C.left s

variable {A B : Loop ε σ Carry Result} {last : Result → Stage}

theorem takes_of_alike (hround : ∀ k c, Alike C k fresh (afterRound last) (A.round c) (A.round c)) : A.Takes C := by
  intro c s c' s' hsame hr
  have h := hround (C.left s) c s s hsame (Nat.le_refl _)
  rw [hr] at h
  cases h with
  | ok _ hfits => exact hfits

/-- **Loops whose rounds are alike and take are alike**, however many rounds more than there is left to read they are
allowed. -/
theorem alike_run {m n : Nat} : ∀ {k : Nat},
    (∀ k' ≤ k, ∀ c, Alike C k' fresh (afterRound last) (A.round c) (B.round c)) →
      ∀ {c : Carry} {s t : σ}, C.Same s t → C.left s ≤ k → C.left s < m → C.left s < n →
        Agree C k last (A.run m c s) (B.run n c t) := by
  intro k hround c s t hsame hle hm hn
  induction m generalizing n c s t with
  | zero => omega
  | succ m ih =>
    obtain _ | n := n
    · omega
    have h := hround (C.left s) hle c s t hsame (Nat.le_refl _)
    simp only [unroll, Bind.bind, EStateM.bind]
    generalize A.round c s = r, B.round c t = r' at h
    cases h with
    | @ok next s' t' hsame hfits =>
      cases next with
      | inl c' =>
        have hlt : C.left s' < C.left s := hfits
        exact ih (n := n) hsame (by omega) (by omega) (by omega)
      | inr r => exact .ok hsame (hfits.mono hle)
    | error hsame hleft => exact .error hsame (Nat.le_trans hleft hle)
    | pardoned h => exact .pardoned h

end Loop

end

end GuestScript
