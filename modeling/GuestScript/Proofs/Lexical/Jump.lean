import GuestScript.Proofs.Lexical.Completion
import GuestScript.Proofs.Lexical.Lowering
import Mathlib.Data.List.Forall2

/-!
# Where jumps go

A jump in a body stands inside constructs, from the body down to the jump: its *path*, a list of layers. In a body
from which no jump escapes, one of these constructs takes the signal of the jump, and the innermost one gets it:
whenever the jump is reached, everything between ends at once, with that very signal.

There is one exception. The finalizer of a try statement that is left runs on the way, and where it ends with a jump
itself, or does not end, it puts its own end in the place of the signal.

That a jump is not reached is said with a second run: the run is the same as with anything else in the place of the
jump. So all of this is about two runs (`Eval.LikeBut`), construct by construct, and then by induction on the path.
-/

namespace GuestScript

variable {answers : Answers} {m : Machine} {c : Code} {D : Answers → Event → Prop}

/-! ## 1. Runs that are alike -/

namespace Eval

variable {α β σ : Type}

/-- Whether a run gives one of some results, or has one of some events. Calls are left out. -/
def Turns (J : α → Prop) (D : Answers → Event → Prop) (x : Eval α) (answers : Answers) (m : Machine) : Prop :=
  (∃ a m', x.run answers m = .ok a m' ∧ J a) ∨ ∃ e ∈ x.log answers (fun _ _ => []) m, D answers e

/-- Whether an action runs as another one does, unless it gives one of some results or has one of some events. -/
def LikeBut (J : α → Prop) (D : Answers → Event → Prop) (x y : Eval α) : Prop :=
  ∀ answers m, x.run answers m = y.run answers m ∨ x.Turns J D answers m

section

variable {J : α → Prop} {K : β → Prop} {D D' : Answers → Event → Prop} {x y : Eval α} {f g : α → Eval β}

theorem LikeBut.refl (x : Eval α) : x.LikeBut J D x :=
  fun _ _ => .inl rfl

theorem LikeBut.mono (h : x.LikeBut J D y) (hD : ∀ answers e, D answers e → D' answers e) : x.LikeBut J D' y := by
  intro answers m
  rcases h answers m with heq | hresult | ⟨e, he, hd⟩
  · exact .inl heq
  · exact .inr (.inl hresult)
  · exact .inr (.inr ⟨e, he, hD answers e hd⟩)

theorem turns_pure {a : α} (ha : J a) (answers : Answers) (m : Machine) : (pure a : Eval α).Turns J D answers m :=
  .inl ⟨a, m, rfl, ha⟩

/-- What happens inside an action happens in it. -/
theorem mem_log_of_inside {logs : RequestLogs} {e : Event} (h : e ∈ x.inside answers logs m) :
    e ∈ x.log answers logs m := by
  rw [log_eq]
  exact List.mem_cons_of_mem _ (List.mem_append_left _ h)

/-- What turns the second action turns both in a row. -/
theorem Turns.bind {m' : Machine} {a : α} (hx : x.run answers m = .ok a m') (h : (f a).Turns K D answers m') :
    (x >>= f).Turns K D answers m := by
  rcases h with ⟨b, m'', hr, hb⟩ | ⟨e, he, hd⟩
  · exact .inl ⟨b, m'', by rw [run_bind_of_ok hx, hr], hb⟩
  · refine .inr ⟨e, mem_log_of_inside ?_, hd⟩
    change e ∈ (andThen x f).inside answers _ m
    rw [inside_andThen, hx]
    exact List.mem_append_right _ he

/-- An event of the first action is one of both in a row. -/
theorem turns_bind_of_mem {e : Event} (he : e ∈ x.log answers (fun _ _ => []) m) (hd : D answers e) :
    (x >>= f).Turns K D answers m := by
  refine .inr ⟨e, mem_log_of_inside ?_, hd⟩
  change e ∈ (andThen x f).inside answers _ m
  rw [inside_andThen]
  exact List.mem_append_left _ he

theorem LikeBut.bind (h : x.LikeBut J D y) (hturn : ∀ a, J a → ∀ answers m, (f a).Turns K D answers m)
    (hrest : ∀ a, (f a).LikeBut K D (g a)) : (x >>= f).LikeBut K D (y >>= g) := by
  intro answers m
  rcases h answers m with heq | ⟨a, m', hr, ha⟩ | ⟨e, he, hd⟩
  · cases hr : x.run answers m with
    | error e m' =>
      rw [hr] at heq
      exact .inl (by rw [run_bind_of_error hr, run_bind_of_error heq.symm])
    | ok a m' =>
      rw [hr] at heq
      rcases hrest a answers m' with hsame | hturn
      · exact .inl (by rw [run_bind_of_ok hr, run_bind_of_ok heq.symm, hsame])
      · exact .inr (hturn.bind hr)
  · exact .inr ((hturn a ha answers m').bind hr)
  · exact .inr (turns_bind_of_mem he hd)

/-- Nothing is changed in the first action. -/
theorem likeBut_bind (hrest : ∀ a, (f a).LikeBut K D (g a)) : (x >>= f).LikeBut K D (x >>= g) :=
  (LikeBut.refl (J := fun _ => False) x).bind (fun _ h => h.elim) hrest

theorem LikeBut.ite {c : Prop} [Decidable c] {x' y' : Eval α} (h : x.LikeBut J D y) (h' : x'.LikeBut J D y') :
    (if c then x else x').LikeBut J D (if c then y else y') := by
  split
  · exact h
  · exact h'

theorem LikeBut.within (h : x.LikeBut J D y) (frame : Frame) :
    (Eval.within frame x).LikeBut J D (Eval.within frame y) := by
  intro answers m
  rcases h answers (m.withRegisters frame.enter) with heq | ⟨a, m', hr, ha⟩ | ⟨e, he, hd⟩
  · exact .inl (by simp only [run, Run.between_eq, heq])
  · exact .inr (.inl ⟨a, _, by simp only [run, Run.between_eq, hr]; rfl, ha⟩)
  · exact .inr (.inr ⟨e, mem_log_of_inside he, hd⟩)

theorem LikeBut.settle (h : x.LikeBut J D y) :
    (Eval.settle x).LikeBut (fun r => ∃ a, r = .ok a ∧ J a) D (Eval.settle y) := by
  intro answers m
  rcases h answers m with heq | ⟨a, m', hr, ha⟩ | ⟨e, he, hd⟩
  · exact .inl (by rw [run_settle, run_settle, heq])
  · exact .inr (.inl ⟨.ok a, m', by rw [run_settle, hr]; rfl, a, rfl, ha⟩)
  · exact .inr (.inr ⟨e, mem_log_of_inside he, hd⟩)

/-- The results that end a loop. -/
def Leaving (J : α → Prop) (flow : Flow σ α) : Prop :=
  ∃ a, flow = .leave a ∧ J a

theorem likeBut_rounds {round round' : σ → Eval (Flow σ α)} (h : ∀ s, (round s).LikeBut (Leaving J) D (round' s))
    (answers : Answers) : ∀ (fuel : Nat) (s : σ) (m : Machine),
      Run.rounds (fun s => (round s).run answers) fuel s m = Run.rounds (fun s => (round' s).run answers) fuel s m ∨
        (∃ a m', Run.rounds (fun s => (round s).run answers) fuel s m = .ok a m' ∧ J a) ∨
          ∃ e ∈ Run.roundsLog (fun s => (round s).run answers) (fun s => (round s).log answers fun _ _ => []) fuel s m,
            D answers e
  | 0, _, _ => .inl rfl
  | fuel + 1, s, m => by
    rcases h s answers m with heq | ⟨_, m', hr, a, rfl, ha⟩ | ⟨e, he, hd⟩
    · simp only [Run.rounds, Run.roundsLog, ← heq]
      cases hr : (round s).run answers m with
      | error e m' => exact .inl rfl
      | ok flow m' =>
        cases flow with
        | leave a => exact .inl rfl
        | proceed s' =>
          dsimp only
          split
          · rcases likeBut_rounds h answers fuel s' m' with heq | hresult | ⟨e, he, hd⟩
            · exact .inl heq
            · exact .inr (.inl hresult)
            · exact .inr (.inr ⟨e, List.mem_append_right _ he, hd⟩)
          · exact .inl rfl
    · exact .inr (.inl ⟨a, m', by simp only [Run.rounds, hr], ha⟩)
    · exact .inr (.inr ⟨e, List.mem_append_left _ he, hd⟩)

theorem likeBut_loop {round round' : σ → Eval (Flow σ α)} (h : ∀ s, (round s).LikeBut (Leaving J) D (round' s))
    (start : σ) : (loop round start).LikeBut J D (loop round' start) := by
  intro answers m
  rcases likeBut_rounds h answers (m.limits.maxSteps + 1) start m with heq | hresult | ⟨e, he, hd⟩
  · exact .inl heq
  · exact .inr (.inl hresult)
  · exact .inr (.inr ⟨e, mem_log_of_inside he, hd⟩)

end

end Eval

/-! ## 2. Constructs that pass a signal on -/

/-- The completion that a signal is. -/
def Signal.completion : Signal → Completion
  | .out label => .jumpOut label
  | .on label => .jumpOn label
  | .fallback => .defaultCase

/-- A loop ends with a signal that it does not take. -/
theorem Signal.takeJump_completion {s : Signal} {labels : List String} (hs : ¬ s.takenByLoop labels)
    (last : Completion) : s.completion.takeJump labels last = .leave s.completion := by
  cases s with
  | fallback => exact absurd trivial hs
  | out label =>
    cases label with
    | none => exact absurd trivial hs
    | some label => rfl
  | on label =>
    cases label with
    | none => exact absurd trivial hs
    | some label => exact if_neg fun hmem => hs (List.contains_iff_mem.mp hmem)

namespace Eval

/-- Whether an action runs as another one does, unless it ends with a signal or has one of some events. -/
abbrev PassesOn (s : Signal) (D : Answers → Event → Prop) (x y : Eval Completion) : Prop :=
  x.LikeBut (· = s.completion) D y

section

variable {s : Signal} {D : Answers → Event → Prop} {x y : Eval Completion} {l l' : List (Eval Completion)}

theorem passesOn_step (h : x.PassesOn s D y) (position : Option Position) :
    (step position x).PassesOn s D (step position y) :=
  likeBut_bind fun _ => h

theorem passesOn_sequence (hs : s ≠ .fallback) (h : List.Forall₂ (PassesOn s D) l l') (last : Completion) :
    (sequence l last).PassesOn s D (sequence l' last) := by
  induction h generalizing last with
  | nil => exact .refl _
  | cons hx _ ih =>
    refine hx.bind ?_ fun c => ?_
    · rintro _ rfl
      cases s with
      | fallback => exact absurd rfl hs
      | out | on => exact turns_pure rfl
    · cases c with
      | empty | defaultCase => exact ih last
      | value v => exact ih _
      | exit | jumpOut | jumpOn => exact .refl _

theorem passesOn_inBlock (h : x.PassesOn s D y) (frame : LexicalFrame) (functions : List (String × Template)) :
    (inBlock frame functions x).PassesOn s D (inBlock frame functions y) :=
  likeBut_bind fun _ => likeBut_bind fun _ => .within (likeBut_bind fun _ => h) _

theorem passesOn_block (h : x.PassesOn s D y) (frame : LexicalFrame) (functions : List (String × Template)) :
    (block frame functions x).PassesOn s D (block frame functions y) :=
  h.ite (passesOn_inBlock h frame functions)

theorem passesOn_withObject (h : x.PassesOn s D y) (subject : Eval Completion) :
    (withObject subject x).PassesOn s D (withObject subject y) :=
  likeBut_bind fun _ => likeBut_bind fun _ => likeBut_bind fun _ => likeBut_bind fun _ => h.within _

theorem passesOn_labeled {label : String} (hs : s ≠ .out (some label)) (h : x.PassesOn s D y) :
    (labeled label x).PassesOn s D (labeled label y) := by
  refine h.bind ?_ fun c => .refl _
  rintro _ rfl
  cases s with
  | on | fallback => exact turns_pure rfl
  | out l =>
    cases l with
    | none => exact turns_pure rfl
    | some l => exact turns_pure (if_neg fun hl => hs (by rw [eq_of_beq hl]))

theorem passesOn_branch {x' y' : Eval Completion} (h : x.PassesOn s D y) (h' : x'.PassesOn s D y')
    (test : Eval Completion) : (branch test x x').PassesOn s D (branch test y y') :=
  likeBut_bind fun _ => h.ite h'

theorem passesOn_switchBodies (hout : s ≠ .out none) (hs : s ≠ .fallback) (h : List.Forall₂ (PassesOn s D) l l')
    (last : Completion) : (switchBodies l last).PassesOn s D (switchBodies l' last) := by
  induction h generalizing last with
  | nil => exact .refl _
  | cons hx _ ih =>
    refine hx.bind ?_ fun c => ?_
    · rintro _ rfl
      cases s with
      | fallback => exact absurd rfl hs
      | on label => exact turns_pure rfl
      | out label =>
        cases label with
        | none => exact absurd rfl hout
        | some label => exact turns_pure rfl
    · cases c with
      | empty | defaultCase => exact ih last
      | value v => exact ih _
      | exit | jumpOn => exact .refl _
      | jumpOut label =>
        cases label with
        | none | some => exact .refl _

theorem passesOn_switchCases (hout : s ≠ .out none) (hs : s ≠ .fallback) (h : List.Forall₂ (PassesOn s D) l l')
    (v : Value) (tests : List (Eval Completion)) : (switchCases v tests l).PassesOn s D (switchCases v tests l') := by
  refine likeBut_bind fun chosen => ?_
  cases chosen with
  | none => exact .refl _
  | some i => exact passesOn_switchBodies hout hs (List.forall₂_drop i h) _

theorem passesOn_switch (hout : s ≠ .out none) (hs : s ≠ .fallback) (h : List.Forall₂ (PassesOn s D) l l')
    (discriminant : Eval Completion) (frame : LexicalFrame) (functions : List (String × Template))
    (tests : List (Eval Completion)) :
    (switch discriminant frame functions tests l).PassesOn s D (switch discriminant frame functions tests l') :=
  likeBut_bind fun v => (passesOn_switchCases hout hs h v tests).ite
    (passesOn_inBlock (passesOn_switchCases hout hs h v tests) frame functions)

/-! ### Exceptions -/

/-- The handler is not reached when the block ends with a signal. -/
theorem passesOn_guarded (h : x.PassesOn s D y) (handler : Option (Option (Value → Eval Unit) × Eval Completion)) :
    (guarded x handler).PassesOn s D (guarded y handler) := by
  cases handler with
  | none => exact h
  | some handler =>
    refine h.settle.bind ?_ fun r => .refl _
    rintro _ ⟨c, rfl, hc⟩
    exact turns_pure hc

theorem passesOn_handler (h : x.PassesOn s D y) (body : Eval Completion) (bind : Option (Value → Eval Unit)) :
    (guarded body (some (bind, x))).PassesOn s D (guarded body (some (bind, y))) := by
  refine likeBut_bind fun r => ?_
  cases r with
  | ok c => exact .refl _
  | error thrown =>
    refine likeBut_bind fun _ => likeBut_bind fun _ => .within ?_ _
    cases bind with
    | none => exact h
    | some bind => exact likeBut_bind fun _ => h

/-- Whether a finalizer puts its own end in the place of that of what it finalizes: it has jumped, or not ended. -/
def Overrides : EStateM.Result Stop Machine Completion → Prop
  | .ok c _ => c.isAbrupt = true
  | .error _ _ => True

/-- Whether an event is the end, with a signal, of the part of a try statement before a finalizer, and the finalizer
overrides that. -/
def Overridden (s : Signal) (finalized finalizer : Eval Completion) (answers : Answers) (e : Event) : Prop :=
  ∃ m, e = .finish finalized (.ok s.completion m) ∧ Overrides (finalizer.run answers m)

theorem passesOn_attempt {body body' : Eval Completion}
    {handler handler' : Option (Option (Value → Eval Unit) × Eval Completion)} {finalizer : Option (Eval Completion)}
    (h : (guarded body handler).PassesOn s D (guarded body' handler'))
    (hD : ∀ last ∈ finalizer, ∀ answers e, Overridden s (guarded body handler) last answers e → D answers e) :
    (attempt body handler finalizer).PassesOn s D (attempt body' handler' finalizer) := by
  cases finalizer with
  | none => exact h
  | some last =>
    intro answers m
    -- the finalizer runs in either case, and the signal is what it finalizes
    rcases h answers m with heq | ⟨_, m', hr, rfl⟩ | ⟨e, he, hd⟩
    · refine .inl ?_
      have hsettle : (settle (guarded body handler)).run answers m =
          (settle (guarded body' handler')).run answers m := by
        rw [run_settle, run_settle, heq]
      simp only [attempt, Bind.bind, run] at hsettle ⊢
      rw [hsettle]
    · have hsettle : (settle (guarded body handler)).run answers m = .ok (.ok s.completion) m' := by
        rw [run_settle, hr]
        rfl
      by_cases hover : Overrides (last.run answers m')
      · refine .inr (turns_bind_of_mem (mem_log_of_inside ?_) (hD last rfl answers _ ⟨m', rfl, hover⟩))
        rw [inside_settle, log_eq, hr]
        exact List.mem_cons_of_mem _ (List.mem_append_right _ List.mem_cons_self)
      · refine .inr (Turns.bind hsettle ?_)
        cases hlast : last.run answers m' with
        | error e m'' =>
          rw [hlast] at hover
          exact absurd trivial hover
        | ok c m'' =>
          rw [hlast] at hover
          refine Turns.bind hlast ?_
          rw [if_neg (show ¬ c.isAbrupt = true from hover)]
          exact turns_pure (J := (· = s.completion)) rfl answers m''
    · exact .inr (turns_bind_of_mem (mem_log_of_inside he) hd)

/-- A finalizer ends the try statement with its own signal. -/
theorem passesOn_finalizer (hs : s ≠ .fallback) (h : x.PassesOn s D y) (body : Eval Completion)
    (handler : Option (Option (Value → Eval Unit) × Eval Completion)) :
    (attempt body handler (some x)).PassesOn s D (attempt body handler (some y)) := by
  refine likeBut_bind fun r => h.bind ?_ fun c => .refl _
  rintro _ rfl
  cases s with
  | fallback => exact absurd rfl hs
  | out | on => exact turns_pure rfl

/-! ### Loops -/

section

variable {labels : List String}

theorem passesOn_whileLoop (hs : ¬ s.takenByLoop labels) (h : x.PassesOn s D y) (test : Eval Completion) :
    (whileLoop labels test x).PassesOn s D (whileLoop labels test y) := by
  refine likeBut_loop (fun last => likeBut_bind fun v => .ite (h.bind ?_ fun c => .refl _) (.refl _)) _
  rintro _ rfl
  exact turns_pure ⟨_, s.takeJump_completion hs last, rfl⟩

theorem passesOn_doLoop (hs : ¬ s.takenByLoop labels) (h : x.PassesOn s D y) (test : Eval Completion) :
    (doLoop labels x test).PassesOn s D (doLoop labels y test) := by
  refine likeBut_loop (fun last => h.bind ?_ fun c => .refl _) _
  rintro _ rfl
  dsimp only
  rw [s.takeJump_completion hs]
  exact turns_pure ⟨_, rfl, rfl⟩

theorem passesOn_forLoop (hs : ¬ s.takenByLoop labels) (h : x.PassesOn s D y) (frame : LexicalFrame)
    (init test update : Option (Eval Completion)) :
    (forLoop labels frame init test update x).PassesOn s D (forLoop labels frame init test update y) := by
  unfold forLoop
  refine likeBut_bind fun outer => ?_
  extract_lets rest rest'
  have hrest : ∀ scope, (rest scope).PassesOn s D (rest' scope) := fun scope => likeBut_bind fun _ => ?_
  · exact .ite (likeBut_bind hrest) (likeBut_bind hrest)
  refine likeBut_loop (fun last => .within (likeBut_bind fun passed => .ite (h.bind ?_ fun c => .refl _) (.refl _)) _) _
  rintro _ rfl
  dsimp only
  rw [s.takeJump_completion hs]
  exact turns_pure ⟨_, rfl, rfl⟩

theorem passesOn_forInRound (h : x.PassesOn s D y) (bind : Value → Eval Unit) (frame : LexicalFrame) (name : String) :
    (forInRound bind frame x name).PassesOn s D (forInRound bind frame y name) :=
  .ite (likeBut_bind fun _ => h) (likeBut_bind fun _ => likeBut_bind fun _ => .within (likeBut_bind fun _ => h) _)

theorem passesOn_forInRounds (hs : ¬ s.takenByLoop labels) (h : x.PassesOn s D y) (subject : ObjectId)
    (bind : Value → Eval Unit) (frame : LexicalFrame) (names : List String) (last : Completion) :
    (forInRounds labels subject bind frame x names last).PassesOn s D
      (forInRounds labels subject bind frame y names last) := by
  induction names generalizing last with
  | nil => exact .refl _
  | cons name names ih =>
    refine likeBut_bind fun _ => .ite ((passesOn_forInRound h bind frame name).bind ?_ fun c => ?_) (ih last)
    · rintro _ rfl
      rw [s.takeJump_completion hs]
      exact turns_pure rfl
    · cases c.takeJump labels last with
      | leave c => exact .refl _
      | proceed next => exact ih next

theorem passesOn_forIn (hs : ¬ s.takenByLoop labels) (h : x.PassesOn s D y) (subject : Eval Completion)
    (bind : Value → Eval Unit) (frame : LexicalFrame) :
    (forIn labels subject bind frame x).PassesOn s D (forIn labels subject bind frame y) :=
  likeBut_bind fun _ => .ite (.refl _) <| likeBut_bind fun id => likeBut_bind fun names =>
    passesOn_forInRounds hs h id bind frame names.toList .empty

end

end

end Eval

/-! ## 3. Paths -/

/-- A construct with a place for one of its statements. -/
inductive Layer where
  | step (position : Option Position)
  | sequence (before after : List Code)
  | block (frame : LexicalFrame) (functions : List (String × Template))
  | withObject (subject : Code)
  | labeled (label : String)
  | consequent (test : Code) (alternate : Option Code)
  | alternate (test consequent : Code)
  | case (discriminant : Code) (frame : LexicalFrame) (functions : List (String × Template))
    (tests before after : List Code)
  | tryBlock (handler : Option (Option Pattern × Code)) (finalizer : Option Code)
  | tryHandler (body : Code) (pattern : Option Pattern) (finalizer : Option Code)
  | tryFinalizer (body : Code) (handler : Option (Option Pattern × Code))
  | whileLoop (labels : List String) (test : Code)
  | doLoop (labels : List String) (test : Code)
  | forLoop (labels : List String) (frame : LexicalFrame) (init test update : Option Code)
  | forIn (labels : List String) (target : Pattern) (frame : LexicalFrame) (subject : Code)

namespace Layer

/-- The construct with a statement in its place. -/
def fill : Layer → Code → Code
  | step position, c => .step position c
  | sequence before after, c => .sequence (before ++ c :: after)
  | block frame functions, c => .block frame functions c
  | withObject subject, c => .withObject subject c
  | labeled label, c => .labeled label c
  | consequent test other, c => .branch test c other
  | alternate test other, c => .branch test other (some c)
  | case discriminant frame functions tests before after, c =>
    .switch discriminant frame functions tests (before ++ c :: after)
  | tryBlock handler finalizer, c => .attempt c handler finalizer
  | tryHandler body pattern finalizer, c => .attempt body (some (pattern, c)) finalizer
  | tryFinalizer body handler, c => .attempt body handler (some c)
  | whileLoop labels test, c => .whileLoop labels test c
  | doLoop labels test, c => .doLoop labels c test
  | forLoop labels frame init test update, c => .forLoop labels frame init test update c
  | forIn labels target frame subject, c => .forIn labels target frame subject c

/-- Whether a construct takes the signal of a jump in its statement. -/
def Takes : Layer → Signal → Prop
  | labeled label, s => s = .out (some label)
  | case _ _ _ _ _ _, s => s = .out none
  | whileLoop labels _, s | doLoop labels _, s | forLoop labels _ _ _ _, s | forIn labels _ _ _, s =>
    s.takenByLoop labels
  | step _, _ | sequence _ _, _ | block _ _, _ | withObject _, _ | consequent _ _, _ | alternate _ _, _
  | tryBlock _ _, _ | tryHandler _ _ _, _ | tryFinalizer _ _, _ => False

/-- The parts of a try statement with a statement in its block or its handler: what stands before the finalizer, and
the finalizer. -/
def finalized? : Layer → Code → Option (Eval Completion × Code)
  | tryBlock handler (some last), c => some (Eval.guarded c.exec (Code.handler? handler), last)
  | tryHandler body pattern (some last), c => some (Eval.guarded body.exec (Code.handler? (some (pattern, c))), last)
  | _, _ => none

/-- Whether an event is the end, with a signal, of the part of a construct before its finalizer, and the finalizer
overrides that. -/
def Overridden (s : Signal) (l : Layer) (c : Code) (answers : Answers) (e : Event) : Prop :=
  ∃ parts ∈ l.finalized? c, Eval.Overridden s parts.1 parts.2.exec answers e

end Layer

/-- The code of a body around a statement, from the outside to the inside, with the statement. -/
def Path.fill (path : List Layer) (c : Code) : Code :=
  path.foldr Layer.fill c

/-- Whether an event is the end, with a signal, of what a finalizer on a path finalizes, and the finalizer overrides
that. -/
def Path.Overridden (s : Signal) : List Layer → Code → Answers → Event → Prop
  | [], _, _, _ => False
  | l :: path, c, answers, e => l.Overridden s (Path.fill path c) answers e ∨ Path.Overridden s path c answers e

section

open Eval

variable {s : Signal}

theorem Code.execAll_append : ∀ l l' : List Code, Code.execAll (l ++ l') = Code.execAll l ++ Code.execAll l'
  | [], _ => rfl
  | c :: l, l' => congrArg (c.exec :: ·) (execAll_append l l')

/-- Lists that are alike but for one place. -/
theorem forall₂_likeBut {x y : Eval Completion} (h : x.PassesOn s D y) (l l' : List (Eval Completion)) :
    List.Forall₂ (PassesOn s D) (l ++ x :: l') (l ++ y :: l') := by
  have hrefl (l : List (Eval Completion)) : List.Forall₂ (PassesOn s D) l l := List.forall₂_same.mpr fun _ _ => .refl _
  exact List.rel_append (hrefl l) (.cons h (hrefl l'))

/-- **A construct passes on what it does not take**, unless its finalizer overrides it. -/
theorem Layer.passesOn {l : Layer} (hs : s ≠ .fallback) (hl : ¬ l.Takes s) {c' : Code} (h : c.exec.PassesOn s D c'.exec)
    (hD : ∀ answers e, l.Overridden s c answers e → D answers e) :
    (l.fill c).exec.PassesOn s D (l.fill c').exec := by
  cases l with
  | step position => exact passesOn_step h position
  | sequence before after =>
    change (Eval.sequence (Code.execAll (before ++ c :: after)) _).PassesOn s D
      (Eval.sequence (Code.execAll (before ++ c' :: after)) _)
    rw [Code.execAll_append, Code.execAll_append]
    exact passesOn_sequence hs (forall₂_likeBut h _ _) _
  | block frame functions => exact passesOn_block h frame functions
  | withObject subject => exact passesOn_withObject h subject.exec
  | labeled label => exact passesOn_labeled hl h
  | consequent test other => exact passesOn_branch h (.refl _) test.exec
  | alternate test other => exact passesOn_branch (.refl _) h test.exec
  | case discriminant frame functions tests before after =>
    change (Eval.switch _ _ _ _ (Code.execAll (before ++ c :: after))).PassesOn s D
      (Eval.switch _ _ _ _ (Code.execAll (before ++ c' :: after)))
    rw [Code.execAll_append, Code.execAll_append]
    exact passesOn_switch hl hs (forall₂_likeBut h _ _) _ _ _ _
  | tryBlock handler finalizer =>
    refine passesOn_attempt (passesOn_guarded h _) fun last hlast answers e he => ?_
    cases finalizer with
    | none => cases hlast
    | some finalizer =>
      cases hlast
      exact hD answers e ⟨_, rfl, he⟩
  | tryHandler body pattern finalizer =>
    have hparts : (Eval.guarded body.exec (Code.handler? (some (pattern, c)))).PassesOn s D
        (Eval.guarded body.exec (Code.handler? (some (pattern, c')))) := by
      cases pattern with
      | none | some => exact passesOn_handler h body.exec _
    refine passesOn_attempt hparts fun last hlast answers e he => ?_
    cases finalizer with
    | none => cases hlast
    | some finalizer =>
      cases hlast
      exact hD answers e ⟨_, rfl, he⟩
  | tryFinalizer body handler => exact passesOn_finalizer hs h body.exec _
  | whileLoop labels test => exact passesOn_whileLoop hl h test.exec
  | doLoop labels test => exact passesOn_doLoop hl h test.exec
  | forLoop labels frame init test update => exact passesOn_forLoop hl h frame _ _ _
  | forIn labels target frame subject => exact passesOn_forIn hl h subject.exec target.bind frame

/-- What is passed on by a construct is passed on by all that pass it on. -/
theorem Path.passesOn (hs : s ≠ .fallback) {c' : Code} (h : ∀ D, c.exec.PassesOn s D c'.exec) :
    ∀ {path : List Layer}, (∀ l ∈ path, ¬ l.Takes s) →
      (Path.fill path c).exec.PassesOn s (Path.Overridden s path c) (Path.fill path c').exec
  | [], _ => h _
  | l :: _, hpath =>
    have hrest := Path.passesOn hs h fun l hl => hpath l (List.mem_cons_of_mem _ hl)
    Layer.passesOn hs (hpath l List.mem_cons_self) (hrest.mono fun _ _ => .inr) fun _ _ => .inl

/-! ## 4. Bodies -/

theorem Code.anyEscapes_append {c : Code} (h : c.Escapes s) (after : List Code) :
    ∀ before : List Code, Code.AnyEscapes (before ++ c :: after) s
  | [] => .inl h
  | _ :: before => .inr (anyEscapes_append h after before)

/-- What a construct does not take escapes from it. -/
theorem Layer.escapes_fill {l : Layer} (hs : s ≠ .fallback) (hl : ¬ l.Takes s) (h : c.Escapes s) :
    (l.fill c).Escapes s := by
  cases l with
  | step | block | withObject => exact h
  | sequence before after => exact ⟨hs, Code.anyEscapes_append h after before⟩
  | labeled | whileLoop | doLoop | forLoop | forIn => exact ⟨hl, h⟩
  | consequent | tryBlock => exact .inl h
  | alternate => exact .inr h
  | case discriminant frame functions tests before after => exact ⟨hl, hs, Code.anyEscapes_append h after before⟩
  | tryHandler => exact .inr (.inl h)
  | tryFinalizer => exact .inr (.inr h)

/-- What a construct takes does not escape from it. -/
theorem Layer.not_escapes_fill {l : Layer} (hl : l.Takes s) (c : Code) : ¬ (l.fill c).Escapes s := by
  cases l with
  | labeled | whileLoop | doLoop | forLoop | forIn | case => exact fun h => h.1 hl
  | _ => exact hl.elim

/-- A signal either escapes from all constructs on a path, or there is an innermost one that takes it. -/
theorem Path.escapes_or_taken (hs : s ≠ .fallback) (h : c.Escapes s) : ∀ path : List Layer,
    ((∀ l ∈ path, ¬ l.Takes s) ∧ (Path.fill path c).Escapes s) ∨
      ∃ outer taker inner, path = outer ++ taker :: inner ∧ taker.Takes s ∧ ∀ l ∈ inner, ¬ l.Takes s
  | [] => .inl ⟨fun _ => nofun, h⟩
  | l :: path => by
    rcases Path.escapes_or_taken hs h path with ⟨hpath, hescapes⟩ | ⟨outer, taker, inner, rfl, htaken⟩
    · by_cases hl : l.Takes s
      · exact .inr ⟨[], l, path, rfl, hl, hpath⟩
      · exact .inl ⟨List.forall_mem_cons.mpr ⟨hl, hpath⟩, Layer.escapes_fill hs hl hescapes⟩
    · exact .inr ⟨l :: outer, taker, inner, rfl, htaken⟩

end

/-- The signal of a jump. -/
def Code.jump? : Code → Option Signal
  | .jumpOut label => some (.out label)
  | .jumpOn label => some (.on label)
  | _ => none

/-- A jump goes to a construct, along the path between them: this is the first one that takes its signal, the jump
ends all that is between at once unless a finalizer overrides it, and the signal goes no further. -/
structure Jumps (jump : Code) (s : Signal) (taker : Layer) (inner : List Layer) : Prop where
  takes : taker.Takes s
  passed : ∀ l ∈ inner, ¬ l.Takes s
  /-- The run of what is between ends with the signal, unless it is the same with anything else in place of the jump. -/
  reaches : ∀ (other : Code) (answers : Answers) (m : Machine),
    (Path.fill inner jump).exec.run answers m = (Path.fill inner other).exec.run answers m ∨
      (∃ m', (Path.fill inner jump).exec.run answers m = .ok s.completion m') ∨
        ∃ e ∈ (Path.fill inner jump).exec.log answers (fun _ _ => []) m, Path.Overridden s inner jump answers e
  stops : ∀ (answers : Answers) (m m' : Machine),
    (taker.fill (Path.fill inner jump)).exec.run answers m ≠ .ok s.completion m'

/-- Whether a body keeps its jumps to itself: no run of it ends with a signal, and each of its jumps goes to a construct
in it. -/
structure Code.KeepsJumps (body : Code) : Prop where
  ends : ∀ (answers : Answers) (m : Machine) (c : Completion) (m' : Machine),
    body.exec.run answers m = .ok c m' → c.signal? = none
  taken : ∀ (path : List Layer) (jump : Code) (s : Signal), jump.jump? = some s → body = Path.fill path jump →
    ∃ outer taker inner, path = outer ++ taker :: inner ∧ Jumps jump s taker inner

theorem Signal.signal_completion (s : Signal) : s.completion.signal? = some s := by
  cases s <;> rfl

/-- **A body from which nothing escapes keeps its jumps to itself.** -/
theorem Code.Quiet.keepsJumps {body : Code} (h : body.Quiet) : body.KeepsJumps where
  ends answers m c m' hr := by
    cases hs : c.signal? with
    | none => rfl
    | some s => exact absurd (body.endsIn_exec answers m c m' hr s hs) (h s)
  taken path jump s hjump hbody := by
    have hs : s ≠ .fallback := by
      rintro rfl
      cases jump <;> cases hjump
    have hescapes : jump.Escapes s := by
      cases jump <;> cases hjump <;> rfl
    rcases Path.escapes_or_taken hs hescapes path with ⟨-, hout⟩ | ⟨outer, taker, inner, hpath, htakes, hinner⟩
    · exact absurd (hbody ▸ hout) (h s)
    · have hpure : ∀ D c', jump.exec.PassesOn s D c' := by
        cases jump <;> cases hjump <;> exact fun D c' answers m => .inr (.inl ⟨_, m, rfl, rfl⟩)
      refine ⟨outer, taker, inner, hpath, htakes, hinner, fun other answers m => ?_, fun answers m m' hr => ?_⟩
      · rcases Path.passesOn hs (fun D => hpure D other.exec) hinner answers m with heq | ⟨_, m', hr, rfl⟩ | hover
        · exact .inl heq
        · exact .inr (.inl ⟨m', hr⟩)
        · exact .inr (.inr hover)
      · exact Layer.not_escapes_fill htakes _ (Code.endsIn_exec _ answers m _ m' hr s s.signal_completion)

/-- **The bodies of a text keep their jumps to themselves**: that of its program, and those of all functions in it. -/
theorem Program.keepsJumps_of_parse {text : String} {options : ParseOptions} {n : Node} {p : Program}
    {source : Option String} (hn : parse text options = .ok n) (hp : Program.ofTree n source = .ok p) :
    p.body.KeepsJumps ∧ p.Placed fun t => t.body.KeepsJumps :=
  have hplaced := Program.placed_of_parse (fun _ h => Code.Quiet.keepsJumps h) hn hp
  ⟨Code.Quiet.keepsJumps hplaced.body.escapes, hplaced⟩

/-- The program of a text. -/
def Program.ofText? (text : String) : Option Program :=
  (parse text {}).toOption.bind fun n => (ofTree n none).toOption

theorem Program.tree_of_ofText? {text : String} {p : Program} (h : ofText? text = some p) :
    ∃ n, parse text {} = .ok n ∧ ofTree n none = .ok p := by
  obtain ⟨n, hn, hp⟩ := Option.bind_eq_some_iff.mp h
  refine ⟨n, ?_, ?_⟩
  · generalize parse text {} = r at hn
    cases r <;> cases hn
    rfl
  · generalize ofTree n none = r at hp
    cases r <;> cases hp
    rfl

/-- A function in a loop, with a loop of its own that is left. -/
theorem Program.keepsJumps_nested : ∃ n p,
    parse "while (f) (function () \x7b do break; while (f) \x7d)()" {} = .ok n ∧ Program.ofTree n none = .ok p ∧
      p.body.KeepsJumps ∧ p.Placed fun t => t.body.KeepsJumps := by
  have hsome : (ofText? "while (f) (function () \x7b do break; while (f) \x7d)()").isSome := by decide +kernel
  obtain ⟨p, h⟩ := Option.isSome_iff_exists.mp hsome
  obtain ⟨n, hn, hp⟩ := tree_of_ofText? h
  exact ⟨n, p, hn, hp, keepsJumps_of_parse hn hp⟩

/-- A loop that is left from a try statement whose finalizer throws. -/
def leftTry : String :=
  "while (true) \x7b try \x7b break \x7d finally \x7b throw null \x7d \x7d"

/-- The loop of this text, and what is between it and the jump. -/
def Code.leftTry? : Code → Option (Layer × List Layer)
  | .sequence [.step _ (.whileLoop labels test (.step a (.block frame functions (.sequence [.step b (.attempt
      (.step c (.block frame' functions' (.sequence [.step d (.jumpOut none)]))) none last)]))))] =>
    some (.whileLoop labels test, [.step a, .block frame functions, .sequence [] [], .step b, .tryBlock none last,
      .step c, .block frame' functions', .sequence [] [], .step d])
  | _ => none

theorem Code.eq_of_leftTry? {taker : Layer} {inner : List Layer} (h : c.leftTry? = some (taker, inner)) :
    ∃ outer, c = Path.fill (outer ++ taker :: inner) (.jumpOut none) ∧ taker.Takes (.out none) ∧
      ∀ l ∈ inner, ¬ l.Takes (.out none) := by
  unfold Code.leftTry? at h
  split at h
  · cases h
    exact ⟨[.sequence [] [], .step _], rfl, trivial, by simp [Layer.Takes.eq_def]⟩
  · cases h

/-- Whether the run of what is between a construct and a jump fails, and earlier than with something else in place of
the jump. -/
def Path.failsBefore (inner : List Layer) (jump other : Code) (answers : Answers) (m : Machine) : Bool :=
  match (Path.fill inner jump).exec.run answers m, (Path.fill inner other).exec.run answers m with
  | .error _ m, .error _ m' => m.steps < m'.steps
  | _, _ => false

theorem Path.ne_of_failsBefore {inner : List Layer} {jump other : Code}
    (h : failsBefore inner jump other answers m = true) :
    (Path.fill inner jump).exec.run answers m ≠ (Path.fill inner other).exec.run answers m ∧
      ∀ c m', (Path.fill inner jump).exec.run answers m ≠ .ok c m' := by
  unfold failsBefore at h
  split at h
  · rename_i hr hr'
    rw [hr, hr']
    refine ⟨fun heq => ?_, fun c m' => nofun⟩
    cases heq
    simp at h
  · cases h

/-- The finalizer throws while the jump is on its way to the loop, and the loop never gets its signal. -/
theorem jump_overridden : ∃ n p outer taker inner,
    parse leftTry {} = .ok n ∧ Program.ofTree n none = .ok p ∧
      p.body = Path.fill (outer ++ taker :: inner) (.jumpOut none) ∧ taker.Takes (.out none) ∧
        (∀ l ∈ inner, ¬ l.Takes (.out none)) ∧
          ∃ other answers m,
            (Path.fill inner (.jumpOut none)).exec.run answers m ≠ (Path.fill inner other).exec.run answers m ∧
              ∀ m', (Path.fill inner (.jumpOut none)).exec.run answers m ≠ .ok (.jumpOut none) m' := by
  have hcheck : ((Program.ofText? leftTry).bind fun p => p.body.leftTry?.map fun parts =>
      Path.failsBefore parts.2 (.jumpOut none) (.step none .empty) (fun _ m => .error .exhausted m) {}) = some true := by
    decide +kernel
  obtain ⟨p, hp, hparts⟩ := Option.bind_eq_some_iff.mp hcheck
  obtain ⟨n, hn, hp⟩ := Program.tree_of_ofText? hp
  obtain ⟨⟨taker, inner⟩, hparts, hfails⟩ := Option.map_eq_some_iff.mp hparts
  obtain ⟨outer, hbody, htakes, hinner⟩ := Code.eq_of_leftTry? hparts
  obtain ⟨hne, hnever⟩ := Path.ne_of_failsBefore hfails
  exact ⟨n, p, outer, taker, inner, hn, hp, hbody, htakes, hinner, _, _, _, hne, hnever _⟩

end GuestScript
