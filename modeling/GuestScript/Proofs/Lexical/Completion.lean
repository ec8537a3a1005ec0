import GuestScript.Proofs.Lexical.Code
import GuestScript.Proofs.Mirror.Action

/-!
# What code ends with

A run of a piece of code can end with a signal only if a jump in the code escapes (`Code.endsIn_exec`). Every construct
passes on the signals of its parts, less those that it takes, and has none of its own.

The induction is on the code. What the parts of a construct end with is all that is known about them, on any machine
and with any answers to requests: `Eval.Gives` speaks of what an action gives, and of nothing else.
-/

namespace GuestScript

variable {last : Completion} {body : Eval Completion} {bodies : List (Eval Completion)}

/-! ## 1. What actions give -/

namespace Eval

variable {α β σ : Type} {P : α → Prop} {Q : β → Prop} {x : Eval α}

/-- Whether everything that an action gives has a property, on any machine and with any answers. -/
def Gives (x : Eval α) (P : α → Prop) : Prop :=
  ∀ (answers : Answers) (m : Machine) (a : α) (m' : Machine), x.run answers m = .ok a m' → P a

theorem gives_pure {a : α} (ha : P a) : (pure a : Eval α).Gives P := by
  intro answers m b m' h
  cases h
  exact ha

theorem gives_stop (s : Stop) : (stop s : Eval α).Gives P := by
  intro answers m b m' h
  cases h

theorem Gives.bind {f : α → Eval β} (hx : x.Gives P) (hf : ∀ a, P a → (f a).Gives Q) : (x >>= f).Gives Q := by
  intro answers m b m' h
  obtain ⟨a, m₁, hr, h⟩ := run_bind_ok h
  exact hf a (hx answers m a m₁ hr) answers m₁ b m' h

/-- Nothing is said about what the first action gives. -/
theorem gives_bind {f : α → Eval β} (hf : ∀ a, (f a).Gives Q) : (x >>= f).Gives Q :=
  Gives.bind (P := fun _ => True) (fun _ _ _ _ _ => trivial) fun a _ => hf a

theorem Gives.mono {P' : α → Prop} (hx : x.Gives P) (h : ∀ a, P a → P' a) : x.Gives P' :=
  fun answers m a m' hr => h a (hx answers m a m' hr)

theorem gives_ite {c : Prop} [Decidable c] {y : Eval α} (hx : x.Gives P) (hy : y.Gives P) :
    (if c then x else y).Gives P := by
  split
  · exact hx
  · exact hy

theorem gives_within (frame : Frame) (hx : x.Gives P) : (within frame x).Gives P := by
  intro answers m a m' h
  simp only [run, Run.between_eq] at h
  generalize hr : x.run answers (m.withRegisters frame.enter) = r at h
  cases r with
  | error e m₁ => cases h
  | ok b m₁ =>
    cases h
    exact hx answers _ _ _ hr

/-- What is said about a result, when none is thrown in its place. -/
theorem gives_settle (hx : x.Gives P) : (settle x).Gives fun r => ∀ a, r = .ok a → P a := by
  intro answers m r m' h
  rw [run_settle] at h
  generalize hr : x.run answers m = result at h
  cases result with
  | ok b m₁ =>
    cases h
    rintro _ ⟨⟩
    exact hx answers m b _ hr
  | error e m₁ =>
    cases e with
    | thrown v =>
      cases h
      exact nofun
    | interrupt | exhausted | panicked => cases h

/-- What the rounds of a loop hand on to each other, and what the last one leaves. -/
theorem gives_rounds {round : σ → Eval (Flow σ α)} {S : σ → Prop}
    (hround : ∀ s, S s → (round s).Gives (Flow.Satisfies S P)) {answers : Answers} : ∀ (fuel : Nat) (s : σ) (m : Machine),
      S s → ∀ (a : α) (m' : Machine), Run.rounds (fun s => (round s).run answers) fuel s m = .ok a m' → P a
  | 0, _, _, _, _, _, h => by cases h
  | fuel + 1, s, m, hs, a, m', h => by
    have hflow := hround s hs answers m
    unfold Run.rounds at h
    dsimp only at h
    generalize (round s).run answers m = r at hflow h
    cases r with
    | error e m₁ => cases h
    | ok flow m₁ =>
      specialize hflow flow m₁ rfl
      cases flow with
      | leave b =>
        cases h
        exact hflow
      | proceed s' =>
        dsimp only at h
        split at h
        · exact gives_rounds hround fuel s' m₁ hflow a m' h
        · cases h

theorem gives_loop {round : σ → Eval (Flow σ α)} {start : σ} {S : σ → Prop} (hstart : S start)
    (hround : ∀ s, S s → (round s).Gives (Flow.Satisfies S P)) : (loop round start).Gives P :=
  fun _ m a m' h => gives_rounds hround _ start m hstart a m' h

end Eval

/-! ## 2. Signals of completions -/

/-- Whether a completion is no signal but one of some signals. -/
def Completion.Only (P : Signal → Prop) (c : Completion) : Prop :=
  ∀ s, c.signal? = some s → P s

/-- Whether an action ends with no signal but one of some signals. -/
abbrev Eval.EndsIn (x : Eval Completion) (P : Signal → Prop) : Prop :=
  x.Gives (Completion.Only P)

namespace Completion

variable {P Q : Signal → Prop} {c : Completion}

theorem only_of_none (h : c.signal? = none) : c.Only P :=
  fun _ hs => nomatch h.symm.trans hs

theorem only_value (v : Value) : (value v).Only P :=
  only_of_none rfl

theorem Only.mono (h : c.Only P) (hpq : ∀ s, P s → Q s) : c.Only Q :=
  fun s hs => hpq s (h s hs)

/-- What a loop leaves, it does not take, and it hands no signal on to its next round. -/
theorem Only.takeJump (h : c.Only P) (labels : List String) (hlast : last.signal? = none) :
    (c.takeJump labels last).Satisfies (fun next => next.signal? = none)
      (Only fun s => ¬ s.takenByLoop labels ∧ P s) := by
  cases c with
  | value v => exact rfl
  | empty | defaultCase => exact hlast
  | exit v => exact only_of_none rfl
  | jumpOut label =>
    cases label with
    | none => exact only_of_none hlast
    | some label =>
      rintro s ⟨⟩
      exact ⟨id, h _ rfl⟩
  | jumpOn label =>
    cases label with
    | none => exact hlast
    | some label =>
      unfold Completion.takeJump
      dsimp only
      split
      · exact hlast
      · rename_i hlabel
        rintro s ⟨⟩
        exact ⟨fun hmem => hlabel (List.contains_iff_mem.mpr hmem), h _ rfl⟩

end Completion

/-! ## 3. Statements -/

namespace Eval

open Completion

variable {P Q : Signal → Prop}

theorem EndsIn.mono {x : Eval Completion} (hx : x.EndsIn P) (h : ∀ s, P s → Q s) : x.EndsIn Q :=
  Gives.mono hx fun _ hc => hc.mono h

/-- The value of an action is no signal. -/
theorem endsIn_value (x : Eval Value) : (do return Completion.value (← x) : Eval Completion).EndsIn P :=
  gives_bind fun v => gives_pure (only_value v)

theorem endsIn_step {x : Eval Completion} (hx : x.EndsIn P) (position : Option Position) :
    (step position x).EndsIn P :=
  gives_bind fun _ => hx

theorem endsIn_sequence {l : List (Eval Completion)} (h : ∀ x ∈ l, x.EndsIn P) (hlast : last.signal? = none) :
    (sequence l last).EndsIn fun s => s ≠ .fallback ∧ P s := by
  induction l generalizing last with
  | nil => exact gives_pure (only_of_none hlast)
  | cons x l ih =>
    have hrest {last : Completion} (hlast : last.signal? = none) := ih (fun y hy => h y (List.mem_cons_of_mem x hy)) hlast
    refine Gives.bind (h x List.mem_cons_self) fun c hc => ?_
    cases c with
    | empty | defaultCase => exact hrest hlast
    | value v => exact hrest rfl
    | exit v => exact gives_pure (only_of_none rfl)
    | jumpOut label | jumpOn label =>
      refine gives_pure ?_
      rintro s ⟨⟩
      exact ⟨nofun, hc _ rfl⟩

theorem endsIn_expressionStatement (x : Eval Completion) : (expressionStatement x).EndsIn P :=
  gives_bind fun v => gives_bind fun _ => gives_pure (only_value v)

theorem endsIn_inBlock {x : Eval Completion} (hx : x.EndsIn P) (frame : LexicalFrame)
    (functions : List (String × Template)) : (inBlock frame functions x).EndsIn P :=
  gives_bind fun _ => gives_bind fun _ => gives_within _ (gives_bind fun _ => hx)

theorem endsIn_block {x : Eval Completion} (hx : x.EndsIn P) (frame : LexicalFrame)
    (functions : List (String × Template)) : (block frame functions x).EndsIn P :=
  gives_ite hx (endsIn_inBlock hx frame functions)

theorem endsIn_withObject (hb : body.EndsIn P) (subject : Eval Completion) : (withObject subject body).EndsIn P :=
  gives_bind fun _ => gives_bind fun _ => gives_bind fun _ => gives_bind fun _ => gives_within _ hb

theorem endsIn_exit (argument : Option (Eval Completion)) : (exit argument).EndsIn P := by
  cases argument with
  | none => exact gives_pure (only_of_none rfl)
  | some x => exact gives_bind fun v => gives_pure (only_of_none rfl)

theorem endsIn_labeled {x : Eval Completion} (hx : x.EndsIn P) (label : String) :
    (labeled label x).EndsIn fun s => s ≠ .out (some label) ∧ P s := by
  refine Gives.bind hx fun c hc => ?_
  cases c with
  | value | empty | exit => exact gives_pure (only_of_none rfl)
  | jumpOn | defaultCase =>
    refine gives_pure ?_
    rintro s ⟨⟩
    exact ⟨nofun, hc _ rfl⟩
  | jumpOut l =>
    cases l with
    | none =>
      refine gives_pure ?_
      rintro s ⟨⟩
      exact ⟨nofun, hc _ rfl⟩
    | some l =>
      refine gives_pure ?_
      split
      · exact only_of_none rfl
      · rename_i hne
        rintro s ⟨⟩
        refine ⟨?_, hc _ rfl⟩
        rintro ⟨⟩
        exact hne (beq_self_eq_true _)

theorem endsIn_branch {consequent alternate : Eval Completion} (hc : consequent.EndsIn P) (ha : alternate.EndsIn P)
    (test : Eval Completion) : (branch test consequent alternate).EndsIn P :=
  gives_bind fun _ => gives_ite hc ha

/-- A choice without an alternative ends with nothing. -/
theorem endsIn_getD {x : Option (Eval Completion)} (hx : ∀ y ∈ x, y.EndsIn P) : (x.getD (pure .empty)).EndsIn P := by
  cases x with
  | none => exact gives_pure (only_of_none rfl)
  | some x => exact hx x rfl

theorem endsIn_logical {right : Eval Completion} (hr : right.EndsIn P) (operator : LogicalOperator)
    (left : Eval Completion) : (logical operator left right).EndsIn P :=
  gives_bind fun l => gives_ite (gives_pure (only_value l)) hr

theorem endsIn_switchBodies {l : List (Eval Completion)} (h : ∀ x ∈ l, x.EndsIn P) (hlast : last.signal? = none) :
    (switchBodies l last).EndsIn fun s => s ≠ .out none ∧ s ≠ .fallback ∧ P s := by
  induction l generalizing last with
  | nil => exact gives_pure (only_of_none hlast)
  | cons x l ih =>
    have hrest {last : Completion} (hlast : last.signal? = none) := ih (fun y hy => h y (List.mem_cons_of_mem x hy)) hlast
    refine Gives.bind (h x List.mem_cons_self) fun c hc => ?_
    cases c with
    | empty | defaultCase => exact hrest hlast
    | value v => exact hrest rfl
    | exit v => exact gives_pure (only_of_none rfl)
    | jumpOn label =>
      refine gives_pure ?_
      rintro s ⟨⟩
      exact ⟨nofun, nofun, hc _ rfl⟩
    | jumpOut label =>
      cases label with
      | none => exact gives_pure (only_of_none hlast)
      | some label =>
        refine gives_pure ?_
        rintro s ⟨⟩
        exact ⟨nofun, nofun, hc _ rfl⟩

theorem endsIn_switchCases (h : ∀ x ∈ bodies, x.EndsIn P) (v : Value) (tests : List (Eval Completion)) :
    (switchCases v tests bodies).EndsIn fun s => s ≠ .out none ∧ s ≠ .fallback ∧ P s := by
  refine gives_bind fun chosen => ?_
  cases chosen with
  | none => exact gives_pure (only_of_none rfl)
  | some i => exact endsIn_switchBodies (fun x hx => h x (List.mem_of_mem_drop hx)) rfl

theorem endsIn_switch (h : ∀ x ∈ bodies, x.EndsIn P) (discriminant : Eval Completion) (frame : LexicalFrame)
    (functions : List (String × Template)) (tests : List (Eval Completion)) :
    (switch discriminant frame functions tests bodies).EndsIn fun s => s ≠ .out none ∧ s ≠ .fallback ∧ P s :=
  gives_bind fun v => gives_ite (endsIn_switchCases h v tests) (endsIn_inBlock (endsIn_switchCases h v tests) _ _)

/-! ### Exceptions -/

section

variable (hb : body.EndsIn P)

include hb

theorem endsIn_guarded {handler : Option (Option (Value → Eval Unit) × Eval Completion)}
    (hh : ∀ h ∈ handler, h.2.EndsIn P) : (guarded body handler).EndsIn P := by
  cases handler with
  | none => exact hb
  | some h =>
    refine Gives.bind (gives_settle hb) fun r hr => ?_
    cases r with
    | ok c => exact gives_pure (hr c rfl)
    | error thrown =>
      refine gives_bind fun _ => gives_bind fun _ => gives_within _ ?_
      obtain ⟨bind, body'⟩ := h
      cases bind with
      | none => exact hh _ rfl
      | some bind => exact gives_bind fun _ => hh _ rfl

theorem endsIn_attempt {handler : Option (Option (Value → Eval Unit) × Eval Completion)}
    {finalizer : Option (Eval Completion)} (hh : ∀ h ∈ handler, h.2.EndsIn P) (hf : ∀ x ∈ finalizer, x.EndsIn P) :
    (attempt body handler finalizer).EndsIn P := by
  cases finalizer with
  | none => exact endsIn_guarded hb hh
  | some last =>
    refine Gives.bind (gives_settle (endsIn_guarded hb hh)) fun r hr => ?_
    refine Gives.bind (hf last rfl) fun c hc => gives_ite (gives_pure hc) ?_
    cases r with
    | ok c => exact gives_pure (hr c rfl)
    | error thrown => exact gives_stop _

/-! ### Loops -/

theorem endsIn_whileLoop (labels : List String) (test : Eval Completion) :
    (whileLoop labels test body).EndsIn fun s => ¬ s.takenByLoop labels ∧ P s := by
  refine gives_loop (S := fun last => last.signal? = none) rfl fun last hlast => ?_
  refine gives_bind fun _ => gives_ite ?_ (gives_pure (only_of_none hlast))
  exact Gives.bind hb fun c hc => gives_pure (hc.takeJump labels hlast)

theorem endsIn_doLoop (labels : List String) (test : Eval Completion) :
    (doLoop labels body test).EndsIn fun s => ¬ s.takenByLoop labels ∧ P s := by
  refine gives_loop (S := fun last => last.signal? = none) rfl fun last hlast => Gives.bind hb fun c hc => ?_
  have hflow := hc.takeJump labels hlast
  generalize c.takeJump labels last = flow at hflow
  cases flow with
  | leave c => exact gives_pure hflow
  | proceed next =>
    refine gives_bind fun passed => gives_pure ?_
    split
    · exact hflow
    · exact only_of_none hflow

theorem endsIn_forLoop (labels : List String) (frame : LexicalFrame) (init test update : Option (Eval Completion)) :
    (forLoop labels frame init test update body).EndsIn fun s => ¬ s.takenByLoop labels ∧ P s := by
  refine gives_bind fun outer => ?_
  extract_lets rest
  have hrest : ∀ scope, (rest scope).EndsIn fun s => ¬ s.takenByLoop labels ∧ P s := fun scope => gives_bind fun _ => ?_
  · exact gives_ite (gives_bind hrest) (gives_bind hrest)
  refine gives_loop (S := fun next => next.1.signal? = none) rfl fun last hlast => gives_within _ ?_
  refine gives_bind fun passed => gives_ite (Gives.bind hb fun c hc => ?_) (gives_pure (only_of_none hlast))
  have hflow := hc.takeJump labels hlast
  generalize c.takeJump labels last.1 = flow at hflow
  cases flow with
  | leave c => exact gives_pure hflow
  | proceed next => exact gives_bind fun _ => gives_bind fun _ => gives_pure hflow

theorem endsIn_forInRound (bind : Value → Eval Unit) (frame : LexicalFrame) (name : String) :
    (forInRound bind frame body name).EndsIn P :=
  gives_ite (gives_bind fun _ => hb) (gives_bind fun _ => gives_bind fun _ => gives_within _ (gives_bind fun _ => hb))

theorem endsIn_forInRounds (labels : List String) (subject : ObjectId) (bind : Value → Eval Unit) (frame : LexicalFrame)
    (names : List String) (hlast : last.signal? = none) :
    (forInRounds labels subject bind frame body names last).EndsIn fun s => ¬ s.takenByLoop labels ∧ P s := by
  induction names generalizing last with
  | nil => exact gives_pure (only_of_none hlast)
  | cons name names ih =>
    refine gives_bind fun _ => gives_ite (Gives.bind (endsIn_forInRound hb bind frame name) fun c hc => ?_) (ih hlast)
    have hflow := hc.takeJump labels hlast
    generalize c.takeJump labels last = flow at hflow
    cases flow with
    | leave c => exact gives_pure hflow
    | proceed next => exact ih hflow

theorem endsIn_forIn (labels : List String) (subject : Eval Completion) (bind : Value → Eval Unit)
    (frame : LexicalFrame) :
    (forIn labels subject bind frame body).EndsIn fun s => ¬ s.takenByLoop labels ∧ P s := by
  refine gives_bind fun v => gives_ite (gives_pure (only_of_none rfl)) ?_
  exact gives_bind fun id => gives_bind fun names => endsIn_forInRounds hb labels id bind frame _ rfl

end

/-! ### Everything else -/

theorem endsIn_declare (l : List ((Value → Eval Unit) × Option (Eval Completion))) : (declare l).EndsIn P := by
  induction l with
  | nil => exact gives_pure (only_of_none rfl)
  | cons d l ih =>
    obtain ⟨bind, init⟩ := d
    cases init with
    | none => exact gives_bind fun _ => gives_bind fun _ => ih
    | some x => exact gives_bind fun _ => gives_bind fun _ => ih

theorem endsIn_classDeclaration (c : ClassAction) (position : Option Position) :
    (classDeclaration c position).EndsIn P := by
  unfold classDeclaration
  refine gives_bind fun id => ?_
  extract_lets v rest
  have hrest : ∀ u, (rest u).EndsIn P := fun _ => gives_bind fun _ => gives_pure (only_value v)
  split
  · exact gives_bind hrest
  · exact hrest ()

theorem endsIn_assignBy (operator : AssignmentOperator) (current : Eval Value) (write : Value → Eval Unit)
    (x : Eval Completion) : (assignBy operator current write x).EndsIn P := by
  refine gives_ite (gives_bind fun old => gives_bind fun assigned => ?_)
    (gives_bind fun v => gives_bind fun _ => gives_pure (only_value v))
  cases assigned with
  | none => exact gives_pure (only_value old)
  | some v => exact gives_bind fun _ => gives_pure (only_value v)

theorem endsIn_chain (link : Eval (Option Reference)) : (chain link).EndsIn P := by
  refine gives_bind fun found => ?_
  cases found with
  | none => exact gives_pure (only_value _)
  | some r => exact gives_pure (only_value _)

theorem endsIn_constructValue (callee : Eval Completion) (args : List (Eval Completion × Bool)) (label : String)
    (position : Option Position) : (constructValue callee args label position).EndsIn P := by
  refine gives_bind fun f => gives_bind fun values => gives_bind fun isConstructor => ?_
  refine gives_ite (endsIn_value _) ?_
  unfold raise
  exact gives_ite (gives_stop _) (gives_bind fun _ => gives_stop _)

end Eval

/-! ## 4. Code -/

section

open Eval

mutual

/-- **A piece of code ends with no signal but those of the jumps in it that escape.** -/
theorem Code.endsIn_exec : (c : Code) → c.exec.EndsIn c.Escapes
  | .step position code => endsIn_step code.endsIn_exec position
  | .sequence statements => endsIn_sequence (Code.endsIn_execAll statements) rfl
  | .expression code => endsIn_expressionStatement code.exec
  | .block frame functions body => endsIn_block body.endsIn_exec frame functions
  | .empty => gives_pure (Completion.only_of_none rfl)
  | .withObject subject body => endsIn_withObject body.endsIn_exec subject.exec
  | .exit _ => endsIn_exit _
  | .labeled label body => endsIn_labeled body.endsIn_exec label
  | .jumpOut _ => gives_pure fun _ hs => (Option.some.inj hs).symm
  | .jumpOn _ => gives_pure fun _ hs => (Option.some.inj hs).symm
  | .defaultCase => gives_pure fun _ hs => (Option.some.inj hs).symm
  | .branch test consequent alternate =>
    endsIn_branch (consequent.endsIn_exec.mono fun _ => .inl) (endsIn_getD fun x hx =>
      (Code.endsIn_exec? alternate x hx).mono fun _ => .inr) test.exec
  | .conditional test consequent alternate =>
    endsIn_branch (consequent.endsIn_exec.mono fun _ => .inl) (alternate.endsIn_exec.mono fun _ => .inr) test.exec
  | .logical operator left right => endsIn_logical right.endsIn_exec operator left.exec
  | .switch discriminant frame functions tests bodies =>
    endsIn_switch (Code.endsIn_execAll bodies) discriminant.exec frame functions (Code.execAll tests)
  | .throw _ => gives_bind fun _ => gives_stop _
  | .attempt body handler finalizer =>
    endsIn_attempt (body.endsIn_exec.mono fun _ => .inl)
      (fun h hh => (Code.endsIn_handler? handler h hh).mono fun _ hs => .inr (.inl hs))
      fun x hx => (Code.endsIn_exec? finalizer x hx).mono fun _ hs => .inr (.inr hs)
  | .whileLoop labels test body => endsIn_whileLoop body.endsIn_exec labels test.exec
  | .doLoop labels body test => endsIn_doLoop body.endsIn_exec labels test.exec
  | .forLoop labels frame _ _ _ body => endsIn_forLoop body.endsIn_exec labels frame _ _ _
  | .forIn labels target frame subject body => endsIn_forIn body.endsIn_exec labels subject.exec target.bind frame
  | .declare _ => endsIn_declare _
  | .classDeclaration c position => endsIn_classDeclaration c.action position
  | .identifier _ _ => endsIn_value _
  | .constant _ => gives_pure (Completion.only_value _)
  | .regex _ _ => endsIn_value _
  | .this => gives_bind fun _ => endsIn_value _
  | .array _ => gives_bind fun _ => endsIn_value _
  | .object _ => gives_bind fun _ => gives_bind fun _ => gives_pure (Completion.only_value _)
  | .function _ => gives_bind fun _ => gives_bind fun _ => gives_bind fun _ => gives_pure (Completion.only_value _)
  | .classValue _ => gives_bind fun _ => gives_pure (Completion.only_value _)
  | .unary _ _ _ => gives_bind fun _ => endsIn_value _
  | .typeOfName _ _ => gives_bind fun _ => gives_bind fun _ => gives_pure (Completion.only_value _)
  | .deleteMember _ _ =>
    gives_bind fun _ => gives_bind fun _ => gives_bind fun _ => gives_pure (Completion.only_value _)
  | .updateName _ _ _ _ =>
    gives_bind fun _ => gives_bind fun _ => gives_bind fun _ => gives_pure (Completion.only_value _)
  | .updateMember _ _ _ _ _ =>
    gives_bind fun _ => gives_bind fun _ => gives_bind fun _ => gives_bind fun _ => gives_bind fun _ =>
      gives_pure (Completion.only_value _)
  | .binary _ _ _ => gives_bind fun _ => gives_bind fun _ => endsIn_value _
  | .assignName operator _ value _ => endsIn_assignBy operator _ _ value.exec
  | .assignMember operator _ _ value _ =>
    gives_bind fun _ => gives_bind fun _ => endsIn_assignBy operator _ _ value.exec
  | .assignPattern _ _ => gives_bind fun _ => gives_bind fun _ => gives_pure (Completion.only_value _)
  | .construct callee _ label position => endsIn_constructValue callee.exec _ label position
  | .comma _ => gives_bind fun _ => gives_pure (Completion.only_value _)
  | .template _ _ => gives_bind fun _ => gives_pure (Completion.only_value _)
  | .taggedTemplate _ _ _ _ _ _ =>
    gives_bind fun _ => gives_bind fun _ => gives_bind fun _ => gives_bind fun _ => endsIn_value _
  | .chain link => endsIn_chain link.exec

theorem Code.endsIn_execAll : (l : List Code) → ∀ x ∈ Code.execAll l, x.EndsIn (Code.AnyEscapes l)
  | [], _, hx => nomatch hx
  | c :: rest, x, hx => by
    rcases List.mem_cons.mp hx with rfl | hx
    · exact c.endsIn_exec.mono fun _ => .inl
    · exact (Code.endsIn_execAll rest x hx).mono fun _ => .inr

theorem Code.endsIn_exec? : (c : Option Code) → ∀ x ∈ Code.exec? c, x.EndsIn (Code.Escapes? c)
  | none, _, hx => nomatch hx
  | some c, _, hx => by
    cases hx
    exact c.endsIn_exec

theorem Code.endsIn_handler? : (handler : Option (Option Pattern × Code)) → ∀ h ∈ Code.handler? handler,
    h.2.EndsIn (Code.HandlerEscapes handler)
  | none, _, hh => nomatch hh
  | some (none, body), _, hh => by
    cases hh
    exact body.endsIn_exec
  | some (some _, body), _, hh => by
    cases hh
    exact body.endsIn_exec

end

end

end GuestScript
