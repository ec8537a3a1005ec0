import GuestScript.Proofs.Log

/-!
# Interrupts cannot be caught

An interrupt ends an evaluation. Nothing that a script does can stop it on its way out, and nothing of the script
runs any more once it has begun: no handler, no finalizer, no callback.

In terms of logs: an event that carries an interrupt is followed only by events that carry the same one, and so by
no start of an action (`Event.Carries`). The invariant of the induction says a little more, so that logs can be
put together: what a log carries, the run ends with (`Propagates`). The one action that looks at how another one
ended is `settle`, and it holds thrown values only; that is where the argument would break.
-/

namespace GuestScript

/-! ## 1. Logs that propagate interrupts -/

/-- The second event carries the interrupt of the first one, if there is one. -/
def Event.Carries (e e' : Event) : Prop :=
  ∀ i, e.interrupt? = some i → e'.interrupt? = some i

/-- An interrupt in a log is carried by all that follows and by what the run ends with. -/
structure Propagates (l : Log) (o : Option Interrupt) : Prop where
  carried : l.Pairwise Event.Carries
  ends : ∀ e ∈ l, ∀ i, e.interrupt? = some i → o = some i

namespace Propagates

theorem nil (o : Option Interrupt) : Propagates [] o :=
  ⟨.nil, by simp⟩

/-- What a log ends with may be passed on. -/
theorem weaken {l : Log} {o o' : Option Interrupt} (h : Propagates l o)
    (hpass : ∀ i, o = some i → o' = some i) : Propagates l o' :=
  ⟨h.carried, fun e he i hi => hpass i (h.ends e he i hi)⟩

/-- A second log may follow a first one that ends with an interrupt only when it carries that interrupt. -/
theorem append {l l' : Log} {o o' : Option Interrupt} (h : Propagates l o) (h' : Propagates l' o')
    (hpass : ∀ i, o = some i → o' = some i ∧ ∀ e ∈ l', e.interrupt? = some i) :
    Propagates (l ++ l') o' := by
  constructor
  · refine List.pairwise_append.mpr ⟨h.carried, h'.carried, ?_⟩
    intro e he e' he' i hi
    exact (hpass i (h.ends e he i hi)).2 e' he'
  · intro e he i hi
    rcases List.mem_append.mp he with he | he
    · exact (hpass i (h.ends e he i hi)).1
    · exact h'.ends e he i hi

/-- An action that starts carries nothing yet, and its end carries what its run ends with. -/
theorem bracket {α : Type} {answers : Answers} {logs : RequestLogs} {x : Eval α} {m : Machine}
    (h : Propagates (x.inside answers logs m) (interruptOf (x.run answers m))) :
    Propagates (x.log answers logs m) (interruptOf (x.run answers m)) := by
  have hend : Propagates [Event.finish x (x.run answers m)] (interruptOf (x.run answers m)) := by
    refine ⟨List.pairwise_singleton _ _, ?_⟩
    intro e he i hi
    rw [List.mem_singleton.mp he] at hi
    exact hi
  have hinside := h.append hend fun i hi => ⟨hi, by simpa [Event.interrupt?] using hi⟩
  constructor
  · refine List.pairwise_cons.mpr ⟨?_, hinside.carried⟩
    intro e _ i hi
    simp [Event.interrupt?] at hi
  · intro e he i hi
    rcases List.mem_cons.mp he with rfl | he
    · simp [Event.interrupt?] at hi
    · exact hinside.ends e he i hi

end Propagates

/-! ## 2. Every action propagates interrupts -/

/-- The rounds of a loop propagate interrupts if each round does. -/
theorem roundsLog_propagates {σ α : Type} {round : σ → Run (Flow σ α)} {log : σ → Machine → Log}
    (h : ∀ s m, Propagates (log s m) (interruptOf (round s m))) :
    ∀ (fuel : Nat) (s : σ) (m : Machine),
      Propagates (Run.roundsLog round log fuel s m) (interruptOf (Run.rounds round fuel s m))
  | 0, s, m => .nil _
  | fuel + 1, s, m => by
    simp only [Run.roundsLog, Run.rounds]
    have hround := h s m
    cases hr : round s m with
    | error e m' =>
      rw [hr] at hround
      rw [List.append_nil]
      exact hround
    | ok a m' =>
      rw [hr] at hround
      cases a with
      | leave a =>
        rw [List.append_nil]
        exact hround
      | proceed s' =>
        refine hround.append ?_ (by simp [interruptOf])
        by_cases hcount : m.steps < m'.steps
        · simp only [hcount, if_true]
          exact roundsLog_propagates h fuel s' m'
        · simp only [hcount, if_false]
          exact .nil _

namespace Eval

/-- **Every action propagates interrupts**, if the answers to its requests do. The induction is on the action; its
parts are in the log as they are run, and none is run after one that was interrupted. -/
theorem inside_propagates {answers : Answers} {logs : RequestLogs}
    (hask : ∀ request m, Propagates (logs request m) (interruptOf (answers request m)))
    {α : Type} (x : Eval α) (m : Machine) :
    Propagates (x.inside answers logs m) (interruptOf (x.run answers m)) := by
  induction x generalizing m with
  | done | stop | read | update | charge | counted | clock => exact .nil _
  | andThen x f ihx ihf =>
    have hx := (ihx m).bracket
    rw [inside_andThen]
    simp only [run]
    cases hr : x.run answers m with
    | error e m' =>
      rw [hr] at hx
      rw [List.append_nil]
      exact hx
    | ok a m' =>
      rw [hr] at hx
      exact hx.append (ihf a m').bracket (by simp [interruptOf])
  | settle x ih =>
    rw [inside_settle]
    rw [run_settle, interruptOf_settled]
    exact (ih m).bracket
  | within frame x ih =>
    rw [inside_within]
    simp only [run, Run.between_eq, interruptOf_onMachine]
    exact (ih (m.withRegisters frame.enter)).bracket
  | nest name x refused ihx ihr =>
    rw [inside_nest]
    simp only [run]
    by_cases hadmits : m.admitsCall
    · simp only [hadmits, if_true]
      rw [Run.between_eq, interruptOf_onMachine]
      exact (ihx (m.withRegisters (Registers.enterCall name))).bracket
    · simp only [hadmits]
      exact (ihr m).bracket
  | loop round start ih =>
    rw [inside_loop]
    exact roundsLog_propagates (fun s m => (ih s m).bracket) _ start m
  | ask request => exact hask request m

/-- The answers to requests propagate interrupts, however deep requests are nested. -/
theorem logs_propagates : ∀ (n : Nat) (request : Request) (m : Machine),
    Propagates (logs n request m) (interruptOf (answers n request m))
  | 0, _, _ => .nil _
  | n + 1, request, m => (inside_propagates (logs_propagates n) (serve request) m).bracket

/-- The log of an action on a machine propagates interrupts. -/
theorem logOn_propagates {α : Type} (x : Eval α) (m : Machine) :
    Propagates (x.logOn m) (interruptOf (x.runOn m)) :=
  (inside_propagates (logs_propagates nestingLimit) x m).bracket

end Eval

/-! ## 3. Host calls -/

namespace HostCall

open Session (restarted)

/-- A host gets the interrupt that a run ends with. -/
theorem interruptOf_surfaced {α : Type} (r : EStateM.Result Stop Machine α) :
    interruptOf (surfaced r) = GuestScript.interruptOf r := by
  cases r with
  | ok a m => rfl
  | error s m => cases s <;> rfl

/-- The log of an action that a host runs propagates interrupts to the host. -/
theorem logOn_propagates {α : Type} (x : Eval α) (m : Machine) :
    Propagates (x.logOn m) (interruptOf (Session.ofEval x m)) := by
  rw [Session.ofEval_eq, interruptOf_surfaced]
  exact x.logOn_propagates m

/-- The run of a program propagates interrupts. -/
theorem runLog_propagates (p : Program) (m : Machine) :
    Propagates (runLog p m) (interruptOf (Session.run p m)) := by
  have hexecute := (Eval.execute p).logOn_propagates (restarted m)
  rw [run_eq, runLog]
  cases hr : (Eval.execute p).runOn (restarted m) with
  | ok v m' =>
    rw [hr] at hexecute
    exact hexecute.append (logOn_propagates _ _) (by simp [GuestScript.interruptOf])
  | error s m' =>
    rw [hr] at hexecute
    rw [List.append_nil]
    cases s <;> exact hexecute

/-- A host call propagates interrupts. -/
theorem log_propagates (c : HostCall) (m : Machine) :
    Propagates (c.log m) (interruptOf (c.perform m)) := by
  cases c with
  | reset bindings options =>
    refine (logOn_propagates _ m).weaken ?_
    intro i hi
    rw [reset_eq]
    cases hr : Session.ofEval (Eval.openScopes bindings options.rootContext) m with
    | ok opened m' => rw [hr] at hi; cases hi
    | error f m' => rw [hr] at hi; exact hi
  | evaluate source =>
    rw [evaluate_eq, log]
    cases Session.parse source m with
    | error f m => exact .nil _
    | ok parsed m =>
      have hcompile := logOn_propagates (Eval.compileTree parsed.1 parsed.2) m
      simp only [Session.ofEval] at hcompile ⊢
      cases hr : (Eval.compileTree parsed.1 parsed.2).runOn m with
      | ok p m' =>
        rw [hr] at hcompile
        exact hcompile.append (runLog_propagates p m') (by simp [interruptOf])
      | error s m' =>
        rw [hr] at hcompile
        rw [List.append_nil]
        cases s <;> exact hcompile
  | run p => exact runLog_propagates p m
  | call function receiver args => exact logOn_propagates _ _
  | construct function args => exact logOn_propagates _ _

/-- **Interrupts are uncatchable.** When an action that is run during a host call, at any depth, ends with an
interrupt, then the host call ends with this interrupt, and no action starts any more. -/
theorem interrupt_ends_host_call (c : HostCall) (m : Machine) (before after : Log) (e : Event)
    (i : Interrupt) (hlog : c.log m = before ++ e :: after) (hi : e.interrupt? = some i) :
    (∃ last, c.perform m = .error (.interrupt i) last) ∧ ∀ e' ∈ after, e'.isStart = false := by
  have h := c.log_propagates m
  rw [hlog] at h
  constructor
  · have hends : interruptOf (c.perform m) = some i := h.ends e (by simp) i hi
    cases hr : c.perform m with
    | ok v last => rw [hr] at hends; cases hends
    | error f last =>
      rw [hr] at hends
      cases f <;> cases hends
      exact ⟨last, rfl⟩
  · intro e' he'
    have hafter := (List.pairwise_append.mp h.carried).2.1
    have hcarried := (List.pairwise_cons.mp hafter).1 e' he' i hi
    cases e' with
    | start x m => cases hcarried
    | finish x r => rfl

/-- A block of one step, with a handler and a finalizer of one step each. -/
def guardedStep : Program where
  hoisted := .mk [] [] [] false
  body := .attempt (.step none .empty) (some (none, .step none .empty)) (some (.step none .empty))

/-- A machine on which no step may be counted. -/
def stepless : Machine where
  limits := { timeout := 0, maxSteps := 0 }

/-- The step of a block is interrupted: neither the handler nor the finalizer starts. -/
theorem interrupt_ends_guardedStep :
    ∃ before e after,
      (run guardedStep).log stepless = before ++ e :: after ∧
      e.interrupt? = some (.of .maxSteps "0" none) ∧
      (∃ last, (run guardedStep).perform stepless = .error (.interrupt (.of .maxSteps "0" none)) last) ∧
      ∀ e' ∈ after, e'.isStart = false := by
  have hstep : ((run guardedStep).log stepless)[24]?.bind Event.interrupt? =
      some (.of .maxSteps "0" none) := by decide +kernel
  obtain ⟨e, hget, hi⟩ := Option.bind_eq_some_iff.mp hstep
  obtain ⟨before, after, hlog⟩ := List.append_of_mem (List.mem_of_getElem? hget)
  exact ⟨before, e, after, hlog, hi, interrupt_ends_host_call _ _ before after e _ hlog hi⟩

end HostCall

end GuestScript
