import GuestScript.Evaluator

/-!
# What happens during a run

A run of an action is a function from machine to machine, which says how the run ends but not what happened on the
way. The *log* of a run says that: the list of its events, in order. Every action that the run starts, however
deep it is nested and through however many requests it is reached, has one event for its start, with the machine
that it starts on, and one for its end, with what it gives. An action that is never started is not in the log.

* `Eval.log` is defined along `Eval.run`, case by case: what a part of an action gives decides which part is next.
* `Eval.logs` ties the knot for requests, as `Eval.answers` does.
* `HostCall` lists what a host can do with a machine, and `HostCall.log` what happens during it.
-/

namespace GuestScript

/-! ## 1. Results of runs -/

/-- The interrupt that an action was stopped by. -/
def Stop.interrupt? : Stop → Option Interrupt
  | interrupt i => some i
  | _ => none

/-- The interrupt that a run ends with. -/
def interruptOf {α : Type} : EStateM.Result Stop Machine α → Option Interrupt
  | .ok _ _ => none
  | .error s _ => s.interrupt?

/-- The result of a run, with another machine at the end. -/
def onMachine {ε α : Type} (f : Machine → Machine) :
    EStateM.Result ε Machine α → EStateM.Result ε Machine α
  | .ok a m => .ok a (f m)
  | .error e m => .error e (f m)

/-- What holding a thrown value makes of a result. -/
def settled {α : Type} : EStateM.Result Stop Machine α → EStateM.Result Stop Machine (Except Value α)
  | .ok a m => .ok (.ok a) m
  | .error (.thrown v) m => .ok (.error v) m
  | .error (.interrupt i) m => .error (.interrupt i) m
  | .error .exhausted m => .error .exhausted m
  | .error .panicked m => .error .panicked m

/-- What a host gets from a run. -/
def surfaced {α : Type} : EStateM.Result Stop Machine α → EStateM.Result Failure Machine α
  | .ok a m => .ok a m
  | .error s m => Session.surface s m

section

variable {ε α β : Type}

theorem finalMachine_onMachine (f : Machine → Machine) (r : EStateM.Result ε Machine α) :
    finalMachine (onMachine f r) = f (finalMachine r) := by
  cases r <;> rfl

theorem interruptOf_onMachine (f : Machine → Machine) (r : EStateM.Result Stop Machine α) :
    interruptOf (onMachine f r) = interruptOf r := by
  cases r <;> rfl

theorem finalMachine_settled (r : EStateM.Result Stop Machine α) : finalMachine (settled r) = finalMachine r := by
  cases r with
  | ok a m => rfl
  | error e m => cases e <;> rfl

/-- Only thrown values are held. -/
theorem interruptOf_settled (r : EStateM.Result Stop Machine α) : interruptOf (settled r) = interruptOf r := by
  cases r with
  | ok a m => rfl
  | error e m => cases e <;> rfl

theorem finalMachine_surfaced (r : EStateM.Result Stop Machine α) :
    finalMachine (surfaced r) = finalMachine r := by
  cases r with
  | ok a m => rfl
  | error s m => cases s <;> rfl

theorem Run.between_eq (enter : Registers → Registers) (leave : Registers → Registers → Registers) (x : Run α)
    (m : Machine) : x.between enter leave m =
      onMachine (·.withRegisters (leave m.toRegisters)) (x (m.withRegisters enter)) := by
  simp only [Run.between]
  cases x (m.withRegisters enter) <;> rfl

theorem Eval.run_settle (answers : Answers) (x : Eval α) (m : Machine) :
    (settle x).run answers m = settled (x.run answers m) := by
  simp only [run]
  cases x.run answers m with
  | ok a m => rfl
  | error e m => cases e <;> rfl

theorem Session.ofEval_eq (x : Eval α) (m : Machine) : ofEval x m = surfaced (x.runOn m) := by
  simp only [ofEval]
  cases x.runOn m <;> rfl

theorem Session.bind_of_ok {h : Session α} {f : α → Session β} {m m' : Machine} {a : α} (hr : h m = .ok a m') :
    (h >>= f) m = f a m' := by
  simp only [bind, EStateM.bind, hr]

theorem Session.bind_of_error {h : Session α} {f : α → Session β} {m m' : Machine} {e : Failure}
    (hr : h m = .error e m') : (h >>= f) m = .error e m' := by
  simp only [bind, EStateM.bind, hr]

end

/-! ## 2. Events -/

/-- Something that happens during a run. -/
inductive Event where
  | start {α : Type} (x : Eval α) (m : Machine)
  | finish {α : Type} (x : Eval α) (r : EStateM.Result Stop Machine α)

/-- The events of a run, in order. -/
abbrev Log := List Event

/-- The logs of the answers to requests. -/
abbrev RequestLogs := Request → Machine → Log

namespace Event

/-- Whether an action starts. -/
def isStart : Event → Bool
  | start _ _ => true
  | finish _ _ => false

/-- The machine at the moment of an event. -/
def machine : Event → Machine
  | start _ m => m
  | finish _ r => finalMachine r

/-- The interrupt that an action ends with. -/
def interrupt? : Event → Option Interrupt
  | start _ _ => none
  | finish _ r => interruptOf r

end Event

/-! ## 3. Logs of actions -/

/-- What happens during the rounds of a loop. -/
def Run.roundsLog {σ α : Type} (round : σ → Run (Flow σ α)) (log : σ → Machine → Log) :
    Nat → σ → Machine → Log
  | 0, _, _ => []
  | fuel + 1, s, m =>
    log s m ++
      match round s m with
      | .ok (.proceed s) next =>
        if m.steps < next.steps then roundsLog round log fuel s next else []
      | _ => []

namespace Eval

/-- The log of an action from what happens inside it. -/
def bracket {α : Type} (answers : Answers) (x : Eval α) (inside : Machine → Log) (m : Machine) : Log :=
  .start x m :: (inside m ++ [.finish x (x.run answers m)])

/-- What happens between the start of an action and its end. -/
def inside (answers : Answers) (logs : RequestLogs) {α : Type} : Eval α → Machine → Log
  | .andThen x f => fun m =>
    bracket answers x (x.inside answers logs) m ++
      match x.run answers m with
      | .ok a m => bracket answers (f a) ((f a).inside answers logs) m
      | .error _ _ => []
  | .settle x => bracket answers x (x.inside answers logs)
  | .within frame x => fun m => bracket answers x (x.inside answers logs) (m.withRegisters frame.enter)
  | .nest name x refused => fun m =>
    if m.admitsCall then
      bracket answers x (x.inside answers logs) (m.withRegisters (Registers.enterCall name))
    else bracket answers refused (refused.inside answers logs) m
  | .loop round start => fun m =>
    Run.roundsLog (fun s => (round s).run answers)
      (fun s => bracket answers (round s) ((round s).inside answers logs)) (m.limits.maxSteps + 1) start m
  | .ask request => logs request
  | _ => fun _ => []

/-- What happens during a run of an action. -/
def log (answers : Answers) (logs : RequestLogs) {α : Type} (x : Eval α) (m : Machine) : Log :=
  bracket answers x (x.inside answers logs) m

/-- What happens during the answers to requests that may nest a number of times. -/
def logs : Nat → RequestLogs
  | 0 => fun _ _ => []
  | n + 1 => fun request => (serve request).log (answers n) (logs n)

/-- What happens when an action is run on a machine. -/
def logOn {α : Type} (x : Eval α) (m : Machine) : Log :=
  x.log (answers nestingLimit) (logs nestingLimit) m

/-! ### The log of an action in terms of the logs of its parts -/

section

variable {α β σ : Type} (answers : Answers) (logs : RequestLogs) (m : Machine)

/-- The last event of a log is the end of the run. -/
theorem log_eq (x : Eval α) :
    x.log answers logs m =
      .start x m :: (x.inside answers logs m ++ [.finish x (x.run answers m)]) := rfl

/-- What holds of the start of an action, of its end and of all that happens inside it holds of its log. -/
theorem forall_mem_log {P : Event → Prop} {x : Eval α} (hstart : P (.start x m))
    (hinside : ∀ e ∈ x.inside answers logs m, P e) (hfinish : P (.finish x (x.run answers m))) :
    ∀ e ∈ x.log answers logs m, P e := by
  intro e he
  rw [log_eq] at he
  rcases List.mem_cons.mp he with rfl | he
  · exact hstart
  rcases List.mem_append.mp he with he | he
  · exact hinside e he
  · rw [List.mem_singleton.mp he]
    exact hfinish

theorem inside_andThen (x : Eval α) (f : α → Eval β) :
    (andThen x f).inside answers logs m =
      x.log answers logs m ++
        match x.run answers m with
        | .ok a m => (f a).log answers logs m
        | .error _ _ => [] := by
  simp only [inside, log]

theorem inside_settle (x : Eval α) :
    (settle x).inside answers logs m = x.log answers logs m := rfl

theorem inside_within (frame : Frame) (x : Eval α) :
    (within frame x).inside answers logs m =
      x.log answers logs (m.withRegisters frame.enter) := rfl

theorem inside_nest (name : String) (x refused : Eval α) :
    (nest name x refused).inside answers logs m =
      if m.admitsCall then x.log answers logs (m.withRegisters (Registers.enterCall name))
      else refused.log answers logs m := rfl

theorem inside_loop (round : σ → Eval (Flow σ α)) (start : σ) :
    (loop round start).inside answers logs m =
      Run.roundsLog (fun s => (round s).run answers) (fun s => (round s).log answers logs)
        (m.limits.maxSteps + 1) start m := rfl

end

end Eval

/-! ## 4. Host calls -/

/-- What a host can do with a machine. -/
inductive HostCall where
  | reset (bindings : ObjectId) (options : Options)
  | evaluate (source : Source)
  | run (p : Program)
  | call (function receiver : Value) (args : Array Value)
  | construct (function : Value) (args : Array Value)

/-- The interrupt that an evaluation failed with. -/
def Failure.interrupt? : Failure → Option Interrupt
  | interrupt i => some i
  | _ => none

namespace HostCall

open Session (restarted returned bound)

/-- The interrupt that a host call ends with. -/
def interruptOf {α : Type} : EStateM.Result Failure Machine α → Option Interrupt
  | .ok _ _ => none
  | .error f _ => f.interrupt?

/-- Make a host call; only the last four give a value. -/
def perform : HostCall → Session Value
  | reset bindings options => do
    Session.reset bindings options
    pure .undefined
  | evaluate source => Session.evaluate source
  | run p => Session.run p
  | call function receiver args => Session.call function receiver args
  | construct function args => Session.construct function args

/-- Make host calls one after the other, whether they fail or not, and give the machine at the end. -/
def performAll : List HostCall → Machine → Machine
  | [], m => m
  | c :: rest, m => performAll rest (finalMachine (c.perform m))

/-- What happens during the run of a program. -/
def runLog (p : Program) (m : Machine) : Log :=
  (Eval.execute p).logOn (restarted m) ++
    match (Eval.execute p).runOn (restarted m) with
    | .ok v m => (Eval.hideGlobal v).logOn (returned m)
    | .error _ _ => []

/-- A reset, in terms of the action that it runs. -/
theorem reset_eq (bindings : ObjectId) (options : Options) (m : Machine) :
    (reset bindings options).perform m =
      match Session.ofEval (Eval.openScopes bindings options.rootContext) m with
      | .ok opened m => .ok .undefined (bound bindings options opened m)
      | .error f m => .error f m := by
  simp only [perform, Session.reset, bind, EStateM.bind]
  cases Session.ofEval (Eval.openScopes bindings options.rootContext) m <;> rfl

/-- An evaluation, in terms of the actions that it runs. -/
theorem evaluate_eq (source : Source) (m : Machine) :
    (evaluate source).perform m =
      match Session.parse source m with
      | .error f m => .error f m
      | .ok parsed m =>
        match Session.ofEval (Eval.compileTree parsed.1 parsed.2) m with
        | .ok p m => Session.run p m
        | .error f m => .error f m := by
  simp only [perform, Session.evaluate, Session.compile, bind, EStateM.bind]
  cases Session.parse source m with
  | error f m => rfl
  | ok parsed m =>
    dsimp only
    cases Session.ofEval (Eval.compileTree parsed.1 parsed.2) m <;> rfl

/-- A run of a program, in terms of the actions that it runs. -/
theorem run_eq (p : Program) (m : Machine) :
    Session.run p m =
      match (Eval.execute p).runOn (restarted m) with
      | .ok v m => Session.ofEval (Eval.hideGlobal v) (returned m)
      | .error s m => Session.surface s (returned m) := by
  have hrestart : Session.restart m = .ok () (restarted m) := rfl
  rw [Session.run, Session.bind_of_ok hrestart]
  cases hr : (Eval.execute p).runOn (restarted m) with
  | ok v m' => exact Session.bind_of_ok (by simp only [hr])
  | error s m' => cases s <;> exact Session.bind_of_error (by simp only [hr]; rfl)

/-- What happens during a host call. -/
def log : HostCall → Machine → Log
  | reset bindings options, m => (Eval.openScopes bindings options.rootContext).logOn m
  | evaluate source, m =>
    match Session.parse source m with
    | .error _ _ => []
    | .ok parsed m =>
      (Eval.compileTree parsed.1 parsed.2).logOn m ++
        match (Eval.compileTree parsed.1 parsed.2).runOn m with
        | .ok p m => runLog p m
        | .error _ _ => []
  | run p, m => runLog p m
  | call function receiver args, m =>
    (do Eval.hideGlobal (← Eval.callFunction function receiver args)).logOn (restarted m)
  | construct function args, m => (Eval.constructFunction function args).logOn (restarted m)

/-- What happens during host calls one after the other. -/
def logAll : List HostCall → Machine → Log
  | [], _ => []
  | c :: rest, m => c.log m ++ logAll rest (finalMachine (c.perform m))

theorem logAll_append : ∀ (calls rest : List HostCall) (m : Machine),
    logAll (calls ++ rest) m = logAll calls m ++ logAll rest (performAll calls m)
  | [], _, _ => rfl
  | c :: calls, rest, m => by
    rw [List.cons_append, logAll, logAll, performAll, logAll_append calls rest, List.append_assoc]

end HostCall

end GuestScript
