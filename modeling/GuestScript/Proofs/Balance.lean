import GuestScript.Proofs.Log

/-!
# Actions balance the registers

The registers belong to the function that is running. They are changed by frames and by calls, which take their
changes back however they end, and by nothing else but the result of a program. So an action that has ended leaves the
registers as it found them (`Balanced`), whether it gave a result, threw or was interrupted, and calls nest no deeper
than the rules allow in between (`Shallow`).

The result of a program is the exception: a program may note one, but only outside all calls. Where calls are running,
it is left alone too.
-/

namespace GuestScript

/-! ## 1. Balanced machines -/

/-- The second machine is where the first one was, but maybe for the result of a program. -/
structure Balanced (m m' : Machine) : Prop where
  scope : m'.scope = m.scope
  receiver : m'.receiver = m.receiver
  calls : m'.calls = m.calls
  depth : m'.depth = m.depth
  newTarget : m'.newTarget = m.newTarget
  joining : m'.joining = m.joining
  /-- Only outside all calls can a result be noted. -/
  result : m.calls ≠ [] → m'.result = m.result
  rules : m'.rules = m.rules

namespace Balanced

variable {m m' m'' : Machine}

theorem refl (m : Machine) : Balanced m m :=
  ⟨rfl, rfl, rfl, rfl, rfl, rfl, fun _ => rfl, rfl⟩

/-- Machines with the same registers and rules are balanced. -/
theorem of_eq (h : m'.toRegisters = m.toRegisters) (hrules : m'.rules = m.rules) : Balanced m m' := by
  constructor <;> simp [h, hrules]

/-- If the result is kept as well, all registers are. -/
theorem toRegisters_eq (h : Balanced m m') (hresult : m'.result = m.result) :
    m'.toRegisters = m.toRegisters := by
  obtain ⟨hscope, hreceiver, hcalls, hdepth, htarget, hjoining, -, -⟩ := h
  calc m'.toRegisters
      = ⟨m'.scope, m'.receiver, m'.result, m'.calls, m'.depth, m'.newTarget, m'.joining⟩ := rfl
    _ = m.toRegisters := by rw [hscope, hreceiver, hresult, hcalls, hdepth, htarget, hjoining]

theorem trans (h : Balanced m m') (h' : Balanced m' m'') : Balanced m m'' where
  scope := h'.scope.trans h.scope
  receiver := h'.receiver.trans h.receiver
  calls := h'.calls.trans h.calls
  depth := h'.depth.trans h.depth
  newTarget := h'.newTarget.trans h.newTarget
  joining := h'.joining.trans h.joining
  result hcalls := (h'.result (h.calls ▸ hcalls)).trans (h.result hcalls)
  rules := h'.rules.trans h.rules

/-- A frame takes back what it changed. -/
theorem leave {frame : Frame} (h : Balanced (m.withRegisters frame.enter) m') :
    Balanced m (m'.withRegisters (frame.leave m.toRegisters)) := by
  obtain ⟨hscope, hreceiver, hcalls, hdepth, htarget, hjoining, hresult, hrules⟩ := h
  cases frame with
  | scope id => exact ⟨rfl, hreceiver, hcalls, hdepth, htarget, hjoining, hresult, hrules⟩
  | receiver id this => exact ⟨rfl, rfl, hcalls, hdepth, htarget, hjoining, hresult, hrules⟩
  | target t => exact ⟨hscope, hreceiver, hcalls, hdepth, rfl, hjoining, hresult, hrules⟩
  | program id this => exact ⟨rfl, rfl, rfl, hdepth, htarget, hjoining, fun _ => rfl, hrules⟩
  | joining id => exact ⟨hscope, hreceiver, hcalls, hdepth, htarget, rfl, hresult, hrules⟩

/-- Inside a call there is no result to note. -/
theorem result_enterCall {name : String} (h : Balanced (m.withRegisters (Registers.enterCall name)) m') :
    m'.result = m.result :=
  h.result (List.cons_ne_nil name m.calls)

/-- A call takes back what it changed. -/
theorem leaveCall {name : String} (h : Balanced (m.withRegisters (Registers.enterCall name)) m') :
    Balanced m (m'.withRegisters Registers.leaveCall) where
  scope := h.scope
  receiver := h.receiver
  calls := congrArg List.tail h.calls
  depth := congrArg (· - 1) h.depth
  newTarget := h.newTarget
  joining := h.joining
  result _ := h.result_enterCall
  rules := h.rules

/-- No update but that of the result changes the registers, and that one only outside all calls. -/
theorem updated {α : Type} (u : Update α) (m : Machine) : Balanced m (finalMachine (m.updated u)) := by
  cases u with
  | result v =>
    by_cases hcalls : m.calls = []
    · have happly : finalMachine (m.updated (.result v)) = { m with result := v } := by
        simp [Machine.updated, Update.apply.eq_def, hcalls, finalMachine]
      rw [happly]
      exact ⟨rfl, rfl, rfl, rfl, rfl, rfl, fun h => absurd hcalls h, rfl⟩
    · have happly : finalMachine (m.updated (.result v)) = m := by
        simp [Machine.updated, Update.apply.eq_def, hcalls, finalMachine]
      rw [happly]
      exact refl m
  | _ => exact of_eq rfl rfl

theorem charged (m : Machine) : Balanced m (finalMachine m.charged) := by
  unfold Machine.charged
  split
  · exact refl m
  · dsimp only
    split <;> exact of_eq rfl rfl

end Balanced

/-! ## 2. Every action is balanced -/

/-- The rounds of a loop are balanced if each round is. -/
theorem Run.rounds_balanced {σ α : Type} {round : σ → Run (Flow σ α)}
    (h : ∀ s m, Balanced m (finalMachine (round s m))) :
    ∀ (fuel : Nat) (s : σ) (m : Machine), Balanced m (finalMachine (Run.rounds round fuel s m))
  | 0, _, m => .refl m
  | fuel + 1, s, m => by
    have hround := h s m
    unfold Run.rounds
    cases hr : round s m with
    | error e m' =>
      rw [hr] at hround
      exact hround
    | ok flow m' =>
      rw [hr] at hround
      cases flow with
      | leave a => exact hround
      | proceed s' =>
        dsimp only
        split
        · exact hround.trans (rounds_balanced h fuel s' m')
        · exact hround

namespace Eval

/-- **Every action is balanced**, if the answers to its requests are. The induction is on the action; only `within`
and `nest` change the registers on purpose. -/
theorem run_balanced {answers : Answers}
    (hask : ∀ request m, Balanced m (finalMachine (answers request m))) {α : Type} (x : Eval α) (m : Machine) :
    Balanced m (finalMachine (x.run answers m)) := by
  induction x generalizing m with
  | done | stop | read | counted | clock => exact .refl m
  | update u => exact .updated u m
  | charge => exact .charged m
  | andThen x f ihx ihf =>
    have hx := ihx m
    simp only [run]
    cases hr : x.run answers m with
    | error e m' =>
      rw [hr] at hx
      exact hx
    | ok a m' =>
      rw [hr] at hx
      exact hx.trans (ihf a m')
  | settle x ih =>
    rw [run_settle, finalMachine_settled]
    exact ih m
  | within frame x ih =>
    simp only [run, Run.between_eq, finalMachine_onMachine]
    exact (ih (m.withRegisters frame.enter)).leave
  | nest name x refused ihx ihr =>
    simp only [run]
    split
    · rw [Run.between_eq, finalMachine_onMachine]
      exact (ihx (m.withRegisters (Registers.enterCall name))).leaveCall
    · exact ihr m
  | loop round start ih =>
    simp only [run]
    exact Run.rounds_balanced ih _ start m
  | ask request => exact hask request m

/-- The answers to requests are balanced, however deep requests are nested. -/
theorem answers_balanced : ∀ (n : Nat) (request : Request) (m : Machine),
    Balanced m (finalMachine (answers n request m))
  | 0, _, m => .refl m
  | n + 1, request, m => run_balanced (answers_balanced n) (serve request) m

end Eval

/-! ## 3. How deep calls nest -/

/-- A machine in which neither the calls that are running nor those that are allowed nest deeper than a number. -/
structure Shallow (d : Nat) (m : Machine) : Prop where
  depth : m.depth ≤ d
  limit : m.rules.maxCallDepth ≤ d

namespace Shallow

variable {d : Nat} {m m' : Machine}

theorem of_balanced (h : Shallow d m) (hb : Balanced m m') : Shallow d m' :=
  ⟨hb.depth ▸ h.depth, hb.rules ▸ h.limit⟩

/-- A frame changes no depth. -/
theorem enter (h : Shallow d m) (frame : Frame) : Shallow d (m.withRegisters frame.enter) := by
  cases frame <;> exact ⟨h.depth, h.limit⟩

/-- A call that is admitted is not too deep. -/
theorem enterCall (h : Shallow d m) (hadmits : m.admitsCall = true) (name : String) :
    Shallow d (m.withRegisters (Registers.enterCall name)) := by
  have hlt : m.depth < m.rules.maxCallDepth := of_decide_eq_true hadmits
  exact ⟨Nat.le_trans hlt h.limit, h.limit⟩

end Shallow

/-- The rounds of a loop are shallow if each round is. -/
theorem roundsLog_shallow {d : Nat} {σ α : Type} {round : σ → Run (Flow σ α)} {log : σ → Machine → Log}
    (hb : ∀ s m, Balanced m (finalMachine (round s m)))
    (h : ∀ s m, Shallow d m → ∀ e ∈ log s m, e.machine.depth ≤ d) :
    ∀ (fuel : Nat) (s : σ) (m : Machine), Shallow d m →
      ∀ e ∈ Run.roundsLog round log fuel s m, e.machine.depth ≤ d
  | 0, _, _, _, e, he => by simp [Run.roundsLog] at he
  | fuel + 1, s, m, hm, e, he => by
    have hround := hb s m
    rcases List.mem_append.mp he with he | he
    · exact h s m hm e he
    · cases hr : round s m with
      | error e' m' => simp [hr] at he
      | ok flow m' =>
        rw [hr] at hround
        cases flow with
        | leave a => simp [hr] at he
        | proceed s' =>
          simp only [hr] at he
          split at he
          · exact roundsLog_shallow hb h fuel s' m' (hm.of_balanced hround) e he
          · simp at he

namespace Eval

variable {d : Nat} {answers : Answers} {logs : RequestLogs}

/-- The log of an action is shallow if what happens inside it is. -/
theorem log_shallow_of_inside (hb : ∀ request m, Balanced m (finalMachine (answers request m))) {α : Type}
    {x : Eval α} {m : Machine} (hm : Shallow d m)
    (h : ∀ e ∈ x.inside answers logs m, e.machine.depth ≤ d) :
    ∀ e ∈ x.log answers logs m, e.machine.depth ≤ d :=
  forall_mem_log answers logs m hm.depth h (hm.of_balanced (run_balanced hb x m)).depth

/-- **Calls nest no deeper than they may**, if those of requests do not. The induction is on the action, and the one
case that goes deeper, `nest`, asks before it does. -/
theorem inside_shallow (hb : ∀ request m, Balanced m (finalMachine (answers request m)))
    (hask : ∀ request m, Shallow d m → ∀ e ∈ logs request m, e.machine.depth ≤ d) {α : Type} (x : Eval α)
    (m : Machine) (hm : Shallow d m) : ∀ e ∈ x.inside answers logs m, e.machine.depth ≤ d := by
  induction x generalizing m with
  | done | stop | read | update | charge | counted | clock => simp [inside]
  | andThen x f ihx ihf =>
    have hx := run_balanced hb x m
    intro e he
    rw [inside_andThen] at he
    rcases List.mem_append.mp he with he | he
    · exact log_shallow_of_inside hb hm (ihx m hm) e he
    · cases hr : x.run answers m with
      | error e' m' => simp [hr] at he
      | ok a m' =>
        rw [hr] at hx
        simp only [hr] at he
        have hm' := hm.of_balanced hx
        exact log_shallow_of_inside hb hm' (ihf a m' hm') e he
  | settle x ih =>
    rw [inside_settle]
    exact log_shallow_of_inside hb hm (ih m hm)
  | within frame x ih =>
    rw [inside_within]
    have hinner := hm.enter frame
    exact log_shallow_of_inside hb hinner (ih _ hinner)
  | nest name x refused ihx ihr =>
    rw [inside_nest]
    split
    · rename_i hadmits
      have hinner := hm.enterCall hadmits name
      exact log_shallow_of_inside hb hinner (ihx _ hinner)
    · exact log_shallow_of_inside hb hm (ihr m hm)
  | loop round start ih =>
    rw [inside_loop]
    exact roundsLog_shallow (fun s m => run_balanced hb (round s) m)
      (fun s m hm => log_shallow_of_inside hb hm (ih s m hm)) _ start m hm
  | ask request => exact hask request m hm

/-- The calls of requests nest no deeper than they may. -/
theorem logs_shallow : ∀ (n : Nat) (request : Request) (m : Machine), Shallow d m →
    ∀ e ∈ Eval.logs n request m, e.machine.depth ≤ d
  | 0, _, _, _ => by simp [Eval.logs]
  | n + 1, request, m, hm =>
    log_shallow_of_inside (answers_balanced n) hm
      (inside_shallow (answers_balanced n) (logs_shallow n) (serve request) m hm)

/-- During an action, calls nest at most as deep as the rules allow, or as deep as they were nested before. -/
theorem depth_le_of_mem_log (n : Nat) {α : Type} (x : Eval α) (m : Machine) :
    ∀ e ∈ x.log (Eval.answers n) (Eval.logs n) m, e.machine.depth ≤ max m.depth m.rules.maxCallDepth := by
  have hm : Shallow (max m.depth m.rules.maxCallDepth) m := ⟨Nat.le_max_left _ _, Nat.le_max_right _ _⟩
  exact log_shallow_of_inside (answers_balanced n) hm
    (inside_shallow (answers_balanced n) (logs_shallow n) x m hm)

end Eval

end GuestScript
