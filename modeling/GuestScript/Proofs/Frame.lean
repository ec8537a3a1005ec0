import GuestScript.Proofs.Trust.Sound

/-!
# Calls restore the registers

Every action is balanced, but for the result of a program (`Eval.run_balanced`). Calls, constructions and evaluations
of text keep the result as well: they note one only inside a call or inside a program of their own. That is a matter
of trust, for the watch under which every object may be written to and no result may be noted.

`Eval.calls_restore_registers` puts the two together, with the depth of the calls in between.
-/

namespace GuestScript

/-! ## 1. The result of a program -/

/-- The watch that looks after the result only. -/
def Watch.result : Watch where
  Free _ := True
  Fits _ := True
  constructing := true
  notes := false
  unlabeled_free _ _ := trivial
  date_free _ _ := trivial
  collection_free _ _ := trivial
  listed_free _ _ := trivial
  fresh_free _ := trivial
  fits_of_eq _ _ _ := trivial
  fits_push _ _ := trivial
  fits_set _ _ _ := trivial

/-- Where every object is free, there are no doors. -/
theorem Log.shut_result (l : Log) : l.Shut Watch.result.Free := by
  intro e _ h
  unfold Event.Opens at h
  split at h
  · rename_i request _
    refine h ?_
    unfold Request.Safe
    split <;> trivial
  · exact h trivial
  · exact h

namespace Eval

/-- An action that is trusted not to note a result keeps the one that is there. -/
theorem result_of_trusted (n : Nat) {α : Type} {x : Eval α} (hx : x.Trusted Watch.result) (m : Machine) :
    (finalMachine (x.run (answers n) m)).result = m.result := by
  have hmeets : Watch.result.Meets m.toState := ⟨trivial, fun _ => rfl⟩
  exact (keeps_run n hx hmeets (Log.shut_result _)).result rfl

/-! ## 2. All registers -/

/-- An action restores the registers: they are the same after it, however it ends, and calls nest no deeper in between
than the rules allow, or than they were nested before. -/
structure Restores (n : Nat) {α : Type} (x : Eval α) (m : Machine) : Prop where
  registers : (finalMachine (x.run (answers n) m)).toRegisters = m.toRegisters
  depth : ∀ e ∈ x.log (answers n) (logs n) m, e.machine.depth ≤ max m.depth m.rules.maxCallDepth

/-- An action that is trusted not to note a result restores the registers. -/
theorem restores_of_trusted (n : Nat) {α : Type} {x : Eval α} (hx : x.Trusted Watch.result) (m : Machine) :
    Restores n x m where
  registers := (run_balanced (answers_balanced n) x m).toRegisters_eq (result_of_trusted n hx m)
  depth := depth_le_of_mem_log n x m

/-- **Calls restore the registers.** On any machine, and with any number of requests left to nest, a call, a
construction and an evaluation of text leave all registers as they were, and every piece of code leaves all of them
but the result. -/
theorem calls_restore_registers (n : Nat) (m : Machine) :
    (∀ function receiver args, Restores n (callFunction function receiver args) m) ∧
    (∀ function args, Restores n (constructFunction function args) m) ∧
    (∀ code scope receiver, Restores n (evalCode code scope receiver) m) ∧
    ∀ c : Code,
      let m' := finalMachine (c.exec.run (answers n) m)
      m'.scope = m.scope ∧ m'.receiver = m.receiver ∧ m'.calls = m.calls ∧ m'.depth = m.depth ∧
        m'.newTarget = m.newTarget ∧ m'.joining = m.joining := by
  refine ⟨?_, ?_, ?_, ?_⟩
  · intro function receiver args
    exact restores_of_trusted n (trusted_callFunction function receiver args) m
  · intro function args
    exact restores_of_trusted n (trusted_constructFunction function args) m
  · intro code scope receiver
    exact restores_of_trusted n (trusted_evalCode code scope receiver) m
  · intro c
    have h := run_balanced (answers_balanced n) c.exec m
    exact ⟨h.scope, h.receiver, h.calls, h.depth, h.newTarget, h.joining⟩

end Eval

end GuestScript
