import Mathlib
import GuestScript.Value

/-!
# Identity of values

`Number.same_iff`: two numbers are the same one exactly when they are equal, since there is one not-a-number and
the sign tells the two zeros apart. With it the identity of symbols, keys and values is an equivalence.
-/

namespace GuestScript

namespace Number

/-- The two zeros are the numbers that compare equal to zero. -/
theorem isZero_iff (x : Float) : (x == 0.0) = true ↔ x = 0 ∨ x = -0 := by
  have hzero : (0.0 : Float) = 0 := by decide
  have hpos : (0 : Float) ≠ Float.nan := by decide
  have hneg : (-0 : Float) ≠ Float.nan := by decide
  rw [hzero, Float.beq_iff_ne_nan_and_eq]
  constructor
  · rintro ⟨-, -, h | h | h⟩
    · exact .inl h
    · exact .inl h.1
    · exact .inr h.1
  · rintro (rfl | rfl)
    · exact ⟨hpos, hpos, .inl rfl⟩
    · exact ⟨hneg, hpos, .inr (.inr ⟨rfl, rfl⟩)⟩

/-- Numbers that are the same are equal: there is one not-a-number, and the sign tells the zeros apart. -/
theorem same_iff (x y : Float) : same x y = true ↔ x = y := by
  have hsign : signBit 0 ≠ signBit (-0) := by decide
  have hzeros : (0 : Float) ≠ -0 := by decide
  simp only [same, Float.isNaN_eq_decide_eq_nan]
  split_ifs with hn hz
  · simp only [Bool.and_eq_true, decide_eq_true_eq] at hn
    simp [hn]
  · simp only [Bool.and_eq_true, isZero_iff] at hz
    obtain ⟨rfl | rfl, rfl | rfl⟩ := hz <;> simp [hsign, hsign.symm, hzeros, hzeros.symm]
  · rw [Float.beq_iff_ne_nan_and_eq]
    constructor
    · rintro ⟨-, -, h | ⟨rfl, rfl⟩ | ⟨rfl, rfl⟩⟩
      · exact h
      all_goals exact absurd (by simp [isZero_iff]) hz
    · rintro rfl
      have hx : x ≠ Float.nan := by simpa using hn
      exact ⟨hx, hx, .inl rfl⟩

end Number

namespace Symbol

theorem same_self (s : Symbol) : s.same s = true := by
  cases s <;> simp [same]

theorem same_congr {a b : Symbol} (h : a.same b = true) (c : Symbol) : a.same c = b.same c := by
  cases a <;> cases b <;> cases c <;> simp_all [same]

end Symbol

namespace Key

theorem same_self (k : Key) : k.same k = true := by
  cases k <;> simp [same, Symbol.same_self]

theorem same_congr {a b : Key} (h : a.same b = true) (c : Key) : a.same c = b.same c := by
  cases a <;> cases b <;> cases c <;> simp only [same, Bool.false_eq_true, beq_iff_eq] at h ⊢
  case string.string.string => rw [h]
  case symbol.symbol.symbol => exact Symbol.same_congr h _

theorem same_comm (a b : Key) : a.same b = b.same a := by
  cases hab : a.same b with
  | true => rw [← same_congr hab, same_self]
  | false =>
    cases hba : b.same a with
    | true => rw [← same_congr hba, same_self] at hab; exact hab.symm
    | false => rfl

end Key

namespace Value

theorem sameValue_self (v : Value) : v.sameValue v = true := by
  cases v <;> simp [sameValue, strictEquals.eq_def, Number.same_iff, Symbol.same_self]

theorem sameValue_trans {a b c : Value} (hab : a.sameValue b = true) (hbc : b.sameValue c = true) :
    a.sameValue c = true := by
  cases a <;> cases b <;> cases c <;>
    simp_all only [sameValue, strictEquals.eq_def, Number.same_iff, Bool.false_eq_true, beq_iff_eq, decide_eq_true_eq]
  case symbol.symbol.symbol => rw [Symbol.same_congr hab]; exact hbc

end Value

end GuestScript
