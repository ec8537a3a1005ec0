import GuestScript.Proofs.Identity
import GuestScript.Tree.Parser.State

/-!
# Doubles

A finite double is a mantissa times a power of two with a sign. Its magnitude is counted here in units of the smallest
positive double (`units`), which makes it a natural number: exponents and then mantissas are in the order of the
magnitudes (`compare_units`), and the conversion to a natural number drops what is left behind the point
(`units_toNatural64_le`). So a double that is not above a natural number is converted to one that is not above it
(`toNatural64_le_of_not_lt`). Natural numbers below `2 ^ 53` are held exactly and read back (`toNatural64_ofNat`).

A number in the text of a program becomes a number of a document: an integer that is held exactly becomes a sign and a
word, and any other one stays a double (`Parser.numberValue`). What it stands for there is equal to it
(`toFloat_numberValue`), and so its text is the same (`text_congr`).
-/

namespace GuestScript.Number

open Float.Model (UnpackedFloat Format totalExponent)
open Float.Model.UnpackedFloat (Sign ExtendedMantissa unpackSign unpackExponent unpackMantissa packComponents)

variable {m m' n : Nat} {e : Int} {x : Float}

/-! ## 1. Words -/

theorem unpackSign_packComponents (s : Sign) (exponent : BitVec 11) (mantissa : BitVec 52) :
    Sign.ofBitVec (unpackSign (packComponents Format.binary64 s exponent mantissa)) = s := by
  have h : unpackSign (packComponents Format.binary64 s exponent mantissa) = s.toBitVec := by
    ext i hi
    obtain rfl : i = 0 := by omega
    simp [unpackSign, packComponents]
    rw [BitVec.getLsbD_append, BitVec.getLsbD_append]
    exact BitVec.getLsbD_eq_getElem hi
  rw [h]
  cases s <;> rfl

theorem append_extract (b : BitVec 64) :
    (b.extractLsb 63 63 ++ b.extractLsb 62 52 ++ b.extractLsb 51 0 : BitVec (1 + 11 + 52)) = b := by
  refine BitVec.eq_of_getElem_eq fun i hi => ?_
  rw [BitVec.getElem_append]
  split
  · simp [BitVec.getLsbD_eq_getElem hi]
  rw [BitVec.getElem_append]
  split
  · simp [show 52 + (i - 52) = i by omega, BitVec.getLsbD_eq_getElem hi]
  · obtain rfl : i = 63 := by omega
    simp

/-- Every word is put together from the components that are read off it. -/
theorem packComponents_unpack (b : BitVec Format.binary64.numBits) :
    packComponents Format.binary64 (Sign.ofBitVec (unpackSign b)) (unpackExponent b) (unpackMantissa b) = b := by
  have hsign : (Sign.ofBitVec (unpackSign b)).toBitVec = unpackSign b := by
    generalize unpackSign b = sign
    rcases BitVec.eq_zero_or_eq_one sign with rfl | rfl <;> rfl
  unfold packComponents
  rw [hsign]
  exact append_extract b

theorem one_append_toNat (mantissa : BitVec 52) : (1#1 ++ mantissa).toNat = 2 ^ 52 + mantissa.toNat := by
  rw [BitVec.toNat_append]
  exact (Nat.shiftLeft_add_eq_or_of_lt mantissa.isLt 1).symm

theorem unpack_packComponents (s : Sign) (exponent : BitVec 11) (mantissa : BitVec 52) :
    UnpackedFloat.unpack Format.binary64 (packComponents Format.binary64 s exponent mantissa) =
      if exponent = -1#11 then if mantissa = 0#52 then .infinity s else .notANumber
      else if exponent = 0#11 then
        if h : 0 < mantissa.toNat then .finite s mantissa.toNat (-1074) h else .zero s
      else .finite s (2 ^ 52 + mantissa.toNat) ((exponent.toNat : Int) - 1075) (by omega) := by
  unfold UnpackedFloat.unpack
  simp only [UnpackedFloat.unpackExponent_packComponents, UnpackedFloat.unpackMantissa_packComponents,
    unpackSign_packComponents]
  split
  · rfl
  split
  · rename_i h
    rw [h]
    by_cases hm : mantissa = 0#52
    · subst hm
      rfl
    · have hpos : 0 < mantissa.toNat := Nat.pos_of_ne_zero fun h => hm (BitVec.eq_of_toNat_eq h)
      rw [dif_neg hm, dif_pos hpos]
      rfl
  · rw [UnpackedFloat.finite.injEq]
    exact ⟨rfl, one_append_toNat mantissa, rfl⟩

theorem unpack_pack_finite (s : Sign) (hpos : 0 < m) (hleast : -1074 ≤ e) (hmost : e ≤ 971) (hm : m < 2 ^ 53) :
    (Float.Model.pack (.finite s m e hpos)).unpack =
      if 2 ^ 52 ≤ m then .finite s m e hpos else .finite s m (-1074) hpos := by
  change UnpackedFloat.unpack Format.binary64 (UnpackedFloat.pack Format.binary64 (.finite s m e hpos)) = _
  have hlog : m.log2 = 52 ↔ 2 ^ 52 ≤ m := by
    rw [Nat.log2_eq_iff (by omega)]
    omega
  have hbias : Format.binary64.exponentBias = 1023 := rfl
  have hbits : Format.binary64.mantissaBits = 53 := rfl
  unfold UnpackedFloat.pack
  dsimp only
  rw [hbias, hbits, if_neg (by omega)]
  by_cases hfull : 2 ^ 52 ≤ m
  · rw [if_pos (by omega), if_pos hfull, unpack_packComponents]
    have hexponent :
        (BitVec.ofNat 11 (e + ((1023 : Nat) : Int) + ((52 : Nat) : Int)).toNat).toNat = (e + 1075).toNat := by
      rw [BitVec.toNat_ofNat]
      omega
    have hmantissa : (BitVec.ofNat 52 m).toNat = m - 2 ^ 52 := by
      rw [BitVec.toNat_ofNat]
      omega
    rw [if_neg, if_neg, UnpackedFloat.finite.injEq, hexponent, hmantissa]
    · exact ⟨rfl, by omega, by omega⟩
    · intro h
      rw [h] at hexponent
      change 0 = _ at hexponent
      omega
    · intro h
      rw [h] at hexponent
      change 2047 = _ at hexponent
      omega
  · have hmantissa : (BitVec.ofNat 52 m).toNat = m := by
      rw [BitVec.toNat_ofNat]
      omega
    rw [if_neg (by omega), if_neg hfull, unpack_packComponents, if_neg (by decide), if_pos rfl,
      dif_pos (by rwa [hmantissa]), UnpackedFloat.finite.injEq]
    exact ⟨rfl, hmantissa, rfl⟩

/-! ## 2. Magnitudes -/

/-- A magnitude, in units of the smallest positive double. -/
def units (mantissa : Nat) (exponent : Int) : Nat :=
  mantissa * 2 ^ (exponent + 1074).toNat

theorem units_mono (h : m ≤ m') : units m e ≤ units m' e :=
  Nat.mul_le_mul_right _ h

theorem le_of_units_le (h : units m e ≤ units m' e) : m ≤ m' :=
  Nat.le_of_mul_le_mul_right h (Nat.two_pow_pos _)

theorem units_lt : units m e < units m' e ↔ m < m' :=
  Nat.mul_lt_mul_right (Nat.two_pow_pos _)

/-- A magnitude is kept when its exponent goes up by as much as its mantissa loses digits. -/
theorem units_shift (m : Nat) {e' : Int} {k : Nat} (he : -1074 ≤ e) (h : e' = e + k) :
    units m e' = units (m * 2 ^ k) e := by
  unfold units
  rw [Nat.mul_assoc, ← Nat.pow_add]
  congr 2
  omega

/-! ## 3. Rounding -/

theorem targetExponent_eq (total : Int) : Format.binary64.targetExponent total = max (total - 53) (-1074) :=
  rfl

theorem shift_succ (em : ExtendedMantissa) (k : Nat) : em >>> (k + 1) = (em >>> k).shiftRightOne :=
  rfl

theorem shift_exact (m k : Nat) :
    (ExtendedMantissa.mk m false false >>> k).mantissa = m / 2 ^ k ∧
      (((ExtendedMantissa.mk m false false >>> k).roundBit = true ∨
        (ExtendedMantissa.mk m false false >>> k).stickyBit = true) ↔ m % 2 ^ k ≠ 0) := by
  induction k with
  | zero => simp [HShiftRight.hShiftRight, Nat.repeat, Nat.mod_one]
  | succ k ih =>
    obtain ⟨hmantissa, hbits⟩ := ih
    have hmod := Nat.mod_pow_succ (b := 2) (k := k) (x := m)
    have hpos := Nat.two_pow_pos k
    rw [shift_succ]
    unfold ExtendedMantissa.shiftRightOne
    dsimp only
    rw [hmantissa, Bool.or_eq_true, hbits, hmod, Nat.div_div_eq_div_mul, Nat.pow_succ]
    refine ⟨rfl, ?_⟩
    rcases Nat.mod_two_eq_zero_or_one (m / 2 ^ k) with h | h <;> rw [h] <;> simp

/-- Whether a double is at most a natural number. Infinity and not-a-number are not. -/
def AtMost (n : Nat) : UnpackedFloat → Prop
  | .notANumber | .infinity .positive => False
  | .finite .positive m e _ => units m e ≤ units n 0
  | _ => True

theorem shiftToTargetExponent_eq (m : Nat) (e : Int) :
    ∃ k : Nat, k = (max ((m.log2 : Int) + 1 + e - 53) (-1074) - e).toNat ∧
      UnpackedFloat.shiftToTargetExponent Format.binary64 m e .exact =
        (ExtendedMantissa.mk m false false >>> k, e + k) :=
  ⟨_, rfl, rfl⟩

/-- What a double holds exactly is kept. -/
theorem roundWithAccuracy_exact (s : Sign) (hfull : 2 ^ 52 ≤ m) (hm : m < 2 ^ 53) (he : -1074 ≤ e) :
    UnpackedFloat.roundWithAccuracy Format.binary64 s m e .exact = .finite s m e (by omega) := by
  have hlog : m.log2 = 52 := (Nat.log2_eq_iff (by omega)).mpr ⟨hfull, hm⟩
  obtain ⟨k, hk, hshift⟩ := shiftToTargetExponent_eq m e
  obtain rfl : k = 0 := by omega
  unfold UnpackedFloat.roundWithAccuracy
  rw [hshift]
  dsimp only
  rw [show e + ((0 : Nat) : Int) = e by omega] at hshift ⊢
  rw [show (ExtendedMantissa.mk m false false >>> 0).roundedMantissa = m from rfl, hshift]
  exact dif_neg (show ¬ m = 0 by omega)

/-! ## 4. The parts of a double -/

/-- What a double is made of. -/
abbrev parts (x : Float) : UnpackedFloat :=
  x.toModel.unpack

/-- A mantissa and an exponent as a double holds them: the mantissa has all of its digits unless the exponent is the
smallest one. -/
structure Canonical (mantissa : Nat) (exponent : Int) : Prop where
  short : mantissa < 2 ^ 53
  least : -1074 ≤ exponent
  most : exponent ≤ 971
  full : exponent = -1074 ∨ 2 ^ 52 ≤ mantissa

theorem canonical_parts {s : Sign} {hpos : 0 < m} (h : parts x = .finite s m e hpos) : Canonical m e := by
  change UnpackedFloat.unpack Format.binary64 x.toModel.toBits.toBitVec = _ at h
  rw [← packComponents_unpack x.toModel.toBits.toBitVec, unpack_packComponents] at h
  generalize @unpackExponent Format.binary64 x.toModel.toBits.toBitVec = exponent at h
  generalize @unpackMantissa Format.binary64 x.toModel.toBits.toBitVec = mantissa at h
  have hmantissa : mantissa.toNat < 2 ^ 52 := mantissa.isLt
  split at h
  · split at h <;> cases h
  · rename_i hfinite
    have hexponent : exponent.toNat < 2 ^ 11 := exponent.isLt
    split at h
    · split at h
      · cases h
        exact ⟨by omega, by decide, by decide, .inl rfl⟩
      · cases h
    · rename_i hzero
      cases h
      have hne : exponent.toNat ≠ 0 := fun h => hzero (BitVec.eq_of_toNat_eq h)
      have hne' : exponent.toNat ≠ 2047 := fun h => hfinite (BitVec.eq_of_toNat_eq h)
      exact ⟨by omega, by omega, by omega, .inr (by omega)⟩

/-- Exponents and then mantissas are in the order of the magnitudes. -/
theorem compare_units {e' : Int} (h : Canonical m e) (h' : Canonical m' e') :
    (compare e e').then (compare m m') = compare (units m e) (units m' e') := by
  have hlt {m m' : Nat} {e e' : Int} (h : Canonical m e) (h' : Canonical m' e') (hexponent : e < e') :
      units m e < units m' e' := by
    have hfull : 2 ^ 52 ≤ m' := h'.full.resolve_left (by have := h.least; omega)
    have hleast := h.least
    calc units m e < units (2 ^ 53) e := units_lt.mpr h.short
      _ ≤ units (2 ^ 52) e' := by
        rw [units_shift (2 ^ 52) hleast (k := (e' - e).toNat) (by omega)]
        exact units_mono (by rw [← Nat.pow_add]; exact Nat.pow_le_pow_right (by decide) (by omega))
      _ ≤ units m' e' := units_mono hfull
  rcases Int.lt_trichotomy e e' with hexponent | rfl | hexponent
  · rw [Int.compare_eq_lt.mpr hexponent, Nat.compare_eq_lt.mpr (hlt h h' hexponent)]
    rfl
  · rw [Int.compare_eq_eq.mpr rfl]
    rcases Nat.lt_trichotomy m m' with hm | rfl | hm
    · rw [Nat.compare_eq_lt.mpr hm, Nat.compare_eq_lt.mpr (units_lt.mpr hm)]
      rfl
    · simp
    · rw [Nat.compare_eq_gt.mpr hm, Nat.compare_eq_gt.mpr (units_lt.mpr hm)]
      rfl
  · rw [Int.compare_eq_gt.mpr hexponent, Nat.compare_eq_gt.mpr (hlt h' h hexponent)]
    rfl

theorem lt_iff (x y : Float) : x < y ↔ (parts x).compare (parts y) = some .lt := by
  change decide (x.toModel < y.toModel) = true ↔ _
  rw [decide_eq_true_iff]
  change ((parts x).compare (parts y) == some .lt) = true ↔ _
  exact beq_iff_eq

theorem compare_swap (p q : UnpackedFloat) : q.compare p = (p.compare q).map Ordering.swap := by
  have hswap (m m' : Nat) (e e' : Int) :
      (compare e' e).then (compare m' m) = ((compare e e').then (compare m m')).swap := by
    rw [Ordering.swap_then, Int.compare_swap, Nat.compare_swap]
  rcases p with ⟨_ | _⟩ | _ | ⟨s⟩ | ⟨_ | _, m, e, hpos⟩ <;>
    rcases q with ⟨_ | _⟩ | _ | ⟨s'⟩ | ⟨_ | _, m', e', hpos'⟩ <;> try rfl
  · exact congrArg (fun o => some o.swap) (hswap m m' e e')
  · exact congrArg some (hswap m m' e e')

theorem le_iff (x y : Float) : x ≤ y ↔ ((parts x).compare (parts y)).any (·.isLE) = true := by
  change decide (x.toModel ≤ y.toModel) = true ↔ _
  rw [decide_eq_true_iff]
  rfl

/-- The integral part of a double. -/
theorem toInt_positive (hpos : 0 < m) (low high : Int) :
    (UnpackedFloat.finite .positive m e hpos).toInt low high = ((m * 2 ^ e.toNat / 2 ^ (-e).toNat : Nat) : Int) := by
  change UnpackedFloat.roundToInt .positive m _ = _
  unfold UnpackedFloat.roundToInt UnpackedFloat.decreaseExponent UnpackedFloat.shiftToExponent
  rw [Int.sub_zero]
  change ((ExtendedMantissa.mk (m <<< e.toNat) false false >>> (0 - (e - e.toNat)).toNat).mantissa : Int) = _
  rw [(shift_exact _ _).1, Nat.shiftLeft_eq, show (0 - (e - e.toNat)).toNat = (-e).toNat by omega]

/-- The integral part of a double is not above it. -/
theorem units_toInt_le (hpos : 0 < m) (he : -1074 ≤ e) (low high : Int) :
    units ((UnpackedFloat.finite .positive m e hpos).toInt low high).toNat 0 ≤ units m e := by
  rw [toInt_positive, Int.toNat_natCast, units_shift m (e := -(-e).toNat) (k := e.toNat) (by omega) (by omega),
    units_shift _ (e := -(-e).toNat) (k := (-e).toNat) (by omega) (by omega)]
  exact units_mono (Nat.div_mul_le_self _ _)

theorem toUInt64_le (x : Float) : x.toUInt64.toNat ≤ ((parts x).toInt 0 (2 ^ 64 - 1)).toNat := by
  change (UInt64.ofNatClamp ((parts x).toInt 0 (2 ^ 64 - 1)).toNat).toNat ≤ _
  generalize ((parts x).toInt 0 (2 ^ 64 - 1)).toNat = n
  have hsize : UInt64.size = 2 ^ 64 := rfl
  unfold UInt64.ofNatClamp
  split
  · exact Nat.le_refl n
  · change UInt64.size - 1 ≤ n
    omega

theorem parts_zero : parts 0.0 = .zero .positive := by
  rfl

theorem parts_most : parts 18446744073709551616.0 = .finite .positive (2 ^ 52) 12 (by decide) := by
  rfl

theorem parts_ofNat_zero : parts (ofNat 0) = .zero .positive := by
  rfl

/-- A small natural number is held exactly. -/
theorem parts_ofNat (hpos : 0 < n) (hn : n < 2 ^ 53) :
    ∃ m e hm, parts (ofNat n) = .finite .positive m e hm ∧ units m e = units n 0 := by
  have hlog : n.log2 < 53 := (Nat.log2_lt (by omega)).mpr hn
  have hlow := Nat.log2_self_le (n := n) (by omega)
  have hhigh := Nat.lt_log2_self (n := n)
  obtain ⟨k, hk⟩ : ∃ k : Nat, n.log2 + k = 52 := ⟨52 - n.log2, by omega⟩
  have hfull : 2 ^ 52 ≤ n * 2 ^ k := by
    rw [← hk, Nat.pow_add]
    exact Nat.mul_le_mul_right _ hlow
  have hshort : n * 2 ^ k < 2 ^ 53 := by
    rw [show 53 = n.log2 + 1 + k by omega, Nat.pow_add]
    exact Nat.mul_lt_mul_of_pos_right hhigh (Nat.two_pow_pos k)
  have hround : UnpackedFloat.round Format.binary64 .positive n 0 =
      .finite .positive (n * 2 ^ k) (-k) (Nat.mul_pos hpos (Nat.two_pow_pos k)) := by
    unfold UnpackedFloat.round UnpackedFloat.decreaseExponent totalExponent
    rw [targetExponent_eq]
    simp only [Nat.shiftLeft_eq]
    rw [show (0 - max ((n.log2 : Int) + 1 + 0 - 53) (-1074)).toNat = k by omega, Int.zero_sub]
    exact roundWithAccuracy_exact .positive hfull hshort (by omega)
  have hnormal : UnpackedFloat.ofNat Format.binary64 n = UnpackedFloat.round Format.binary64 .positive n 0 := by
    unfold UnpackedFloat.ofNat UnpackedFloat.ofInt UnpackedFloat.normalize
    rw [Int.compare_eq_gt.mpr (by omega)]
    rfl
  have hparts : parts (ofNat n) = (Float.Model.pack (UnpackedFloat.ofNat Format.binary64 n)).unpack := by
    unfold ofNat
    rw [if_pos (by omega)]
    change (Float.Model.pack (UnpackedFloat.ofNat Format.binary64 n.toUInt64.toNat)).unpack = _
    rw [Nat.toUInt64_eq, UInt64.toNat_ofNat_of_lt' (by exact Nat.lt_trans hn (by decide))]
  refine ⟨n * 2 ^ k, -k, Nat.mul_pos hpos (Nat.two_pow_pos k), ?_, (units_shift n (by omega) (by omega)).symm⟩
  rw [hparts, hnormal, hround, unpack_pack_finite .positive _ (by omega) (by omega) hshort, if_pos hfull]

/-! ## 5. Conversion to natural numbers -/

theorem toInt_negative (hpos : 0 < m) (high : Int) :
    ((UnpackedFloat.finite .negative m e hpos).toInt 0 high).toNat = 0 := by
  change (UnpackedFloat.roundToInt .negative m e).toNat = 0
  unfold UnpackedFloat.roundToInt
  exact Int.toNat_of_nonpos (Int.neg_nonpos_of_nonneg (Int.natCast_nonneg _))

/-- What is not a positive magnitude is converted to zero. -/
theorem toNatural64_eq_zero (h : ((parts x).toInt 0 (2 ^ 64 - 1)).toNat = 0)
    (hlt : (parts x).compare (parts 18446744073709551616.0) = some .lt) : toNatural64 x = 0 := by
  have hword := toUInt64_le x
  unfold toNatural64
  split
  · rfl
  · rw [if_pos ((lt_iff x _).mpr hlt)]
    omega

/-- A positive double is converted to its integral part, or to less when that is too large. -/
theorem units_toNatural64_le {hpos : 0 < m} (hx : parts x = .finite .positive m e hpos) :
    units (toNatural64 x) 0 ≤ units m e := by
  have hcanonical := canonical_parts hx
  have hmost : Canonical (2 ^ 52) 12 := ⟨by decide, by decide, by decide, .inr (by decide)⟩
  have hword := toUInt64_le x
  rw [hx] at hword
  unfold toNatural64
  split
  · exact Nat.le_trans (Nat.le_of_eq (Nat.zero_mul _)) (Nat.zero_le _)
  split
  · exact Nat.le_trans (units_mono hword) (units_toInt_le hpos hcanonical.least _ _)
  · rename_i hlt
    rw [lt_iff, hx, parts_most] at hlt
    change ¬ some ((compare e 12).then (compare m (2 ^ 52))) = some .lt at hlt
    rw [compare_units hcanonical hmost, Option.some.injEq, Nat.compare_eq_lt, Nat.not_lt,
      units_shift (2 ^ 52) (e := 0) (k := 12) (by decide) (by decide)] at hlt
    exact Nat.le_trans (units_mono (by decide)) hlt

/-- The conversion gives the integral part, or zero for what is negative. -/
theorem toNatural64_le (h : AtMost n (parts x)) : toNatural64 x ≤ n := by
  have hzero (h : ((parts x).toInt 0 (2 ^ 64 - 1)).toNat = 0)
      (hlt : (parts x).compare (parts 18446744073709551616.0) = some .lt) : toNatural64 x ≤ n := by
    rw [toNatural64_eq_zero h hlt]
    exact Nat.zero_le n
  generalize hx : parts x = p at h hzero
  rw [parts_most] at hzero
  cases p with
  | notANumber => exact h.elim
  | zero => exact hzero rfl rfl
  | infinity s =>
    cases s with
    | positive => exact h.elim
    | negative => exact hzero rfl rfl
  | finite s m e hpos =>
    cases s with
    | negative => exact hzero (toInt_negative hpos _) rfl
    | positive => exact le_of_units_le (Nat.le_trans (units_toNatural64_le hx) h)

/-- A natural number is compared with a positive double by their magnitudes. -/
theorem compare_ofNat (hn : n < 2 ^ 53) (hpos : 0 < m) (h : Canonical m e) :
    (parts (ofNat n)).compare (.finite .positive m e hpos) = some (compare (units n 0) (units m e)) := by
  rcases Nat.eq_zero_or_pos n with rfl | hn₀
  · have hunits : units 0 0 < units m e := by
      rw [show units 0 0 = units 0 e from (Nat.zero_mul _).trans (Nat.zero_mul _).symm]
      exact units_lt.mpr hpos
    rw [parts_ofNat_zero, Nat.compare_eq_lt.mpr hunits]
    rfl
  · obtain ⟨m', e', hpos', hparts, hunits⟩ := parts_ofNat hn₀ hn
    rw [hparts, ← hunits, ← compare_units (canonical_parts hparts) h]
    rfl

/-- What is not above a natural number is converted to one that is not above it. -/
theorem toNatural64_le_of_not_lt (hn : n < 2 ^ 53) (h : ¬ ofNat n < x) : toNatural64 x ≤ n := by
  rw [lt_iff] at h
  generalize hx : parts x = p at h
  cases p with
  | notANumber =>
    have hnan : x.isNaN = true := congrArg UnpackedFloat.isNaN hx
    unfold toNatural64
    rw [hnan]
    exact Nat.zero_le n
  | zero s => exact toNatural64_le (hx ▸ trivial)
  | infinity s =>
    cases s with
    | negative => exact toNatural64_le (hx ▸ trivial)
    | positive =>
      rcases Nat.eq_zero_or_pos n with rfl | hn₀
      · exact (h (by rw [parts_ofNat_zero]; rfl)).elim
      · obtain ⟨m', e', hpos', hparts, -⟩ := parts_ofNat hn₀ hn
        exact (h (by rw [hparts]; rfl)).elim
  | finite s m e hpos =>
    cases s with
    | negative => exact toNatural64_le (hx ▸ trivial)
    | positive =>
      rw [compare_ofNat hn hpos (canonical_parts hx)] at h
      have hle : units m e ≤ units n 0 := Nat.le_of_not_lt fun hlt => h (by rw [Nat.compare_eq_lt.mpr hlt])
      exact toNatural64_le (hx ▸ hle)

/-! ## 6. Negative doubles -/

/-- The parts of a negative double. -/
theorem parts_of_negative (h : x < 0.0) :
    parts x = .infinity .negative ∨ ∃ m e hpos, parts x = .finite .negative m e hpos := by
  rw [lt_iff, parts_zero] at h
  generalize parts x = p at h
  cases p with
  | notANumber | zero => cases h
  | infinity s =>
    cases s with
    | positive => cases h
    | negative => exact .inl rfl
  | finite s m e hpos =>
    cases s with
    | positive => cases h
    | negative => exact .inr ⟨m, e, hpos, rfl⟩

/-! ## 7. Integers -/

theorem unpack_pack_canonical (s : Sign) (hpos : 0 < m) (h : Canonical m e) :
    (Float.Model.pack (.finite s m e hpos)).unpack = .finite s m e hpos := by
  rw [unpack_pack_finite s hpos h.least h.most h.short]
  split
  · rfl
  · rw [UnpackedFloat.finite.injEq]
    exact ⟨rfl, rfl, (h.full.resolve_right ‹_›).symm⟩

theorem parts_integralFrom : parts integralFrom = .finite .positive (2 ^ 52) 1 (by decide) := by
  rfl

theorem units_integralFrom : units (2 ^ 52) 1 = units (2 ^ 53) 0 :=
  units_shift (2 ^ 52) (e := 0) (k := 1) (by decide) (by decide)

theorem toFloat_eq (w : UInt64) : w.toFloat = ofNat w.toNat := by
  unfold ofNat
  rw [if_pos w.toNat_lt, Nat.toUInt64_eq, UInt64.ofNat_toNat]

end GuestScript.Number

namespace GuestScript.Number

open Float.Model (UnpackedFloat Format)
open Float.Model.UnpackedFloat (Sign unpackSign)

variable {x : Float} {n : Nat}

/-! ## 8. Texts of equal numbers -/

/-- Equal numbers have the same text: those that are not the same are the two zeros. -/
theorem text_congr {y : Float} (h : (x == y) = true) : text x = text y := by
  obtain ⟨-, -, rfl | ⟨rfl, rfl⟩ | ⟨rfl, rfl⟩⟩ := (Float.beq_iff_ne_nan_and_eq).mp h
  · rfl
  · decide +kernel
  · decide +kernel

/-! ## 9. Signs -/

theorem toNat_unpackSign (b : BitVec 64) : (@unpackSign Format.binary64 b).toNat = b.toNat >>> 63 := by
  have h := BitVec.extractLsb_toNat 63 63 b
  have hb := b.isLt
  change (b.extractLsb 63 63).toNat = _
  rw [h]
  omega

theorem signBit_iff (x : Float) :
    signBit x = true ↔ Sign.ofBitVec (@unpackSign Format.binary64 x.toModel.toBits.toBitVec) = .negative := by
  change (x.toModel.toBits >>> 63 == 1) = true ↔ _
  have hshift : (x.toModel.toBits >>> 63).toNat = (@unpackSign Format.binary64 x.toModel.toBits.toBitVec).toNat := by
    rw [UInt64.toNat_shiftRight, toNat_unpackSign]
    rfl
  rw [beq_iff_eq, ← UInt64.toNat_inj, hshift]
  generalize @unpackSign Format.binary64 x.toModel.toBits.toBitVec = s
  rcases BitVec.eq_zero_or_eq_one s with rfl | rfl
  · exact ⟨nofun, nofun⟩
  · exact ⟨fun _ => rfl, fun _ => rfl⟩

/-- The sign bit is the sign of the parts, which are those of a number unless it is not-a-number. -/
theorem parts_cases (x : Float) : ∃ s, (signBit x = true ↔ s = Sign.negative) ∧
    (parts x = .notANumber ∨ parts x = .infinity s ∨ parts x = .zero s ∨ ∃ m e hpos, parts x = .finite s m e hpos) := by
  refine ⟨_, signBit_iff x, ?_⟩
  generalize hparts : parts x = p
  change UnpackedFloat.unpack Format.binary64 x.toModel.toBits.toBitVec = p at hparts
  rw [← packComponents_unpack x.toModel.toBits.toBitVec, unpack_packComponents] at hparts
  subst hparts
  split
  · split
    · exact .inr (.inl rfl)
    · exact .inl rfl
  split
  · split
    · rename_i hpos
      exact .inr (.inr (.inr ⟨_, _, hpos, rfl⟩))
    · exact .inr (.inr (.inl rfl))
  · exact .inr (.inr (.inr ⟨_, _, Nat.add_pos_left (by decide) _, rfl⟩))

theorem signBit_of_lt (h : x < 0.0) : signBit x = true := by
  obtain ⟨s, hs, hx⟩ := parts_cases x
  refine hs.mpr ?_
  rcases parts_of_negative h with hneg | ⟨m', e', hpos', hneg⟩ <;>
    rcases hx with hx | hx | hx | ⟨m, e, hpos, hx⟩ <;> cases hneg.symm.trans hx <;> rfl

/-- A finite number with a sign that is not below zero is zero. -/
theorem eq_zero_of_signBit (hfinite : x.isFinite = true) (hs : signBit x = true) (h : ¬ x < 0.0) :
    (x == 0.0) = true := by
  obtain ⟨s, hs', hx⟩ := parts_cases x
  cases hs'.mp hs
  rw [lt_iff, parts_zero] at h
  change (parts x).isFinite = true at hfinite
  change (parts x).beq (.zero .positive) = true
  rcases hx with hx | hx | hx | ⟨m, e, hpos, hx⟩ <;> rw [hx] at h hfinite ⊢
  · cases hfinite
  · cases hfinite
  · rfl
  · exact (h rfl).elim

theorem beq_self (hfinite : x.isFinite = true) : (x == x) = true := by
  rw [Float.beq_iff_ne_nan_and_eq]
  have hne : x ≠ Float.nan := by
    rintro rfl
    exact absurd hfinite (by decide)
  exact ⟨hne, hne, .inl rfl⟩

/-! ## 10. Numbers of documents -/

/-- A finite number of a program is equal to what it stands for in a document. -/
theorem toFloat_numberValue (hfinite : x.isFinite = true) :
    ∃ n : Json.Numeral, Parser.numberValue x = .number n ∧ (n.toFloat == x) = true := by
  unfold Parser.numberValue
  split
  · rename_i h
    simp only [isIntegral, Bool.and_eq_true, decide_eq_true_eq, Bool.not_eq_true', Bool.and_eq_false_iff] at h
    obtain ⟨⟨⟨-, hwhole⟩, hsmall⟩, hzero⟩ := h
    refine ⟨_, rfl, ?_⟩
    rw [truncate, if_pos hsmall] at hwhole
    split
    · rename_i hneg
      rw [signBit_of_lt hneg] at hwhole
      change (-((x.abs.toUInt64.toNat.toUInt64).toFloat) == x) = true
      rw [Nat.toUInt64_eq, UInt64.ofNat_toNat]
      exact hwhole
    · rename_i hneg
      have hsign : signBit x = false := by
        refine Bool.eq_false_iff.mpr fun hs => ?_
        rw [eq_zero_of_signBit hfinite hs hneg, hs] at hzero
        exact hzero.elim nofun nofun
      rw [hsign] at hwhole
      change ((x.abs.toUInt64.toNat.toUInt64).toFloat == x) = true
      rw [Nat.toUInt64_eq, UInt64.ofNat_toNat]
      exact hwhole
  · exact ⟨_, rfl, beq_self hfinite⟩

/-! ## 11. Small natural numbers -/

/-- A small natural number is converted to itself. -/
theorem toUInt64_ofNat (hn : n < 2 ^ 53) (hx : parts x = parts (ofNat n)) : x.toUInt64.toNat = n := by
  have hint : ((parts x).toInt 0 (2 ^ 64 - 1)).toNat = n := by
    rcases Nat.eq_zero_or_pos n with rfl | hpos
    · rw [hx, parts_ofNat_zero]
      rfl
    · obtain ⟨m, e, hm, hparts, hunits⟩ := parts_ofNat hpos hn
      have he := (canonical_parts hparts).least
      rw [units_shift m (e := -(-e).toNat) (k := e.toNat) (by omega) (by omega),
        units_shift n (e := -(-e).toNat) (k := (-e).toNat) (by omega) (by omega)] at hunits
      have hexact : m * 2 ^ e.toNat = n * 2 ^ (-e).toNat :=
        Nat.le_antisymm (le_of_units_le hunits.le) (le_of_units_le hunits.ge)
      rw [hx, hparts, toInt_positive, Int.toNat_natCast, hexact, Nat.mul_div_cancel _ (Nat.two_pow_pos _)]
  change (UInt64.ofNatClamp ((parts x).toInt 0 (2 ^ 64 - 1)).toNat).toNat = n
  rw [hint, UInt64.ofNatClamp, dif_pos (Nat.lt_trans hn (by decide))]
  rfl

/-- What is positive is not not-a-number, not infinite, and has no sign. -/
theorem positive_of_parts {m : Nat} {e : Int} {hpos : 0 < m} (h : parts x = .finite .positive m e hpos) :
    x.isNaN = false ∧ x.isInf = false ∧ (x == 0.0) = false ∧ signBit x = false ∧ 0.0 < x := by
  refine ⟨congrArg UnpackedFloat.isNaN h, congrArg UnpackedFloat.isInf h, ?_, ?_, ?_⟩
  · change (parts x).beq (parts 0.0) = false
    rw [h, parts_zero]
    rfl
  · obtain ⟨s, hs, hx⟩ := parts_cases x
    refine Bool.eq_false_iff.mpr fun hsign => ?_
    cases hs.mp hsign
    rcases hx with hx | hx | hx | ⟨m', e', hpos', hx⟩ <;> cases h.symm.trans hx
  · rw [lt_iff, h, parts_zero]
    rfl

/-- A small natural number is below what has a larger magnitude. -/
theorem lt_of_units (hpos : 0 < n) (hn : n < 2 ^ 53) {y : Float} (hx : parts x = parts (ofNat n)) {m : Nat} {e : Int}
    {hm : 0 < m} (hy : parts y = .finite .positive m e hm) (h : units n 0 < units m e) : x < y := by
  obtain ⟨m', e', hm', hparts, hunits⟩ := parts_ofNat hpos hn
  rw [lt_iff, hx, hparts, hy]
  change some ((compare e' e).then (compare m' m)) = _
  rw [compare_units (canonical_parts hparts) (canonical_parts hy), hunits, Nat.compare_eq_lt.mpr h]

theorem toNatural64_ofNat (hn : n < 2 ^ 53) : toNatural64 (ofNat n) = n := by
  rcases Nat.eq_zero_or_pos n with rfl | hpos
  · rfl
  obtain ⟨m, e, hm, hparts, hunits⟩ := parts_ofNat hpos hn
  obtain ⟨hnan, -, -, hsign, -⟩ := positive_of_parts hparts
  have hlt : ofNat n < 18446744073709551616.0 :=
    lt_of_units hpos hn rfl parts_most <| by
      rw [units_shift (2 ^ 52) (e := 0) (k := 12) (by decide) (by decide)]
      exact units_lt.mpr (Nat.lt_trans hn (by decide))
  rw [toNatural64, hnan, hsign, Bool.or_self, if_neg Bool.false_ne_true, if_pos hlt, toUInt64_ofNat hn rfl]

/-- A small natural number is an integer. -/
theorem toInteger_ofNat (hn : n < 2 ^ 53) : toInteger (ofNat n) = ofNat n := by
  rcases Nat.eq_zero_or_pos n with rfl | hpos
  · rfl
  obtain ⟨m, e, hm, hparts, hunits⟩ := parts_ofNat hpos hn
  obtain ⟨hnan, hinf, hzero, hsign, -⟩ := positive_of_parts hparts
  have habs : parts (ofNat n).abs = parts (ofNat n) := by
    change (Float.Model.pack (parts (ofNat n)).abs).unpack = _
    rw [hparts]
    exact unpack_pack_canonical .positive hm (canonical_parts hparts)
  have hlt : (ofNat n).abs < integralFrom :=
    lt_of_units hpos hn habs parts_integralFrom <| by
      rw [units_integralFrom]
      exact units_lt.mpr hn
  rw [toInteger, hnan, hzero, hinf, truncate, if_pos hlt, hsign, toFloat_eq, toUInt64_ofNat hn habs]
  rfl

end GuestScript.Number
