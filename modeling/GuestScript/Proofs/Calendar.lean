import GuestScript.Time.Calendar
import Mathlib

/-!
# The calendar in exact integers

The two conversions between day counts and dates are closed formulas. They are read here as a count of whole years that
start in March (`yearStart`), of whole months in such a year (`monthStart`) and of days, so that the odd day of a leap
year is the last one of its year.

* `yearOfDay_eq`: the formula for the year finds the one year that a day falls into.
* `dayOfCivil_civilOfDay`, `dayOfCivil_lt`: every day has a date, and later dates are later days.
* `calendar_exact`: with both, the conversions undo each other on the dates of the Gregorian calendar, dates that follow
  each other are one day apart, and in the range of years that scripts can ask for no step leaves 64 bits.
-/

namespace GuestScript.Time

/-! ## 1. Dates of the calendar -/

/-- Leap years: every fourth one, but of the full centuries only every fourth. -/
def IsLeap (year : Int) : Prop :=
  year % 4 = 0 ∧ (year % 100 ≠ 0 ∨ year % 400 = 0)

instance (year : Int) : Decidable (IsLeap year) :=
  inferInstanceAs (Decidable (_ ∧ _))

/-- The days of a month. -/
def daysIn (year month : Int) : Int :=
  if month = 2 then if IsLeap year then 29 else 28
  else if month = 4 ∨ month = 6 ∨ month = 9 ∨ month = 11 then 30
  else 31

namespace CivilDate

/-- A date that the calendar has. -/
structure OnCalendar (d : CivilDate) : Prop where
  month_pos : 1 ≤ d.month
  month_le : d.month ≤ 12
  day_pos : 1 ≤ d.day
  day_le : d.day ≤ daysIn d.year d.month

/-- Order by year, then by month, then by day. -/
def Before (d e : CivilDate) : Prop :=
  d.year < e.year ∨ d.year = e.year ∧ (d.month < e.month ∨ d.month = e.month ∧ d.day < e.day)

theorem before_trichotomy (d e : CivilDate) : d.Before e ∨ d = e ∨ e.Before d := by
  rcases d with ⟨y, m, n⟩
  rcases e with ⟨y', m', n'⟩
  simp only [Before, CivilDate.mk.injEq]
  omega

/-- The year of a date, when years start in March. -/
def marchYear (d : CivilDate) : Int :=
  if d.month ≤ 2 then d.year - 1 else d.year

/-- The month of a date counted from March, from zero. -/
def marchMonth (d : CivilDate) : Int :=
  (d.month + 9) % 12

end CivilDate

/-! ## 2. Days, months and years -/

/-- The days before a year that starts in March, from the start of year zero. -/
def yearStart (y : Int) : Int :=
  365 * y + y / 4 - y / 100 + y / 400

/-- The days of a year before a month. -/
def monthStart (m : Int) : Int :=
  (153 * m + 2) / 5

/-- The first day of the first year is this many days before 1970. -/
def epochShift : Int := 719468

variable {d e : CivilDate} {n y m : Int}

theorem dayOfCivil_eq (d : CivilDate) :
    dayOfCivil d = yearStart d.marchYear + monthStart d.marchMonth + d.day - 1 - epochShift := by
  rw [dayOfCivil, ← CivilDate.marchYear, ← CivilDate.marchMonth, ← monthStart, yearStart, epochShift]
  omega

/-- The days of a year that starts in March: it ends with the February of the next one. -/
def yearLength (y : Int) : Int :=
  if IsLeap (y + 1) then 366 else 365

theorem yearLength_cases (y : Int) :
    yearLength y = 366 ∧ (y + 1) % 4 = 0 ∧ ((y + 1) % 100 ≠ 0 ∨ (y + 1) % 400 = 0) ∨
      yearLength y = 365 ∧ ((y + 1) % 4 ≠ 0 ∨ (y + 1) % 100 = 0 ∧ (y + 1) % 400 ≠ 0) := by
  by_cases h : IsLeap (y + 1)
  · exact .inl ⟨if_pos h, h⟩
  · refine .inr ⟨if_neg h, ?_⟩
    rw [IsLeap] at h
    omega

theorem yearStart_succ (y : Int) : yearStart (y + 1) = yearStart y + yearLength y := by
  have hlength := yearLength_cases y
  simp only [yearStart]
  omega

theorem yearStart_le {y' : Int} (h : y ≤ y') : yearStart y ≤ yearStart y' := by
  simp only [yearStart]
  omega

/-- Every day falls into a year. -/
theorem exists_year (n : Int) : ∃ y, yearStart y ≤ n ∧ n < yearStart (y + 1) := by
  obtain ⟨y, hy, hmax⟩ := Int.exists_greatest_of_bdd (P := fun y => yearStart y ≤ n)
    ⟨n.natAbs, fun y hy => by simp only [yearStart] at hy; omega⟩ ⟨-n.natAbs, by simp only [yearStart]; omega⟩
  exact ⟨y, hy, not_le.mp fun h => absurd (hmax _ h) (by omega)⟩

/-- The formula for the year, in an era of four hundred years. -/
def yearOfEra (dayOfEra : Int) : Int :=
  (dayOfEra - dayOfEra / 1460 + dayOfEra / 36524 - dayOfEra / 146096) / 365

/-- Only the last day of an era starts a fifth century, and it is taken back. -/
theorem century_eq {c r : Int} (hc : 0 ≤ c ∧ c ≤ 3) (hr : 0 ≤ r ∧ r ≤ 36523 ∨ c = 3 ∧ r = 36524) :
    (36524 * c + r) / 36524 - (36524 * c + r) / 146096 = c := by
  rcases hr with hr | ⟨rfl, rfl⟩ <;> omega

/-- A year of an era by its century `c`, the block `q` of four years and the place `t` in it; `r` is the day of the
year. -/
theorem yearOfEra_eq {c q t r : Int} (hc : 0 ≤ c ∧ c ≤ 3) (hq : 0 ≤ q ∧ q ≤ 24) (ht : 0 ≤ t ∧ t ≤ 3)
    (hr : 0 ≤ r ∧ r < yearLength (100 * c + 4 * q + t)) :
    yearOfEra (36524 * c + (1461 * q + (365 * t + r))) = 100 * c + 4 * q + t := by
  -- the odd day is the last one of the last year of a block, but not at the end of the first three centuries
  have hodd : r ≤ 364 ∨ r = 365 ∧ t = 3 ∧ (q ≤ 23 ∨ c = 3) := by
    have hlength := yearLength_cases (100 * c + 4 * q + t)
    omega
  have hcentury := century_eq (r := 1461 * q + (365 * t + r)) hc (by omega)
  have hblock : (36524 * c + (1461 * q + (365 * t + r))) / 1460 = 25 * c + q ∨
      (36524 * c + (1461 * q + (365 * t + r))) / 1460 = 25 * c + q + 1 ∧ t = 3 := by omega
  rw [yearOfEra]
  omega

/-- Eras are counted in years as in days. -/
theorem era_eq (hstart : yearStart y ≤ n) (hstop : n < yearStart (y + 1)) : n / 146097 = y / 400 := by
  have hlength := yearLength_cases y
  rw [yearStart_succ] at hstop
  simp only [yearStart] at hstart hstop
  omega

/-- **The formula finds the year that a day falls into**, in the era that the day falls into. -/
theorem yearOfEra_day (hstart : yearStart y ≤ n) (hstop : n < yearStart (y + 1)) :
    yearOfEra (n - n / 146097 * 146097) = y % 400 := by
  have hplace : 100 * (y % 400 / 100) + 4 * (y % 100 / 4) + y % 4 = y % 400 := by omega
  have hlength : yearLength (y % 400) = yearLength y := by
    have hera := yearLength_cases (y % 400)
    have hwhole := yearLength_cases y
    omega
  have hparts : 36524 * (y % 400 / 100) + (1461 * (y % 100 / 4) + (365 * (y % 4) + (n - yearStart y))) =
      n - n / 146097 * 146097 := by
    rw [era_eq hstart hstop, yearStart]
    omega
  rw [yearStart_succ] at hstop
  have hyear := yearOfEra_eq (c := y % 400 / 100) (q := y % 100 / 4) (t := y % 4) (r := n - yearStart y)
    (by omega) (by omega) (by omega) ⟨by omega, by rw [hplace, hlength]; omega⟩
  rw [← hparts, hyear, hplace]

/-! ## 3. Days of a year -/

/-- A month of a year that starts in March ends where the next one starts, February with the year. -/
theorem monthStart_succ (d : CivilDate) (hm : 1 ≤ d.month ∧ d.month ≤ 12) :
    0 ≤ d.marchMonth ∧ d.marchMonth ≤ 11 ∧
      (d.marchMonth ≤ 10 → monthStart (d.marchMonth + 1) = monthStart d.marchMonth + daysIn d.year d.month) ∧
      (d.marchMonth = 11 → yearLength d.marchYear = monthStart 11 + daysIn d.year d.month) := by
  have hmonth : d.month = 1 ∨ d.month = 2 ∨ d.month = 3 ∨ d.month = 4 ∨ d.month = 5 ∨ d.month = 6 ∨ d.month = 7 ∨
      d.month = 8 ∨ d.month = 9 ∨ d.month = 10 ∨ d.month = 11 ∨ d.month = 12 := by omega
  rcases hmonth with h | h | h | h | h | h | h | h | h | h | h | h <;>
    simp [CivilDate.marchMonth, CivilDate.marchYear, daysIn, yearLength, monthStart, h]
  split <;> rfl

/-- A date stands within its month, and the month within its year. -/
theorem dayOfYear_mem (hd : d.OnCalendar) :
    yearStart d.marchYear ≤ dayOfCivil d + epochShift ∧ dayOfCivil d + epochShift < yearStart (d.marchYear + 1) := by
  obtain ⟨hm, hm', hnext, hlast⟩ := monthStart_succ d ⟨hd.month_pos, hd.month_le⟩
  have hday := hd.day_pos
  have hday' := hd.day_le
  have hlength := yearLength_cases d.marchYear
  rw [dayOfCivil_eq, yearStart_succ]
  simp only [monthStart] at hnext hlast ⊢
  omega

/-- The day of a year that starts in March, as a date. -/
def dateOf (y r : Int) : CivilDate :=
  let m := (5 * r + 2) / 153
  let month := if m < 10 then m + 3 else m - 9
  { year := y + (if month ≤ 2 then 1 else 0), month := month, day := r - monthStart m + 1 }

theorem civilOfDay_eq (hstart : yearStart y ≤ n) (hstop : n < yearStart (y + 1)) :
    civilOfDay (n - epochShift) = dateOf y (n - yearStart y) := by
  have hera := era_eq hstart hstop
  have hyear := yearOfEra_day hstart hstop
  have hwhole : y % 400 + n / 146097 * 400 = y := by omega
  have hday : n - n / 146097 * 146097 - (365 * (y % 400) + y % 400 / 4 - y % 400 / 100) = n - yearStart y := by
    rw [hera, yearStart]
    omega
  have hparts : civilOfDay (n - epochShift) =
      let n := n - epochShift + epochShift
      let yoe := yearOfEra (n - n / 146097 * 146097)
      dateOf (yoe + n / 146097 * 400) (n - n / 146097 * 146097 - (365 * yoe + yoe / 4 - yoe / 100)) := rfl
  rw [hparts, Int.sub_add_cancel]
  dsimp only
  rw [hyear, hwhole, hday]

/-- A day of a year has a date in that year. -/
theorem dateOf_onCalendar {r : Int} (hr : 0 ≤ r ∧ r < yearLength y) :
    (dateOf y r).OnCalendar ∧ (dateOf y r).marchYear = y ∧
      monthStart (dateOf y r).marchMonth + (dateOf y r).day - 1 = r := by
  -- the formula for the month undoes the one for its first day
  have hfrom : monthStart ((5 * r + 2) / 153) ≤ r ∧ r < monthStart ((5 * r + 2) / 153 + 1) := by
    simp only [monthStart]
    omega
  have hm : 0 ≤ (5 * r + 2) / 153 ∧ (5 * r + 2) / 153 ≤ 11 := by
    have hlength := yearLength_cases y
    omega
  have hday : (dateOf y r).day = r - monthStart ((5 * r + 2) / 153) + 1 := rfl
  have hmonth : (dateOf y r).marchMonth = (5 * r + 2) / 153 ∧ 1 ≤ (dateOf y r).month ∧ (dateOf y r).month ≤ 12 := by
    simp only [CivilDate.marchMonth, dateOf]
    split <;> omega
  have hyear : (dateOf y r).marchYear = y := by
    simp only [CivilDate.marchYear, dateOf]
    split <;> omega
  obtain ⟨-, -, hnext, hlast⟩ := monthStart_succ (dateOf y r) hmonth.2
  rw [hmonth.1] at hnext hlast
  rw [hyear] at hlast
  refine ⟨⟨hmonth.2.1, hmonth.2.2, by omega, ?_⟩, hyear, by rw [hmonth.1]; omega⟩
  rcases le_or_gt ((5 * r + 2) / 153) 10 with h | h
  · have := hnext h
    omega
  · have heleven : (5 * r + 2) / 153 = 11 := by omega
    have := hlast heleven
    rw [heleven] at hday
    omega

/-- **Every day has a date.** -/
theorem dayOfCivil_civilOfDay (day : Int) : (civilOfDay day).OnCalendar ∧ dayOfCivil (civilOfDay day) = day := by
  obtain ⟨y, hstart, hstop⟩ := exists_year (day + epochShift)
  have hdate := civilOfDay_eq hstart hstop
  rw [yearStart_succ] at hstop
  obtain ⟨hvalid, hyear, hday⟩ := dateOf_onCalendar (y := y) (r := day + epochShift - yearStart y) (by omega)
  rw [show day + epochShift - epochShift = day by omega] at hdate
  rw [hdate, dayOfCivil_eq, hyear]
  exact ⟨hvalid, by omega⟩

/-- **Later dates are later days.** -/
theorem dayOfCivil_lt (hd : d.OnCalendar) (he : e.OnCalendar) (h : d.Before e) : dayOfCivil d < dayOfCivil e := by
  have horder : d.marchYear < e.marchYear ∨ d.marchYear = e.marchYear ∧
      (d.marchMonth < e.marchMonth ∨ d.marchMonth = e.marchMonth ∧ d.day < e.day) := by
    have := hd.month_pos
    have := hd.month_le
    have := he.month_pos
    have := he.month_le
    simp only [CivilDate.Before, CivilDate.marchYear, CivilDate.marchMonth] at h ⊢
    split <;> split <;> omega
  rcases horder with hyear | ⟨hyear, hmonth | ⟨hmonth, hday⟩⟩
  · have hnext := yearStart_le (show d.marchYear + 1 ≤ e.marchYear from hyear)
    have hd' := (dayOfYear_mem hd).2
    have he' := (dayOfYear_mem he).1
    omega
  · obtain ⟨hm, -, hnext, -⟩ := monthStart_succ d ⟨hd.month_pos, hd.month_le⟩
    obtain ⟨-, hm', -⟩ := monthStart_succ e ⟨he.month_pos, he.month_le⟩
    have hlater : monthStart (d.marchMonth + 1) ≤ monthStart e.marchMonth := by
      simp only [monthStart]
      omega
    have hday := hd.day_le
    have hday' := he.day_pos
    have hlast := hnext (by omega)
    rw [dayOfCivil_eq, dayOfCivil_eq, hyear]
    omega
  · rw [dayOfCivil_eq, dayOfCivil_eq, hyear, hmonth]
    omega

/-- Dates are in the order of their days. -/
theorem before_iff_lt (hd : d.OnCalendar) (he : e.OnCalendar) : d.Before e ↔ dayOfCivil d < dayOfCivil e := by
  refine ⟨dayOfCivil_lt hd he, fun h => ?_⟩
  rcases d.before_trichotomy e with hbefore | rfl | hbefore
  · exact hbefore
  · exact absurd h (lt_irrefl _)
  · exact absurd (dayOfCivil_lt he hd hbefore) h.asymm

/-- The date of a day is the only one that has it. -/
theorem civilOfDay_dayOfCivil (hd : d.OnCalendar) : civilOfDay (dayOfCivil d) = d := by
  obtain ⟨hvalid, hday⟩ := dayOfCivil_civilOfDay (dayOfCivil d)
  rcases (civilOfDay (dayOfCivil d)).before_trichotomy d with h | h | h
  · exact absurd (dayOfCivil_lt hvalid hd h) (by omega)
  · exact h
  · exact absurd (dayOfCivil_lt hd hvalid h) (by omega)

/-! ## 4. Results of steps

The formulas are written out as trees, so that everything that is computed on the way can be spoken of. -/

/-- Arithmetic as it is written: numbers, and what is computed of them. -/
inductive Steps where
  | given (x : Int)
  | add (a b : Steps)
  | sub (a b : Steps)
  | mul (a b : Steps)
  | div (a : Steps) (n : Nat)
  | mod (a : Steps) (n : Nat)
  | choose (p : Prop) [Decidable p] (a b : Steps)

namespace Steps

def value : Steps → Int
  | given x => x
  | add a b => a.value + b.value
  | sub a b => a.value - b.value
  | mul a b => a.value * b.value
  | div a n => a.value / n
  | mod a n => a.value % n
  | choose p a b => if p then a.value else b.value

/-- A condition holds of every number on the way. -/
def All (p : Int → Prop) : Steps → Prop
  | given x => p x
  | add a b => p (add a b).value ∧ a.All p ∧ b.All p
  | sub a b => p (sub a b).value ∧ a.All p ∧ b.All p
  | mul a b => p (mul a b).value ∧ a.All p ∧ b.All p
  | div a n => p (div a n).value ∧ a.All p
  | mod a n => p (mod a n).value ∧ a.All p
  | choose q a b => if q then a.All p else b.All p

/-- The numbers of a signed word of 64 bits. -/
def InWord (x : Int) : Prop :=
  -2 ^ 63 ≤ x ∧ x < 2 ^ 63

/-- Everything on the way is in a word, and the result is no larger than a bound. -/
structure Fits (s : Steps) (bound : Nat) : Prop where
  inWords : s.All InWord
  value_le : s.value.natAbs ≤ bound

theorem inWord_of_le {x : Int} {k : Nat} (h : x.natAbs ≤ k) (hk : k < 2 ^ 63) : InWord x := by
  rw [InWord]
  omega

variable {a b : Steps} {i j k n : Nat}

theorem fits_given {x : Int} (h : x.natAbs ≤ k) (hk : k < 2 ^ 63 := by decide) : (given x).Fits k :=
  ⟨inWord_of_le h hk, h⟩

theorem Fits.add (ha : a.Fits i) (hb : b.Fits j) (h : i + j ≤ k := by decide) (hk : k < 2 ^ 63 := by decide) :
    (add a b).Fits k := by
  have hvalue := (Int.natAbs_add_le a.value b.value).trans ((Nat.add_le_add ha.value_le hb.value_le).trans h)
  exact ⟨⟨inWord_of_le hvalue hk, ha.inWords, hb.inWords⟩, hvalue⟩

theorem Fits.sub (ha : a.Fits i) (hb : b.Fits j) (h : i + j ≤ k := by decide) (hk : k < 2 ^ 63 := by decide) :
    (sub a b).Fits k := by
  have hvalue := (Int.natAbs_sub_le a.value b.value).trans ((Nat.add_le_add ha.value_le hb.value_le).trans h)
  exact ⟨⟨inWord_of_le hvalue hk, ha.inWords, hb.inWords⟩, hvalue⟩

theorem Fits.mul (ha : a.Fits i) (hb : b.Fits j) (h : i * j ≤ k := by decide) (hk : k < 2 ^ 63 := by decide) :
    (mul a b).Fits k := by
  have hvalue : (a.value * b.value).natAbs ≤ k := by
    rw [Int.natAbs_mul]
    exact (Nat.mul_le_mul ha.value_le hb.value_le).trans h
  exact ⟨⟨inWord_of_le hvalue hk, ha.inWords, hb.inWords⟩, hvalue⟩

theorem Fits.div (ha : a.Fits i) (h : i / n + 1 ≤ k := by decide) (hk : k < 2 ^ 63 := by decide) :
    (div a n).Fits k := by
  have hvalue : (a.value / n).natAbs ≤ k := by
    rw [Int.natAbs_ediv, Int.natAbs_natCast]
    exact (Nat.add_le_add (Nat.div_le_div_right ha.value_le) (by split <;> decide)).trans h
  exact ⟨⟨inWord_of_le hvalue hk, ha.inWords⟩, hvalue⟩

theorem Fits.mod (ha : a.Fits i) (hn : 0 < n := by decide) (hk : n < 2 ^ 63 := by decide) : (mod a n).Fits n := by
  have hlow := Int.emod_nonneg a.value (Int.natCast_pos.mpr hn).ne'
  have hhigh := Int.emod_lt_of_pos a.value (Int.natCast_pos.mpr hn)
  have hvalue : (a.value % n).natAbs ≤ n := by omega
  exact ⟨⟨inWord_of_le hvalue hk, ha.inWords⟩, hvalue⟩

theorem Fits.choose {p : Prop} [Decidable p] (ha : a.Fits i) (hb : b.Fits i) : (choose p a b).Fits i := by
  by_cases h : p
  · exact ⟨by simpa [All, h] using ha.inWords, by simpa [value, h] using ha.value_le⟩
  · exact ⟨by simpa [All, h] using hb.inWords, by simpa [value, h] using hb.value_le⟩

end Steps

open Steps

/-- The steps from a date to its day. -/
def daySteps (d : CivilDate) : Steps :=
  let y := choose (d.month ≤ 2) (sub (given d.year) (given 1)) (given d.year)
  let era := div y 400
  let yearOfEra := sub y (mul era (given 400))
  let monthFromMarch := mod (add (given d.month) (given 9)) 12
  let dayOfYear := sub (add (div (add (mul (given 153) monthFromMarch) (given 2)) 5) (given d.day)) (given 1)
  let dayOfEra := add (sub (add (mul yearOfEra (given 365)) (div yearOfEra 4)) (div yearOfEra 100)) dayOfYear
  sub (add (mul era (given 146097)) dayOfEra) (given 719468)

/-- The steps from a day to the year, the month and the day of its date. -/
def dateSteps (day : Int) : Steps × Steps × Steps :=
  let z := add (given day) (given 719468)
  let era := div z 146097
  let dayOfEra := sub z (mul era (given 146097))
  let yearOfEra := div (sub (add (sub dayOfEra (div dayOfEra 1460)) (div dayOfEra 36524)) (div dayOfEra 146096)) 365
  let dayOfYear :=
    sub dayOfEra (sub (add (mul (given 365) yearOfEra) (div yearOfEra 4)) (div yearOfEra 100))
  let monthFromMarch := div (add (mul (given 5) dayOfYear) (given 2)) 153
  let dayOfMonth := add (sub dayOfYear (div (add (mul (given 153) monthFromMarch) (given 2)) 5)) (given 1)
  let month := choose (monthFromMarch.value < 10) (add monthFromMarch (given 3)) (sub monthFromMarch (given 9))
  let year := add (add yearOfEra (mul era (given 400))) (choose (month.value ≤ 2) (given 1) (given 0))
  (year, month, dayOfMonth)

theorem value_daySteps (d : CivilDate) : (daySteps d).value = dayOfCivil d :=
  rfl

theorem value_dateSteps (day : Int) :
    civilOfDay day = ⟨(dateSteps day).1.value, (dateSteps day).2.1.value, (dateSteps day).2.2.value⟩ :=
  rfl

/-- The day of a date that scripts can ask for is computed within words. -/
theorem daySteps_fit (hd : d.OnCalendar) (hyear : d.year.natAbs ≤ 400000) : (daySteps d).All InWord := by
  have hmonth : d.month.natAbs ≤ 12 := by
    have := hd.month_pos
    have := hd.month_le
    omega
  have hday : d.day.natAbs ≤ 31 := by
    have hle : daysIn d.year d.month ≤ 31 := by
      rw [daysIn]
      split_ifs <;> decide
    have := hd.day_pos
    have := hd.day_le
    omega
  have hlit (n : Nat) (hn : n < 2 ^ 63 := by decide) : (given n).Fits n := fits_given le_rfl hn
  have hy : (choose (d.month ≤ 2) (sub (given d.year) (given 1)) (given d.year)).Fits 400001 :=
    .choose (.sub (fits_given hyear) (hlit 1)) (fits_given (hyear.trans (by decide)))
  have hera := hy.div (n := 400) (k := 1002)
  have hyearOfEra := hy.sub (hera.mul (hlit 400) (k := 400800)) (k := 800801)
  have hmonthFromMarch := ((fits_given hmonth).add (hlit 9) (k := 21)).mod (n := 12)
  have hmonthStart := (((hlit 153).mul hmonthFromMarch (k := 1836)).add (hlit 2) (k := 1838)).div (n := 5) (k := 368)
  have hdayOfYear := (hmonthStart.add (fits_given hday) (k := 399)).sub (hlit 1) (k := 400)
  have hdayOfYears := ((hyearOfEra.mul (hlit 365) (k := 292292365)).add (hyearOfEra.div (n := 4) (k := 200201))
    (k := 292492566)).sub (hyearOfEra.div (n := 100) (k := 8009)) (k := 292500575)
  have hdayOfEra := hdayOfYears.add hdayOfYear (k := 292500975)
  exact (((hera.mul (hlit 146097) (k := 146389194)).add hdayOfEra (k := 438890169)).sub (hlit 719468)
    (k := 439609637)).inWords

/-- And such days are near enough that their dates are computed within words, too. -/
theorem dateSteps_fit {day : Int} (hday : day.natAbs ≤ 200000000) :
    (dateSteps day).1.All InWord ∧ (dateSteps day).2.1.All InWord ∧ (dateSteps day).2.2.All InWord := by
  have hlit (n : Nat) (hn : n < 2 ^ 63 := by decide) : (given n).Fits n := fits_given le_rfl hn
  have hz := (fits_given hday).add (hlit 719468) (k := 200719468)
  have hera := hz.div (n := 146097) (k := 1374)
  have hdayOfEra := hz.sub (hera.mul (hlit 146097) (k := 200737278)) (k := 401456746)
  have hyearOfEra := (((hdayOfEra.sub (hdayOfEra.div (n := 1460) (k := 274971)) (k := 401731717)).add
    (hdayOfEra.div (n := 36524) (k := 10992)) (k := 401742709)).sub (hdayOfEra.div (n := 146096) (k := 2748))
    (k := 401745457)).div (n := 365) (k := 1100673)
  have hdayOfYears := (((hlit 365).mul hyearOfEra (k := 401745645)).add (hyearOfEra.div (n := 4) (k := 275169))
    (k := 402020814)).sub (hyearOfEra.div (n := 100) (k := 11007)) (k := 402031821)
  have hdayOfYear := hdayOfEra.sub hdayOfYears (k := 803488567)
  have hmonthFromMarch := (((hlit 5).mul hdayOfYear (k := 4017442835)).add (hlit 2) (k := 4017442837)).div
    (n := 153) (k := 26257797)
  have hmonthStart := (((hlit 153).mul hmonthFromMarch (k := 4017442941)).add (hlit 2) (k := 4017442943)).div
    (n := 5) (k := 803488589)
  refine ⟨?_, (Fits.choose (hmonthFromMarch.add (hlit 3) (k := 26257806)) (hmonthFromMarch.sub (hlit 9))).inWords,
    ((hdayOfYear.sub hmonthStart (k := 1606977156)).add (hlit 1) (k := 1606977157)).inWords⟩
  exact ((hyearOfEra.add (hera.mul (hlit 400) (k := 549600)) (k := 1650273)).add
    (Fits.choose (hlit 1) (fits_given (by decide))) (k := 1650274)).inWords

theorem natAbs_dayOfCivil_le (hd : d.OnCalendar) (hyear : d.year.natAbs ≤ 400000) :
    (dayOfCivil d).natAbs ≤ 200000000 := by
  have hmarch : -400001 ≤ d.marchYear ∧ d.marchYear ≤ 400000 := by
    rw [CivilDate.marchYear]
    split <;> omega
  have hmem := dayOfYear_mem hd
  have hfirst := yearStart_le (show -400001 ≤ d.marchYear by omega)
  have hlast := yearStart_le (show d.marchYear + 1 ≤ 400001 by omega)
  have hends : yearStart (-400001) = -146097366 ∧ yearStart 400001 = 146097365 := by decide
  simp only [epochShift] at hmem
  omega

/-! ## 5. The calendar -/

/-- **Calendar arithmetic.** The conversions between days and dates undo each other, on all days and on all dates of the
Gregorian calendar; later dates are later days, and dates with none between them are one day apart. For the years that
scripts can ask for, everything that is computed on the way, and on the way back, fits in a word. -/
theorem calendar_exact :
    (∀ day, (civilOfDay day).OnCalendar ∧ dayOfCivil (civilOfDay day) = day) ∧
      (∀ d : CivilDate, d.OnCalendar → civilOfDay (dayOfCivil d) = d) ∧
      (∀ d e : CivilDate, d.OnCalendar → e.OnCalendar → d.Before e → dayOfCivil d < dayOfCivil e) ∧
      (∀ d e : CivilDate, d.OnCalendar → e.OnCalendar → d.Before e →
        (∀ c : CivilDate, c.OnCalendar → d.Before c → ¬ c.Before e) → dayOfCivil e = dayOfCivil d + 1) ∧
      ∀ d : CivilDate, d.OnCalendar → d.year.natAbs ≤ 400000 →
        ((daySteps d).value = dayOfCivil d ∧ (daySteps d).All InWord) ∧
          (∀ s ∈ [(dateSteps (dayOfCivil d)).1, (dateSteps (dayOfCivil d)).2.1, (dateSteps (dayOfCivil d)).2.2],
            s.All InWord) ∧
          d = ⟨(dateSteps (dayOfCivil d)).1.value, (dateSteps (dayOfCivil d)).2.1.value,
            (dateSteps (dayOfCivil d)).2.2.value⟩ := by
  refine ⟨dayOfCivil_civilOfDay, fun d => civilOfDay_dayOfCivil, fun d e => dayOfCivil_lt,
    fun d e hd he hbefore hnone => ?_, fun d hd hyear => ⟨⟨value_daySteps d, daySteps_fit hd hyear⟩, ?_, ?_⟩⟩
  · -- the date of the day after `d` is not before `e`
    obtain ⟨hc, hday⟩ := dayOfCivil_civilOfDay (dayOfCivil d + 1)
    have hnext := hnone _ hc ((before_iff_lt hd hc).mpr (by omega))
    have hlt := dayOfCivil_lt hd he hbefore
    rw [before_iff_lt hc he, hday] at hnext
    omega
  · obtain ⟨hyears, hmonths, hdays⟩ := dateSteps_fit (natAbs_dayOfCivil_le hd hyear)
    simp [hyears, hmonths, hdays]
  · rw [← value_dateSteps, civilOfDay_dayOfCivil hd]

/-- The end of February in a year that scripts can ask for, of a century that has no leap year. -/
theorem calendar_exact_february :
    let d : CivilDate := ⟨-399900, 2, 28⟩
    let e : CivilDate := ⟨-399900, 3, 1⟩
    civilOfDay (dayOfCivil d) = d ∧ dayOfCivil e = dayOfCivil d + 1 ∧ (daySteps d).value = dayOfCivil d := by
  intro d e
  have hd : d.OnCalendar := ⟨by decide, by decide, by decide, by decide⟩
  have he : e.OnCalendar := ⟨by decide, by decide, by decide, by decide⟩
  obtain ⟨-, hback, hlt, hnext, hfit⟩ := calendar_exact
  have hbefore : d.Before e := .inr ⟨rfl, .inl (by decide)⟩
  have hnone : ∀ c : CivilDate, c.OnCalendar → d.Before c → ¬ c.Before e := by
    intro c hc hdc hce
    have hpos := hc.day_pos
    have hle := hc.day_le
    simp only [CivilDate.Before, d, e] at hdc hce
    have hmonth : c.month = 2 := by omega
    have hyear : c.year = -399900 := by omega
    have hlength : daysIn (-399900) 2 = 28 := by decide
    rw [hyear, hmonth, hlength] at hle
    omega
  exact ⟨hback d hd, hnext d e hd he hbefore hnone, (hfit d hd (by decide)).1.1⟩

end GuestScript.Time
