import GuestScript.Number.Arithmetic

/-!
# The calendar

Times are counted in milliseconds from the start of 1970, and days in the proleptic Gregorian calendar. A day
count and a civil date go into each other in exact integers (`dayOfCivil`, `civilOfDay`); the parts of a time
that scripts give are doubles of any size, and become a time only if it is in range (`compose`, `clip`).
-/

namespace GuestScript.Time

/-! ## 1. Days -/

/-- A date of the calendar. Months and days count from one. -/
structure CivilDate where
  year : Int
  month : Int
  day : Int
  deriving DecidableEq

/-- How many days after the start of 1970 a date is. Years are taken to start in March, so that the odd day
is the last one of a year, and are grouped by four hundred. -/
def dayOfCivil (d : CivilDate) : Int :=
  let y := if d.month ≤ 2 then d.year - 1 else d.year
  let era := y / 400
  let yearOfEra := y - era * 400
  let monthFromMarch := (d.month + 9) % 12
  let dayOfYear := (153 * monthFromMarch + 2) / 5 + d.day - 1
  let dayOfEra := yearOfEra * 365 + yearOfEra / 4 - yearOfEra / 100 + dayOfYear
  era * 146097 + dayOfEra - 719468

def civilOfDay (day : Int) : CivilDate :=
  let z := day + 719468
  let era := z / 146097
  let dayOfEra := z - era * 146097
  let yearOfEra := (dayOfEra - dayOfEra / 1460 + dayOfEra / 36524 - dayOfEra / 146096) / 365
  let dayOfYear := dayOfEra - (365 * yearOfEra + yearOfEra / 4 - yearOfEra / 100)
  let monthFromMarch := (5 * dayOfYear + 2) / 153
  let month := if monthFromMarch < 10 then monthFromMarch + 3 else monthFromMarch - 9
  { year := yearOfEra + era * 400 + (if month ≤ 2 then 1 else 0)
    month := month
    day := dayOfYear - (153 * monthFromMarch + 2) / 5 + 1 }

/-- The day of the week, from zero for Sunday. -/
def weekdayOf (day : Int) : Int :=
  (day + 4) % 7

/-- Whether a date is on the calendar. -/
def CivilDate.isValid (d : CivilDate) : Bool :=
  1 ≤ d.month && d.month ≤ 12 && 1 ≤ d.day && civilOfDay (dayOfCivil d) = d

/-! ## 2. Times -/

/-- The milliseconds of a day. -/
def dayLength : Float := 86400000.0

/-- The parts of a time. -/
structure Parts where
  date : CivilDate
  hours : Int
  minutes : Int
  seconds : Int
  milliseconds : Int
  weekday : Int

def Parts.ofTime (t : Float) : Parts :=
  let day := Number.floor (t / dayLength)
  let rest := Number.toSigned64 (t - day * dayLength)
  let dayNumber := Number.toSigned64 day
  { date := civilOfDay dayNumber
    hours := rest / 3600000
    minutes := rest / 60000 % 60
    seconds := rest / 1000 % 60
    milliseconds := rest % 1000
    weekday := weekdayOf dayNumber }

/-- The parts in order: year, month from zero, day, hours, minutes, seconds, milliseconds, day of the week. -/
def Parts.toArray (p : Parts) : Array Float :=
  #[p.date.year, p.date.month - 1, p.date.day, p.hours, p.minutes, p.seconds, p.milliseconds,
    p.weekday].map Number.ofInt

/-- The remainder of a division by twelve, from zero up. -/
def monthOfYear (month : Float) : Float :=
  let r := Number.remainder month 12.0
  if r < 0.0 then r + 12.0 else r

/-- The day of a date whose parts may be out of their ranges; months carry over into years. -/
def makeDay (year month day : Float) : Float :=
  if !(year.isFinite && month.isFinite && day.isFinite) then Number.nan
  else
    let month := Number.truncate month
    let y := Number.truncate year + Number.floor (month / 12.0)
    if y.abs > 400000.0 then Number.nan
    else
      let first := dayOfCivil ⟨Number.toSigned64 y, Number.toSigned64 (monthOfYear month) + 1, 1⟩
      Number.ofInt first + Number.truncate day - 1.0

/-- The milliseconds of a time of day whose parts may be out of their ranges. -/
def makeTime (hours minutes seconds milliseconds : Float) : Float :=
  if !(hours.isFinite && minutes.isFinite && seconds.isFinite && milliseconds.isFinite) then
    Number.nan
  else
    Number.truncate hours * 3600000.0 + Number.truncate minutes * 60000.0
      + Number.truncate seconds * 1000.0 + Number.truncate milliseconds

/-- The time of parts in order, the day of the week left out. -/
def compose (parts : Array Float) : Float :=
  let part (i : Nat) : Float := parts.getD i 0.0
  makeDay (part 0) (part 1) (part 2) * dayLength + makeTime (part 3) (part 4) (part 5) (part 6)

/-- A time in whole milliseconds; not-a-number when it is more than a hundred million days away from the
start of 1970. -/
def clip (t : Float) : Float :=
  if !t.isFinite || t.abs > 8.64e15 then Number.nan else Number.truncate t + 0.0

end GuestScript.Time
