import GuestScript.Time.Calendar

/-!
# Times as text

The forms in which scripts see a time. The zone is the universal one throughout.
-/

namespace GuestScript.Time

/-- The short names of the days of the week, from Sunday on. -/
def weekdayNames : List String :=
  ["Sun", "Mon", "Tue", "Wed", "Thu", "Fri", "Sat"]

def monthNames : List String :=
  ["Jan", "Feb", "Mar", "Apr", "May", "Jun", "Jul", "Aug", "Sep", "Oct", "Nov", "Dec"]

/-- A natural number in at least `width` places. -/
def padded (width : Nat) (n : Nat) : String :=
  let digits := toString n
  String.ofList (List.replicate (width - digits.length) '0') ++ digits

/-- A part in two places. -/
def two (n : Int) : String :=
  padded 2 n.toNat

/-- A year in four places, or with a sign in six. -/
def yearText (year : Int) : String :=
  if 0 ≤ year && year ≤ 9999 then padded 4 year.toNat
  else (if year < 0 then "-" else "+") ++ padded 6 year.natAbs

/-- A year in four places, with a sign in six only when it is negative. -/
def plainYearText (year : Int) : String :=
  if year < 0 then yearText year else padded 4 year.toNat

namespace Parts

/-- The name of the day of the week. -/
def weekdayName (p : Parts) : String :=
  weekdayNames.getD p.weekday.toNat ""

def monthName (p : Parts) : String :=
  monthNames.getD (p.date.month - 1).toNat ""

/-- The time of day. -/
def clock (p : Parts) : String :=
  two p.hours ++ ":" ++ two p.minutes ++ ":" ++ two p.seconds

/-- The form of the standard for dates, `2000-01-31T12:00:00.000Z`. -/
def iso (p : Parts) : String :=
  yearText p.date.year ++ "-" ++ two p.date.month ++ "-" ++ two p.date.day ++ "T" ++ p.clock ++ "."
    ++ padded 3 p.milliseconds.toNat ++ "Z"

/-- The date in words, `Mon Jan 31 2000`. -/
def dateWords (p : Parts) : String :=
  p.weekdayName ++ " " ++ p.monthName ++ " " ++ two p.date.day ++ " " ++ plainYearText p.date.year

/-- The time of day with its zone. -/
def clockWords (p : Parts) : String :=
  p.clock ++ " GMT+0000"

def words (p : Parts) : String :=
  p.dateWords ++ " " ++ p.clockWords

/-- The form of mail headers, `Mon, 31 Jan 2000 12:00:00 GMT`; a year past four places has no sign. -/
def mail (p : Parts) : String :=
  let year := if p.date.year > 9999 then padded 6 p.date.year.toNat else yearText p.date.year
  p.weekdayName ++ ", " ++ two p.date.day ++ " " ++ p.monthName ++ " " ++ year ++ " " ++ p.clock
    ++ " GMT"

/-- The date in numbers, month first. -/
def dateNumbers (p : Parts) : String :=
  toString p.date.month ++ "/" ++ toString p.date.day ++ "/" ++ toString p.date.year

/-- The time of day on a clock of twelve hours. -/
def halfDayClock (p : Parts) : String :=
  let hour := if p.hours % 12 = 0 then 12 else p.hours % 12
  toString hour ++ ":" ++ two p.minutes ++ ":" ++ two p.seconds
    ++ (if p.hours < 12 then " AM" else " PM")

def numbers (p : Parts) : String :=
  p.dateNumbers ++ ", " ++ p.halfDayClock

end Parts

end GuestScript.Time
