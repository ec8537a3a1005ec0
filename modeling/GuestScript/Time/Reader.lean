import GuestScript.Text.Blank
import GuestScript.Text.Index
import GuestScript.Time.Writer

/-!
# Reading times

A form of a time is a list of items, each of which takes something off the front of the text and notes what
it found. A text is a time when one of the known forms takes all of it and the notes agree: the date is on the
calendar, and the day of the week, if it is given, is the day of that date.

* `read` tries the forms in order; the first one that fits decides.
-/

namespace GuestScript.Time

/-! ## 1. What was found -/

/-- What was found in a text. -/
structure Found where
  year : Option Int := none
  month : Nat := 1
  day : Nat := 1
  hours : Nat := 0
  minutes : Nat := 0
  seconds : Nat := 0
  nanoseconds : Nat := 0
  weekday : Option Nat := none
  /-- Seconds that the zone is ahead. -/
  offset : Option Int := none

/-- The text that is left and what was found before it. -/
structure Scan where
  rest : List Char
  found : Found := {}

/-- The years that a read date can have. -/
def yearInRange (year : Int) : Bool :=
  -262143 ≤ year && year ≤ 262142

namespace Found

/-- The day that was found, if it is on the calendar. -/
def day? (f : Found) : Option Int :=
  f.year.bind fun year =>
    let date : CivilDate := ⟨year, f.month, f.day⟩
    let day := dayOfCivil date
    let agrees :=
      match f.weekday with
      | some w => weekdayOf day = w
      | none => true
    if yearInRange year && date.isValid && agrees then some day else none

/-- The milliseconds of the local time that was found. A sixtieth second counts past the minute. -/
def localTime? (f : Found) : Option Int :=
  f.day?.map fun day =>
    (((day * 24 + f.hours) * 60 + f.minutes) * 60 + f.seconds) * 1000 + f.nanoseconds / 1000000

/-- The milliseconds of the universal time that was found, which needs a zone less than a day ahead or
behind. -/
def universalTime? (f : Found) : Option Int :=
  match f.offset, f.localTime? with
  | some offset, some t =>
    let universal := t - offset * 1000
    let inRange := yearInRange (civilOfDay (universal / 86400000)).year
    if -86400 < offset && offset < 86400 && inRange then some universal else none
  | _, _ => none

end Found

/-! ## 2. Items -/

/-- One item of a form. -/
inductive Item where
  | literal (text : String)
  /-- Any number of blanks. -/
  | blanks
  | year
  | month
  | day
  | hours
  | minutes
  | seconds
  /-- A point and digits, or nothing. -/
  | fraction
  | monthName
  | longMonthName
  | weekdayName
  /-- A zone as hours and minutes ahead. A lenient one may be a letter, and the minutes may be left out. -/
  | zone (lenient : Bool)

/-- A text without the blanks at its front. -/
def skipBlanks (cs : List Char) : List Char :=
  Text.dropFront Text.isBlank cs

/-- A number of at least one digit and at most `most` ones. -/
def number? (least : Nat) (most : Option Nat) (cs : List Char) : Option (Nat × List Char) :=
  let digits := cs.takeWhile Char.isDigit
  let taken :=
    match most with
    | some n => digits.take n
    | none => digits
  if taken.length < least || taken.isEmpty then none
  else (Text.digits? taken).map fun n => (n, cs.drop taken.length)

/-- A number that has to be in a range. -/
def numberWithin? (least most low high : Nat) (cs : List Char) : Option (Nat × List Char) :=
  (number? least (some most) cs).filter fun r => low ≤ r.1 && r.1 ≤ high

/-- A year: up to four digits, or a sign and any number of them. -/
def readYear? (cs : List Char) : Option (Int × List Char) :=
  match cs with
  | '-' :: rest => (number? 1 none rest).map fun r => (-(r.1 : Int), r.2)
  | '+' :: rest => (number? 1 none rest).map fun r => ((r.1 : Int), r.2)
  | _ => (number? 1 (some 4) cs).map fun r => ((r.1 : Int), r.2)

/-- The digits after a point as nanoseconds; digits past the ninth are passed over. -/
def readFraction? (cs : List Char) : Option (Nat × List Char) :=
  let digits := cs.takeWhile Char.isDigit
  let kept := digits.take 9
  if digits.isEmpty then none
  else (Text.digits? kept).map fun n => (n * Nat.pow 10 (9 - kept.length), cs.drop digits.length)

/-- The place of the name at the front of a text, in either case. -/
def readName? (names : List String) (cs : List Char) : Option (Nat × List Char) :=
  let front := String.ofList ((cs.take 3).map Char.toLower)
  (names.findIdx? fun name => String.ofList (name.toList.map Char.toLower) == front).map fun i =>
    (i, cs.drop 3)

/-- What the long names of the months have after the short ones. -/
def longMonthEndings : List String :=
  ["uary", "ruary", "ch", "il", "", "e", "y", "ust", "tember", "ober", "ember", "ember"]

/-- The place of a month's short or long name. -/
def readLongMonth? (cs : List Char) : Option (Nat × List Char) :=
  (readName? monthNames cs).map fun (i, rest) =>
    let ending := (longMonthEndings.getD i "").toList
    if (rest.take ending.length).map Char.toLower = ending then (i, rest.drop ending.length)
    else (i, rest)

/-- How a zone is written. -/
structure ZoneStyle where
  /-- The text between hours and minutes, `none` when it does not fit. -/
  divider : List Char → Option (List Char)
  letter : Bool
  minutesOptional : Bool
  /-- Whether the minus sign of mathematics counts as a minus. -/
  longMinus : Bool

def twoDigits? : List Char → Option (Nat × List Char)
  | a :: b :: rest =>
    if a.isDigit && b.isDigit then
      some (10 * (a.toNat - '0'.toNat) + (b.toNat - '0'.toNat), rest)
    else none
  | _ => none

def zoneMinutes? (style : ZoneStyle) (cs : List Char) : Option (Nat × List Char) :=
  match cs with
  | [] => if style.minutesOptional then some (0, []) else none
  | _ => (twoDigits? cs).filter fun r => r.1 < 60

/-- A sign of a zone: whether it is a minus, and what follows it. -/
def zoneSign? (style : ZoneStyle) : List Char → Option (Bool × List Char)
  | c :: rest =>
    if c = '+' then some (false, rest)
    else if c = '-' || (style.longMinus && c = '−') then some (true, rest)
    else none
  | [] => none

/-- A zone as seconds ahead. -/
def readZone? (style : ZoneStyle) (cs : List Char) : Option (Int × List Char) :=
  match cs, style.letter with
  | 'Z' :: rest, true | 'z' :: rest, true => some (0, rest)
  | _, _ => do
    let (negative, cs) ← zoneSign? style cs
    let (hours, cs) ← twoDigits? cs
    let cs ← style.divider cs
    let (minutes, cs) ← zoneMinutes? style cs
    let seconds : Int := (hours * 3600 + minutes * 60 : Nat)
    pure (if negative then -seconds else seconds, cs)

/-- Colons and blanks between the hours and the minutes of a zone. -/
def looseDivider (cs : List Char) : Option (List Char) :=
  some (cs.dropWhile fun c => c = ':' || Text.isBlank c)

/-- One character off the front of a text. -/
def readChar? (c : Char) : List Char → Option (List Char)
  | d :: rest => if d = c then some rest else none
  | [] => none

namespace Scan

/-- Go on with the result of an item. -/
def step {α : Type} (result : Option (α × List Char)) (note : α → Found) : Option Scan :=
  result.map fun (a, rest) => { rest, found := note a }

/-- Take one item off the front. Numbers may have blanks before them. -/
def take? (s : Scan) (item : Item) : Option Scan :=
  let f := s.found
  let cs := skipBlanks s.rest
  match item with
  | .literal text =>
    if text.toList.isPrefixOf s.rest then some { s with rest := s.rest.drop text.length } else none
  | .blanks => some { s with rest := cs }
  | .year => step (readYear? cs) fun n => { f with year := some n }
  | .month => step (numberWithin? 1 2 1 12 cs) fun n => { f with month := n }
  | .day => step (numberWithin? 1 2 1 31 cs) fun n => { f with day := n }
  | .hours => step (numberWithin? 1 2 0 23 cs) fun n => { f with hours := n }
  | .minutes => step (numberWithin? 1 2 0 59 cs) fun n => { f with minutes := n }
  | .seconds => step (numberWithin? 1 2 0 60 cs) fun n => { f with seconds := n }
  | .fraction =>
    match s.rest with
    | '.' :: rest => step (readFraction? rest) fun n => { f with nanoseconds := n }
    | _ => some s
  | .monthName => step (readName? monthNames s.rest) fun i => { f with month := i + 1 }
  | .longMonthName => step (readLongMonth? s.rest) fun i => { f with month := i + 1 }
  | .weekdayName => step (readName? weekdayNames s.rest) fun i => { f with weekday := some i }
  | .zone lenient =>
    step (readZone? ⟨looseDivider, lenient, lenient, true⟩ cs) fun n => { f with offset := some n }

end Scan

/-- Read a whole text in a form. -/
def readForm? (form : List Item) (cs : List Char) : Option Found :=
  ((form.foldlM Scan.take? { rest := cs }).filter fun s => s.rest.isEmpty).map Scan.found

/-! ## 3. The strict forms -/

/-- The form of the standard for dates on the internet: all parts in full, with a zone. -/
def readInternet? (cs : List Char) : Option Found := do
  let (year, cs) ← number? 4 (some 4) cs
  let cs ← readChar? '-' cs
  let (month, cs) ← numberWithin? 2 2 1 12 cs
  let cs ← readChar? '-' cs
  let (day, cs) ← numberWithin? 2 2 1 31 cs
  let cs ← readChar? 't' cs <|> readChar? 'T' cs <|> readChar? ' ' cs
  let (hours, cs) ← numberWithin? 2 2 0 23 cs
  let cs ← readChar? ':' cs
  let (minutes, cs) ← numberWithin? 2 2 0 59 cs
  let cs ← readChar? ':' cs
  let (seconds, cs) ← numberWithin? 2 2 0 60 cs
  let (nanoseconds, cs) ←
    match cs with
    | '.' :: rest => readFraction? rest
    | _ => some (0, cs)
  let (offset, cs) ← readZone? ⟨readChar? ':', true, false, true⟩ cs
  if cs.isEmpty then
    some { year := some year, month, day, hours, minutes, seconds, nanoseconds, offset := some offset }
  else none

/-- A text without the blanks at its front, of which there has to be one. -/
def blanks? (cs : List Char) : Option (List Char) :=
  match cs with
  | c :: rest => if Text.isBlank c then some (skipBlanks rest) else none
  | [] => none

/-- The zone names of mail headers, with the hours that they are ahead. -/
def mailZones : List (String × Int) :=
  [("gmt", 0), ("ut", 0), ("z", 0), ("edt", -4), ("est", -5), ("cdt", -5), ("cst", -6), ("mdt", -6),
    ("mst", -7), ("pdt", -7), ("pst", -8)]

/-- The zone of a mail header. Single letters other than `J` count as the universal zone. -/
def readMailZone? (cs : List Char) : Option (Int × List Char) :=
  let letters := (cs.takeWhile Char.isAlpha).map Char.toLower
  if letters.isEmpty then readZone? ⟨some, false, false, false⟩ cs
  else
    let rest := cs.drop letters.length
    match mailZones.lookup (String.ofList letters), letters with
    | some hours, _ => some (hours * 3600, rest)
    | none, [c] => if c = 'j' then none else some (0, rest)
    | none, _ => none

/-- The text after the parenthesis that closes a comment, which may hold others; a backslash hides the
character after it. -/
def closeComment? : Nat → List Char → Option (List Char)
  | _, [] => none
  | depth, '\\' :: _ :: rest => closeComment? depth rest
  | depth, '(' :: rest => closeComment? (depth + 1) rest
  | 0, ')' :: rest => some rest
  | depth + 1, ')' :: rest => closeComment? depth rest
  | depth, _ :: rest => closeComment? depth rest

/-- Leave out the comments at the front of a text, at most `fuel` of them. -/
def skipComments : Nat → List Char → List Char
  | 0, cs => cs
  | fuel + 1, cs =>
    match skipBlanks cs with
    | '(' :: rest =>
      match closeComment? 0 rest with
      | some rest => skipComments fuel rest
      | none => cs
    | _ => cs

/-- The full year of a mail header, where years may have two or three digits. -/
def fullYear (year length : Nat) : Nat :=
  if length = 2 then (if year ≤ 49 then year + 2000 else year + 1900)
  else if length = 3 then year + 1900
  else year

/-- The day of the week at the front of a mail header, which a comma has to follow. -/
def readMailWeekday? (cs : List Char) : Option (Option Nat × List Char) :=
  match readName? weekdayNames cs with
  | some (i, ',' :: rest) => some (some i, rest)
  | some _ => none
  | none => some (none, cs)

/-- The seconds of a mail header, which may be left out. -/
def readMailSeconds? (cs : List Char) : Option (Nat × List Char) :=
  match readChar? ':' (skipBlanks cs) with
  | some rest => numberWithin? 2 2 0 60 (skipBlanks rest)
  | none => some (0, cs)

/-- The form of mail headers. -/
def readMail? (cs : List Char) : Option Found := do
  let (weekday, cs) ← readMailWeekday? (skipBlanks cs)
  let (day, cs) ← numberWithin? 1 2 1 31 (skipBlanks cs)
  let (month, cs) ← readName? monthNames (← blanks? cs)
  let before ← blanks? cs
  let (year, cs) ← number? 2 none before
  let year := fullYear year (before.length - cs.length)
  let (hours, cs) ← numberWithin? 2 2 0 23 (← blanks? cs)
  let cs ← readChar? ':' (skipBlanks cs)
  let (minutes, cs) ← numberWithin? 2 2 0 59 (skipBlanks cs)
  let (seconds, cs) ← readMailSeconds? cs
  let (offset, cs) ← readMailZone? (← blanks? cs)
  if (skipComments cs.length cs).isEmpty then
    some { year := some year, month := month + 1, day, hours, minutes, seconds, weekday,
           offset := some offset }
  else none

/-! ## 4. All forms -/

/-- A date in numbers, year first. -/
def dateForm : List Item :=
  [.year, .literal "-", .month, .literal "-", .day]

/-- A date and a time of day without seconds. -/
def minuteForm : List Item :=
  dateForm ++ [.literal "T", .hours, .literal ":", .minutes]

/-- A date and a time of day. -/
def secondForm : List Item :=
  minuteForm ++ [.literal ":", .seconds, .fraction]

/-- A date and a time of day in words. -/
def wordsForm : List Item :=
  [.weekdayName, .blanks, .monthName, .blanks, .day, .blanks, .year, .blanks, .hours, .literal ":",
    .minutes, .literal ":", .seconds, .blanks, .literal "GMT", .zone false]

/-- The forms of a date in words or in numbers with slashes. -/
def dayForms : List (List Item) :=
  [[.longMonthName, .blanks, .day, .literal ",", .blanks, .year],
    [.monthName, .blanks, .day, .literal ",", .blanks, .year],
    [.month, .literal "/", .day, .literal "/", .year],
    [.weekdayName, .blanks, .monthName, .blanks, .day, .blanks, .year]]

/-- The year of a text that is only a year: four digits, or a sign and three. -/
def readBareYear? (cs : List Char) : Option Found :=
  let (negative, digits) :=
    match cs with
    | '-' :: rest => (true, rest)
    | '+' :: rest => (false, rest)
    | _ => (false, cs)
  if digits.isEmpty then none
  else
    (Text.digits? digits).map fun n =>
      { year := some (if negative then -(n : Int) else n) }

/-- A date alone: a year, a year and a month, or all of it. -/
def readDate? (s : String) : Option Found :=
  match s.utf8ByteSize with
  | 4 => readBareYear? s.toList
  | 7 => readForm? dateForm (s.toList ++ ['-', '0', '1'])
  | _ => readForm? dateForm s.toList

/-- The part of a text before the blank and parenthesis that start a name of the zone. -/
def beforeZoneName : List Char → List Char
  | ' ' :: '(' :: _ => []
  | c :: rest => c :: beforeZoneName rest
  | [] => []

/-- The text before a closing `Z`. -/
def withoutZulu? (cs : List Char) : Option (List Char) :=
  match cs.reverse with
  | 'Z' :: rest => some rest.reverse
  | _ => none

/-- The time in milliseconds that a text spells. -/
def read? (text : String) : Option Int :=
  let s := Text.trimBy Text.isBlank text
  let cs := s.toList
  let universal (found : Option Found) : Option Int := found.bind Found.universalTime?
  let plain (found : Option Found) : Option Int := found.bind Found.localTime?
  universal (readInternet? cs)
    <|> universal (readForm? (minuteForm ++ [.zone true]) cs)
    <|> universal (readForm? (secondForm ++ [.zone true]) cs)
    <|> plain ((withoutZulu? cs).bind (readForm? minuteForm))
    <|> plain (readDate? s)
    <|> plain (readForm? secondForm cs)
    <|> plain (readForm? minuteForm cs)
    <|> universal (readMail? cs)
    <|> universal (readForm? wordsForm (beforeZoneName cs))
    <|> dayForms.findSome? fun form => plain (readForm? form cs)

/-- The time that a text spells, or not-a-number. -/
def read (text : String) : Float :=
  match read? text with
  | some t => Number.ofInt t
  | none => Number.nan

end GuestScript.Time
