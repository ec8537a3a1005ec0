import GuestScript.Regex.Compile

/-!
# The patterns of scripts

Scripts write some things differently: digits and word characters are ASCII, there are a few more escapes, and
names of groups need no letter. `standardForm` writes such a pattern in the syntax that is compiled here;
`Regex.make` puts together what a script wrote and its program.
-/

namespace GuestScript.Regex

/-! ## 1. Patterns -/

/-- The standard form of an escape, given the characters after the backslash and whether it stands in a
class; also how many of those characters it takes. -/
def standardEscape (inClass : Bool) (c : Char) (rest : List Char) : String × Nat :=
  let followedBy (p : Char → Bool) : Bool := rest.head?.any p
  let control : Nat := (rest.head?.map fun d => d.toNat % 32).getD 0
  if c = 'd' then (if inClass then "0-9" else "[0-9]", 1)
  else if c = 'D' && !inClass then ("[^0-9]", 1)
  else if c = 'w' then (if inClass then "0-9A-Za-z_" else "[0-9A-Za-z_]", 1)
  else if c = 'W' && !inClass then ("[^0-9A-Za-z_]", 1)
  else if c = 'v' then ("\\x0B", 1)
  else if c = '0' && !followedBy Char.isDigit then ("\\x00", 1)
  else if c = 'c' && followedBy Char.isAlpha then
    ("\\x" ++ String.ofList [Nat.digitChar (control / 16), (Nat.digitChar (control % 16)).toUpper], 2)
  else if c = '/' then ("/", 1)
  else (String.ofList ['\\', c], 1)

/-- The standard form of a pattern; the flag says whether a class is open. -/
def standardFrom : Nat → Bool → List Char → List Char
  | 0, _, cs => cs
  | _, _, [] => []
  | fuel + 1, inClass, c :: rest =>
    if c = '[' && !inClass then c :: standardFrom fuel true rest
    else if c = ']' && inClass then c :: standardFrom fuel false rest
    else
      match c, rest with
      | '\\', e :: after =>
        let (text, taken) := standardEscape inClass e after
        text.toList ++ standardFrom fuel inClass (rest.drop taken)
      | '(', '?' :: '<' :: after =>
        if inClass then c :: standardFrom fuel inClass rest
        else if after.head? == some '=' || after.head? == some '!' then
          ['(', '?', '<'] ++ standardFrom fuel inClass after
        else ['(', '?', 'P', '<'] ++ standardFrom fuel inClass after
      | _, _ => c :: standardFrom fuel inClass rest

def standardForm (source : String) : String :=
  String.ofList (standardFrom source.length false source.toList)

/-! ## 2. Flags -/

/-- The letters of the flags that scripts can give. -/
def flagLetters : List Char := "dgimsuvy".toList

/-- Whether flags are letters of that list, none of them twice. -/
def validFlags (flags : List Char) : Bool :=
  flags.all flagLetters.contains && flags.eraseDups.length == flags.length

end GuestScript.Regex

namespace GuestScript.Regex

/-- A regular expression with a source and flags, or the message why there is none. -/
def make (source flags : String) : Except String Regex :=
  let letters := flags.toList
  if validFlags letters then
    let options : Flags :=
      { caseInsensitive := letters.contains 'i'
        multiLine := letters.contains 'm'
        dotMatchesNewLine := letters.contains 's' }
    match compile (standardForm source) options with
    | .ok program => .ok { source, flags, program }
    | .error fault =>
      .error ("Invalid regular expression: /" ++ source ++ "/" ++ flags ++ ": " ++ fault.report)
  else .error ("Invalid flags supplied to RegExp constructor '" ++ flags ++ "'")

/-- Whether a flag was given. -/
def has (r : Regex) (flag : Char) : Bool :=
  r.flags.toList.contains flag

/-- The first match in a subject from a number of units on. -/
def findAt? (r : Regex) (s : Subject) (units : Nat) : Option Match :=
  r.program.findAt? s units

def findAll (r : Regex) (s : Subject) : List Match :=
  r.program.findAll s (s.unitsBefore s.chars.size + 1) 0

/-! ## 3. Replacement -/

/-- The value of a digit. -/
def digit? (c : Char) : Option Nat :=
  if c.isDigit then some (c.toNat - '0'.toNat) else none

/-- The group that one or two digits name, and how many of them do: two if there is such a group. -/
def groupOf? (count : Nat) (digits : List Char) : Option (Nat × Nat) :=
  let one := digits.head?.bind digit?
  let two :=
    match digits with
    | a :: b :: _ =>
      match digit? a, digit? b with
      | some x, some y => some (10 * x + y)
      | _, _ => none
    | _ => none
  let isGroup (n : Nat) : Bool := 1 ≤ n && n ≤ count
  match two.filter isGroup, one.filter isGroup with
  | some n, _ => some (n, 2)
  | none, some n => some (n, 1)
  | none, none => none

def Match.named? (m : Match) (name : String) : Option String :=
  (m.names.findIdx? fun n => n == some name).bind fun i => m.groups[i]?.join

/-- What stands for the characters after a dollar sign, and how many of them are taken. -/
def expandMark (m : Match) (before after : String) (rest : List Char) : Option (String × Nat) :=
  match rest with
  | '$' :: _ => some ("$", 1)
  | '&' :: _ => some (m.text, 1)
  | '\x60' :: _ => some (before, 1)
  | '\x27' :: _ => some (after, 1)
  | '<' :: name =>
    if m.hasNames && name.contains '>' then
      let name := name.takeWhile fun c => c != '>'
      some ((m.named? (String.ofList name)).getD "", name.length + 2)
    else none
  | _ =>
    (groupOf? m.captures.size rest).map fun (n, taken) =>
      ((m.groups[n]?.join).getD "", taken)

/-- Put a match into a replacement text. -/
def expandFrom (m : Match) (before after : String) : Nat → List Char → List Char
  | 0, cs => cs
  | _, [] => []
  | fuel + 1, c :: rest =>
    let mark := if c = '$' then expandMark m before after rest else none
    match mark with
    | some (text, taken) => text.toList ++ expandFrom m before after fuel (rest.drop taken)
    | none => c :: expandFrom m before after fuel rest

/-- A replacement text with what its marks stand for. -/
def expand (template : String) (m : Match) (before after : String) : String :=
  String.ofList (expandFrom m before after template.length template.toList)

end GuestScript.Regex
