import GuestScript.Text.Units
import GuestScript.Text.Property
import Std.Data.HashSet

/-!
# Programs and matching

A regular expression is compiled to a list of instructions. It is run from a place of the text by depth-first search:
of the ways that a branch offers, the first one that leads to `accept` is taken. A pair of an instruction and a place
that was tried once is not tried again, which keeps the search within the product of both, and cannot lose a match:
whatever could be reached from the pair has failed.

* `Subject` is a text as the search sees it, character by character.
* `Program.find?` is the first match from a place on, in characters; `Regex.findAt?` is the same in units.
-/

namespace GuestScript.Regex

/-! ## 1. Programs -/

/-- A set of characters. -/
abbrev CharSet := Text.Ranges

/-- A condition on a place of the text. -/
inductive Assertion where
  | textStart
  | textEnd
  | lineStart
  | lineEnd
  /-- Line ends that take a carriage return and a line feed together. -/
  | lineStartWide
  | lineEndWide
  | wordBoundary (unicode : Bool)
  | notWordBoundary (unicode : Bool)
  | wordStart (unicode : Bool)
  | wordEnd (unicode : Bool)
  | wordStartHalf (unicode : Bool)
  | wordEndHalf (unicode : Bool)
  deriving DecidableEq

/-- One instruction; the numbers are places in the program. -/
inductive Instruction where
  | take (set : CharSet) (next : Nat)
  /-- Try one way, and then the other one. -/
  | split (first second : Nat)
  | check (assertion : Assertion) (next : Nat)
  /-- Note the place in a slot. Slots `2 * i` and `2 * i + 1` are the ends of group `i`. -/
  | mark (slot : Nat) (next : Nat)
  | accept

instance : Inhabited Instruction := ⟨.accept⟩

/-- A compiled regular expression. -/
structure Program where
  instructions : Array Instruction
  start : Nat
  /-- The names of the groups; group zero is the whole match. -/
  names : Array (Option String)

end GuestScript.Regex

namespace GuestScript

/-- A regular expression as a script wrote it, with its program. -/
structure Regex where
  source : String
  flags : String
  program : Regex.Program

end GuestScript

namespace GuestScript.Regex

/-! ## 2. Subjects -/

/-- A text as an array of characters. -/
structure Subject where
  chars : Array Char
  /-- How many units stand before each character, and before the end. -/
  offsets : Array Nat

namespace Subject

def ofText (s : String) : Subject :=
  let chars := s.toList.toArray
  { chars
    offsets := chars.foldl (fun acc c => acc.push (acc.back?.getD 0 + Text.charSize c)) #[0] }

/-- The number of units before a character. -/
def unitsBefore (s : Subject) (i : Nat) : Nat :=
  s.offsets.getD i 0

/-- The first character, of those from `low` to `high`, with at least `units` units before it. -/
def searchUnits (s : Subject) (units : Nat) : Nat → Nat → Nat → Nat
  | 0, low, _ => low
  | fuel + 1, low, high =>
    if low < high then
      let middle := (low + high) / 2
      if s.unitsBefore middle < units then searchUnits s units fuel (middle + 1) high
      else searchUnits s units fuel low middle
    else low

/-- The first character with at least `units` units before it, or the end. -/
def charAt (s : Subject) (units : Nat) : Nat :=
  s.searchUnits units (s.chars.size + 1) 0 s.chars.size

/-- The text between two places. -/
def slice (s : Subject) (start stop : Nat) : String :=
  String.ofList (s.chars.extract start stop).toList

/-- The character before a place. -/
def before? (s : Subject) (i : Nat) : Option Char :=
  if i = 0 then none else s.chars[i - 1]?

/-- Whether the character before a place belongs to a word. -/
def wordBefore (s : Subject) (unicode : Bool) (i : Nat) : Bool :=
  (s.before? i).any (if unicode then Text.isWord else Text.isAsciiWord)

/-- Whether the character after a place belongs to a word. -/
def wordAfter (s : Subject) (unicode : Bool) (i : Nat) : Bool :=
  (s.chars[i]?).any (if unicode then Text.isWord else Text.isAsciiWord)

end Subject

/-- Whether a condition holds at a place. -/
def Assertion.holds (s : Subject) (i : Nat) : Assertion → Bool
  | textStart => i == 0
  | textEnd => i == s.chars.size
  | lineStart => i == 0 || s.before? i == some '\n'
  | lineEnd => i == s.chars.size || s.chars[i]? == some '\n'
  | lineStartWide =>
    i == 0 || s.before? i == some '\n'
      || (s.before? i == some '\r' && s.chars[i]? != some '\n')
  | lineEndWide =>
    i == s.chars.size || s.chars[i]? == some '\r'
      || (s.chars[i]? == some '\n' && s.before? i != some '\r')
  | wordBoundary u => s.wordBefore u i != s.wordAfter u i
  | notWordBoundary u => s.wordBefore u i == s.wordAfter u i
  | wordStart u => !s.wordBefore u i && s.wordAfter u i
  | wordEnd u => s.wordBefore u i && !s.wordAfter u i
  | wordStartHalf u => !s.wordBefore u i
  | wordEndHalf u => !s.wordAfter u i

/-! ## 3. Search -/

/-- The noted ends of the groups. -/
abbrev Slots := Array (Option Nat)

/-- What is still to be tried: an instruction at a place with the slots noted on the way there. -/
structure Branch where
  instruction : Nat
  place : Nat
  slots : Slots

/-- The state of a search: what was tried, and what is still to be tried, the preferred first. -/
structure Search where
  tried : Std.HashSet Nat
  branches : List Branch

def Program.follow (p : Program) (s : Subject) (b : Branch) : List Branch :=
  match p.instructions.getD b.instruction .accept with
  | .take set next =>
    match s.chars[b.place]? with
    | some c => if set.contains c.toNat then [⟨next, b.place + 1, b.slots⟩] else []
    | none => []
  | .split first second => [⟨first, b.place, b.slots⟩, ⟨second, b.place, b.slots⟩]
  | .check assertion next => if assertion.holds s b.place then [⟨next, b.place, b.slots⟩] else []
  | .mark slot next => [⟨next, b.place, b.slots.setIfInBounds slot (some b.place)⟩]
  | .accept => []

def Program.isAccepting (p : Program) (b : Branch) : Bool :=
  match p.instructions.getD b.instruction .accept with
  | .accept => true
  | _ => false

/-- Try branches until one accepts; the slots of the match, or what was tried without one. -/
def Program.search (p : Program) (s : Subject) : Nat → Search → Except (Std.HashSet Nat) Slots
  | 0, state => .error state.tried
  | fuel + 1, state =>
    match state.branches with
    | [] => .error state.tried
    | b :: rest =>
      let key := b.place * p.instructions.size + b.instruction
      if state.tried.contains key then p.search s fuel { state with branches := rest }
      else if p.isAccepting b then .ok b.slots
      else p.search s fuel ⟨state.tried.insert key, p.follow s b ++ rest⟩

/-- Try to match from each of `count` places on, from one place up. Every pair of an instruction and a place
is expanded once and gives two branches at most. -/
def Program.findFrom (p : Program) (s : Subject) :
    Nat → Nat → Std.HashSet Nat → Option Slots
  | 0, _, _ => none
  | count + 1, start, tried =>
    let fuel := 2 * p.instructions.size * (s.chars.size + 1) + 2
    let slots : Slots := Array.replicate (2 * p.names.size) none
    match p.search s fuel ⟨tried, [⟨p.start, start, slots⟩]⟩ with
    | .ok slots => some slots
    | .error tried => p.findFrom s count (start + 1) tried

/-- The slots of the first match from a character on. -/
def Program.find? (p : Program) (s : Subject) (start : Nat) : Option Slots :=
  p.findFrom s (s.chars.size + 1 - start) start {}

/-! ## 4. Matches -/

/-- A match as scripts see it, with places in units. -/
structure Match where
  start : Nat
  stop : Nat
  /-- The texts of the groups; group zero is the whole match. -/
  groups : Array (Option String)
  names : Array (Option String)

namespace Match

def text (m : Match) : String :=
  (m.groups[0]?.join).getD ""

/-- The groups after the whole match. -/
def captures (m : Match) : Array (Option String) :=
  m.groups.extract 1 m.groups.size

/-- Whether a group has a name. -/
def hasNames (m : Match) : Bool :=
  m.names.any Option.isSome

end Match

def groupText? (s : Subject) (slots : Slots) (i : Nat) : Option String :=
  match slots[2 * i]?, slots[2 * i + 1]? with
  | some (some start), some (some stop) => some (s.slice start stop)
  | _, _ => none

/-- The first match from a number of units on. -/
def Program.findAt? (p : Program) (s : Subject) (units : Nat) : Option Match :=
  (p.find? s (s.charAt units)).map fun slots =>
    let start := (slots[0]?.join).getD 0
    let stop := (slots[1]?.join).getD start
    { start := s.unitsBefore start
      stop := s.unitsBefore stop
      groups := (Array.range p.names.size).map (groupText? s slots)
      names := p.names }

/-- Every match, each search starting where the last match ended, or one unit later when that was empty. -/
def Program.findAll (p : Program) (s : Subject) : Nat → Nat → List Match
  | 0, _ => []
  | fuel + 1, start =>
    if s.unitsBefore s.chars.size < start then []
    else
      match p.findAt? s start with
      | none => []
      | some m => m :: p.findAll s fuel (if m.stop = m.start then m.stop + 1 else m.stop)

end GuestScript.Regex
