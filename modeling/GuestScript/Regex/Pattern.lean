import GuestScript.Regex.Match
import GuestScript.Regex.Syntax
import GuestScript.Text.Case

/-!
# The meaning of patterns

A tree becomes a *pattern*: flags are gone, every class is a set of characters, and case has been folded into
the sets. Flags hold from where they stand to the end of the group around them. Patterns are put together in a
normal form, in which chains and choices are flat, texts are as long as they can be, and a choice between
characters is a set.

* `Tree.resolve` is the pattern of a tree, or the fault that only shows now.
-/

namespace GuestScript.Regex

/-! ## 1. Patterns -/

/-- A pattern without flags. Chains and choices lean to the right. -/
inductive Pattern where
  | empty
  /-- One character after the other. -/
  | text (chars : List Nat)
  | set (chars : CharSet)
  | place (assertion : Assertion)
  | repetition (least : Nat) (most : Option Nat) (greedy : Bool) (body : Pattern)
  | capture (index : Nat) (name : Option String) (body : Pattern)
  | concat (first rest : Pattern)
  | choice (first rest : Pattern)
  deriving DecidableEq

namespace Pattern

/-- The least number of characters that a pattern takes; `none` when it takes nothing at all. -/
def least? : Pattern → Option Nat
  | empty | place _ => some 0
  | text chars => some chars.length
  | set chars => if chars.isEmpty then none else some 1
  | repetition n _ _ body => body.least?.map (n * ·)
  | capture _ _ body => body.least?
  | concat first rest =>
    match first.least?, rest.least? with
    | some a, some b => some (a + b)
    | _, _ => none
  | choice first rest =>
    match first.least?, rest.least? with
    | some a, some b => some (min a b)
    | _, _ => none

/-- Whether a pattern takes no characters, however it matches. -/
def isWidthless : Pattern → Bool
  | empty | place _ => true
  | text _ | set _ => false
  | repetition _ _ _ body => body.isWidthless
  | capture _ _ body => body.isWidthless
  | concat first rest => first.isWidthless && rest.isWidthless
  | choice first rest => first.isWidthless && rest.isWidthless

/-! ## 2. Normal forms -/

/-- The pattern of a set; a set of one character is a text. -/
def ofSet (chars : CharSet) : Pattern :=
  match chars.toList with
  | [(first, last)] => if first = last then text [first] else set chars
  | _ => set chars

/-- A repetition. What takes no characters is matched at most once, and nothing is left of a pattern that is
matched no times. -/
def repeated (least : Nat) (most : Option Nat) (greedy : Bool) (body : Pattern) : Pattern :=
  let widthless := body.isWidthless
  let least := if widthless then min least 1 else least
  let most := if widthless then some (min (most.getD 1) 1) else most
  if most = some 0 then empty
  else if least = 1 && most = some 1 then body
  else repetition least most greedy body

/-- Put a link in front of a chain; neighbouring texts become one. -/
def prepend : Pattern → Pattern → Pattern
  | link, empty => link
  | text chars, text more => text (chars ++ more)
  | text chars, concat (text more) rest => concat (text (chars ++ more)) rest
  | link, rest => concat link rest

def append : Pattern → Pattern → Pattern
  | empty, after => after
  | concat first rest, after => first.prepend (rest.append after)
  | link, after => link.prepend after

/-- The links of a chain. -/
def links : Pattern → List Pattern
  | concat first rest => first :: rest.links
  | link => [link]

/-- The chain of some patterns. -/
def ofLinks (links : List Pattern) : Pattern :=
  links.foldr append empty

def alternatives : Pattern → List Pattern
  | choice first rest => first :: rest.alternatives
  | p => [p]

/-- The choice between some alternatives. -/
def ofAlternatives : List Pattern → Pattern
  | [] => set #[]
  | [p] => p
  | p :: rest => choice p (ofAlternatives rest)

/-- The character of a pattern for just one. -/
def char? : Pattern → Option Nat
  | text [c] => some c
  | _ => none

def set? : Pattern → Option CharSet
  | set chars => some chars
  | _ => none

/-- The one set of alternatives that are all characters, or all sets. -/
def joined? (ps : List Pattern) : Option CharSet :=
  match ps.mapM char? with
  | some chars => some (Text.Ranges.ofList (chars.map fun c => (c, c)))
  | none => (ps.mapM set?).map fun sets => Text.Ranges.ofList (sets.flatMap Array.toList)

/-- Alternatives that have nothing in front in common. -/
def oneOfApart (ps : List Pattern) : Pattern :=
  match joined? ps with
  | some chars => ofSet chars
  | none => ofAlternatives ps

/-- The links at the front of both of two chains. -/
def commonLinks : List Pattern → List Pattern → List Pattern
  | p :: ps, q :: qs => if p = q then p :: commonLinks ps qs else []
  | _, _ => []

/-- Whether a pattern is a chain of several links. -/
def isChain : Pattern → Bool
  | concat _ _ => true
  | _ => false

/-- The links at the front of all of some chains; other alternatives have none in common. -/
def sharedLinks (ps : List Pattern) : List Pattern :=
  match ps with
  | p :: q :: rest =>
    if ps.all isChain then (q :: rest).foldl (fun shared r => commonLinks shared r.links) p.links
    else []
  | _ => []

/-- The choice between some patterns. Alternatives of alternatives count as its own, what all of them have in
front comes before the choice, and characters or sets alone are one set. -/
def oneOf : List Pattern → Pattern
  | [p] => p
  | ps =>
    let all := ps.flatMap alternatives
    let shared := sharedLinks all
    if shared.isEmpty then oneOfApart all
    else
      let rests := all.map fun p => ofLinks (p.links.drop shared.length)
      (ofLinks shared).append (oneOfApart (rests.flatMap alternatives))

end Pattern

/-! ## 3. Flags -/

/-- The flags at a place of a pattern. -/
structure Flags where
  caseInsensitive : Bool := false
  multiLine : Bool := false
  dotMatchesNewLine : Bool := false
  swapGreed : Bool := false
  unicode : Bool := true
  crlf : Bool := false

def Flags.apply (f : Flags) (items : List FlagItem) : Flags :=
  let state (flag : Flag) (old : Bool) : Bool := (flagState flag items true).getD old
  { caseInsensitive := state .caseInsensitive f.caseInsensitive
    multiLine := state .multiLine f.multiLine
    dotMatchesNewLine := state .dotMatchesNewLine f.dotMatchesNewLine
    swapGreed := state .swapGreed f.swapGreed
    unicode := state .unicode f.unicode
    crlf := state .crlf f.crlf }

/-! ## 4. Sets -/

/-- Add every character that is the same up to case as one of a set. -/
def foldSet (set : CharSet) : CharSet :=
  let folded := Text.foldings.filter fun e => set.contains e.1
  let once := set.union (Text.Ranges.ofList (folded.map fun e => (e.2, e.2)))
  let back := Text.foldings.filter fun e => once.contains e.2
  once.union (Text.Ranges.ofList (back.map fun e => (e.1, e.1)))

/-- Add the other case of the ASCII letters of a set. -/
def foldAscii (set : CharSet) : CharSet :=
  let shifted (low high : Nat) (target : Nat) : List (Nat × Nat) :=
    (set.inter #[(low, high)]).toList.map fun r => (r.1 - low + target, r.2 - low + target)
  set.union (Text.Ranges.ofList (shifted 0x41 0x5A 0x61 ++ shifted 0x61 0x7A 0x41))

def Flags.fold (f : Flags) (set : CharSet) : CharSet :=
  if !f.caseInsensitive then set else if f.unicode then foldSet set else foldAscii set

/-- Fold a set and then take its complement, as asked. -/
def Flags.finish (f : Flags) (negated : Bool) (set : CharSet) : CharSet :=
  let set := f.fold set
  if negated then set.complement else set

/-- The ranges of a class with a name between colons. -/
def asciiRanges (name : String) : List (Nat × Nat) :=
  match name with
  | "alnum" => [(0x30, 0x39), (0x41, 0x5A), (0x61, 0x7A)]
  | "alpha" => [(0x41, 0x5A), (0x61, 0x7A)]
  | "ascii" => [(0x0, 0x7F)]
  | "blank" => [(0x9, 0x9), (0x20, 0x20)]
  | "cntrl" => [(0x0, 0x1F), (0x7F, 0x7F)]
  | "digit" => [(0x30, 0x39)]
  | "graph" => [(0x21, 0x7E)]
  | "lower" => [(0x61, 0x7A)]
  | "print" => [(0x20, 0x7E)]
  | "punct" => [(0x21, 0x2F), (0x3A, 0x40), (0x5B, 0x60), (0x7B, 0x7E)]
  | "space" => [(0x9, 0xD), (0x20, 0x20)]
  | "upper" => [(0x41, 0x5A)]
  | "word" => [(0x30, 0x39), (0x41, 0x5A), (0x5F, 0x5F), (0x61, 0x7A)]
  | _ => [(0x30, 0x39), (0x41, 0x46), (0x61, 0x66)]

/-- The set of a class with a letter of its own. -/
def LetterClass.set (sort : LetterClass) (unicode : Bool) : CharSet :=
  match sort, unicode with
  | digit, true => Text.categorySet ["Nd"]
  | space, true => Text.blankRanges
  | word, true => Text.wordRanges
  | digit, false => Text.Ranges.ofList (asciiRanges "digit")
  | space, false => Text.Ranges.ofList (asciiRanges "space")
  | word, false => Text.Ranges.ofList (asciiRanges "word")

/-- The answer to a query, with its fault as one of patterns. -/
def ofAnswer : Except Text.PropertyFault CharSet → Except Fault CharSet
  | .ok set => .ok set
  | .error .name => .error .propertyNotFound
  | .error .value => .error .propertyValueNotFound

def PropertyQuery.set : PropertyQuery → Except Fault CharSet
  | named name => ofAnswer (Text.named name)
  | valued name value => ofAnswer (Text.valued name value)

/-- Refuse a set of bytes that is not all ASCII. -/
def textOnly (f : Flags) (set : CharSet) : Except Fault CharSet :=
  if f.unicode || set.all fun r => r.2 < 0x80 then .ok set else .error .notText

def letterSet (f : Flags) (sort : LetterClass) (negated : Bool) : Except Fault CharSet :=
  let set := sort.set f.unicode
  textOnly f (if negated then set.complement else set)

/-- The set of a property, folded. -/
def propertySet (f : Flags) (query : PropertyQuery) (negated : Bool) : Except Fault CharSet := do
  if f.unicode then return f.finish negated (← query.set) else .error .unicodeNotAllowed

/-- Refuse a literal that stands for a byte which is no character. -/
def checkByte (f : Flags) (l : Literal) : Except Fault Unit :=
  if !f.unicode && l.isByte && 0x80 ≤ l.char.toNat then .error .notText else .ok ()

def classPoint (f : Flags) (l : Literal) : Except Fault Nat := do
  checkByte f l
  if f.unicode || l.char.toNat < 0x80 then pure l.char.toNat else .error .unicodeNotAllowed

/-- The set of what stands between brackets. -/
def ClassTree.set (f : Flags) : ClassTree → Except Fault CharSet
  | empty => .ok #[]
  | single l => return Text.Ranges.single (← classPoint f l)
  | range first last => return #[(← classPoint f first, ← classPoint f last)]
  | ascii name negated => textOnly f (f.finish negated (Text.Ranges.ofList (asciiRanges name)))
  | property query negated => propertySet f query negated
  | letter sort negated => letterSet f sort negated
  | bracketed negated body => do textOnly f (f.finish negated (← body.set f))
  | union item rest => return (← item.set f).union (← rest.set f)
  | operation op left right => do
    let a := f.fold (← left.set f)
    let b := f.fold (← right.set f)
    pure <|
      match op with
      | .intersection => a.inter b
      | .difference => a.diff b
      | .symmetricDifference => a.symmDiff b

/-! ## 5. Trees -/

/-- The condition of a place. -/
def PlaceTree.assertion (f : Flags) : PlaceTree → Assertion
  | lineStart =>
    if f.multiLine then (if f.crlf then .lineStartWide else .lineStart) else .textStart
  | lineEnd => if f.multiLine then (if f.crlf then .lineEndWide else .lineEnd) else .textEnd
  | textStart => .textStart
  | textEnd => .textEnd
  | wordBoundary => .wordBoundary f.unicode
  | notWordBoundary => .notWordBoundary f.unicode
  | wordStart => .wordStart f.unicode
  | wordEnd => .wordEnd f.unicode
  | wordStartHalf => .wordStartHalf f.unicode
  | wordEndHalf => .wordEndHalf f.unicode

/-- The characters that a dot stands for. -/
def dotSet (f : Flags) : Except Fault CharSet :=
  if !f.unicode then .error .notText
  else
    .ok <|
      if f.dotMatchesNewLine then Text.Ranges.full
      else if f.crlf then Text.Ranges.complement #[(0xA, 0xA), (0xD, 0xD)]
      else Text.Ranges.complement #[(0xA, 0xA)]

/-- The alternatives of a tree with some flags, and the flags after it. -/
def Tree.branches : Tree → Flags → Except Fault (List Pattern × Flags)
  | empty, f => .ok ([.empty], f)
  | flags items, f => .ok ([.empty], f.apply items)
  | literal l, f => do
    checkByte f l
    pure ([.ofSet (f.fold (Text.Ranges.single l.char.toNat))], f)
  | dot, f => return ([.ofSet (← dotSet f)], f)
  | place p, f => .ok ([.place (p.assertion f)], f)
  | property query negated, f => return ([.ofSet (← propertySet f query negated)], f)
  | letter sort negated, f => return ([.ofSet (← letterSet f sort negated)], f)
  | bracketed negated body, f => do
    let set ← textOnly f (f.finish negated (← body.set f))
    pure ([.ofSet set], f)
  | repetition least most greedy body, f => do
    let (ps, after) ← body.branches f
    pure ([.repeated least most (greedy != f.swapGreed) (.oneOf ps)], after)
  | group (.capture index name) body, f => do
    let (ps, _) ← body.branches f
    pure ([.capture index name (.oneOf ps)], f)
  | group (.plain items) body, f => do
    let (ps, _) ← body.branches (f.apply items)
    pure ([.oneOf ps], f)
  | concat first rest, f => do
    let (ps, f) ← first.branches f
    let (qs, f) ← rest.branches f
    pure ([(Pattern.oneOf ps).append (.oneOf qs)], f)
  | choice first rest, f => do
    let (ps, f) ← first.branches f
    let (qs, f) ← rest.branches f
    pure (.oneOf ps :: qs, f)

def Tree.resolve (t : Tree) (f : Flags) : Except Fault Pattern := do
  let (ps, _) ← t.branches f
  pure (.oneOf ps)

end GuestScript.Regex
