import GuestScript.Regex.Syntax
import GuestScript.Text.Blank
import GuestScript.Text.Property

/-!
# Reading patterns

A pattern is read from left to right with a stack of open groups, and a class with a stack of open brackets;
so nothing here recurses into what it reads, and every round of a loop takes a character. When blanks and
comments are to be left out, they are skipped between any two characters that belong together.

* `parse` reads a whole pattern.
-/

namespace GuestScript.Regex

/-! ## 1. The cursor -/

/-- What is left of a pattern, and what was found so far. -/
structure Cursor where
  rest : List Char
  /-- Whether blanks and comments are left out. -/
  spaced : Bool := false
  /-- How many capturing groups there are. -/
  groups : Nat := 0
  names : List String := []

/-- An action of the reader. -/
abbrev Parse := EStateM Fault Cursor

/-- Leave out blanks, and comments from a hash sign to the end of the line. -/
def dropSpace : Bool → List Char → List Char
  | _, [] => []
  | true, c :: rest => dropSpace (c != '\n') rest
  | false, c :: rest =>
    if Text.isBlank c then dropSpace false rest
    else if c = '#' then dropSpace true rest
    else c :: rest

/-- The first character that is neither blank nor the start of a comment. -/
def firstSolid? : Bool → List Char → Option Char
  | _, [] => none
  | inComment, c :: rest =>
    if Text.isBlank c then firstSolid? inComment rest
    else if c = '#' && !inComment then firstSolid? true rest
    else some c

namespace Parse

/-- The next character. -/
def current? : Parse (Option Char) :=
  return (← get).rest.head?

/-- Whether the pattern is at its end. -/
def isEnd : Parse Bool :=
  return (← get).rest.isEmpty

/-- Whether the next character is a given one. -/
def isAt (c : Char) : Parse Bool :=
  return (← get).rest.head? == some c

/-- The character after the next one. -/
def second? : Parse (Option Char) :=
  return ((← get).rest.drop 1).head?

/-- The character after the next one, past what is left out. -/
def secondSolid? : Parse (Option Char) := do
  let k ← get
  let after := k.rest.drop 1
  pure (if k.spaced then firstSolid? false after <|> after.head? else after.head?)

/-- Take a character, and say whether another one follows. -/
def bump : Parse Bool := do
  modify fun k => { k with rest := k.rest.drop 1 }
  return !(← isEnd)

/-- Skip what is left out. -/
def skipSpace : Parse Unit :=
  modify fun k => if k.spaced then { k with rest := dropSpace false k.rest } else k

/-- Take a character and skip what is left out, and say whether another character follows. -/
def bumpSolid : Parse Bool := do
  if ← bump then
    skipSpace
    return !(← isEnd)
  else pure false

/-- Take a given text, if it is next. -/
def takeText (text : String) : Parse Bool := do
  let k ← get
  if text.toList.isPrefixOf k.rest then
    set { k with rest := k.rest.drop text.length }
    pure true
  else pure false

def skipBlanks : Parse Unit :=
  modify fun k => { k with rest := k.rest.dropWhile Text.isBlank }

/-- Take characters of a sort, at most `fuel` of them, skipping what is left out between them. -/
def takeSolid (p : Char → Bool) : Nat → List Char → Parse (List Char)
  | 0, acc => pure acc.reverse
  | fuel + 1, acc => do
    match ← current? with
    | some c =>
      if p c then
        discard bumpSolid
        takeSolid p fuel (c :: acc)
      else pure acc.reverse
    | none => pure acc.reverse

/-- How many characters are left. -/
def remaining : Parse Nat :=
  return (← get).rest.length

/-! ## 2. Numbers -/

/-- A decimal number with blanks around it. -/
def decimal : Parse (Except Fault Nat) := do
  skipBlanks
  let digits ← takeSolid Char.isDigit (← remaining) []
  skipBlanks
  skipSpace
  if digits.isEmpty then pure (.error .countEmpty)
  else
    let n := digits.foldl (fun n c => 10 * n + (c.toNat - '0'.toNat)) 0
    pure (if n < 4294967296 then .ok n else .error .decimalInvalid)

/-- Whether a character is a hexadecimal digit. -/
def isHex (c : Char) : Bool :=
  c.isDigit || ('a' ≤ c && c ≤ 'f') || ('A' ≤ c && c ≤ 'F')

def hexDigitValue (c : Char) : Nat :=
  if c.isDigit then c.toNat - '0'.toNat else c.toLower.toNat - 'a'.toNat + 10

/-- The character with a code point in hexadecimal. -/
def hexChar (digits : List Char) : Parse Char := do
  let n := digits.foldl (fun n c => 16 * n + hexDigitValue c) 0
  if n < 0xD800 || (0xE000 ≤ n && n ≤ 0x10FFFF) then pure (Char.ofNat n) else throw .hexInvalid

/-- A number of hexadecimal digits, the first of which is next. -/
def fixedHex : Nat → List Char → Parse (List Char)
  | 0, acc => pure acc.reverse
  | count + 1, acc => do
    match ← current? with
    | none => throw .escapeEnd
    | some c =>
      if isHex c then
        let more ← bumpSolid
        if count > 0 && !more then throw .escapeEnd
        fixedHex count (c :: acc)
      else throw .hexDigit

/-- Hexadecimal digits up to a closing brace, which is taken too. -/
def bracedHex : Nat → List Char → Parse (List Char)
  | 0, _ => throw .escapeEnd
  | fuel + 1, acc => do
    match ← current? with
    | none => throw .escapeEnd
    | some c =>
      if c = '\x7d' then
        discard bumpSolid
        pure acc.reverse
      else if isHex c then
        discard bumpSolid
        bracedHex fuel (c :: acc)
      else throw .hexDigit

/-- The rest of a hexadecimal escape, whose letter says how many digits it has. -/
def hexEscape (letter : Char) : Parse Literal := do
  if !(← bumpSolid) then throw .escapeEnd
  if ← isAt '\x7b' then
    discard bumpSolid
    let digits ← bracedHex ((← remaining) + 1) []
    if digits.isEmpty then throw .hexEmpty
    return ⟨← hexChar digits, false⟩
  else
    let count := if letter = 'x' then 2 else if letter = 'u' then 4 else 8
    let digits ← fixedHex count []
    return ⟨← hexChar digits, letter = 'x'⟩

/-! ## 3. Escapes -/

/-- What an escape or a plain character stands for. -/
inductive Primitive where
  | literal (l : Literal)
  | place (p : PlaceTree)
  | dot
  | letter (sort : LetterClass) (negated : Bool)
  | property (query : PropertyQuery) (negated : Bool)

/-- The parts of a text around the first place where another one stands. -/
def cutAt? (mark : List Char) : List Char → List Char → Option (List Char × List Char)
  | _, [] => none
  | before, c :: rest =>
    if mark.isPrefixOf (c :: rest) then some (before.reverse, (c :: rest).drop mark.length)
    else cutAt? mark (c :: before) rest

/-- A property query with the sign that it is negated. -/
def queryOf (text : List Char) : PropertyQuery × Bool :=
  let valued (parts : List Char × List Char) : PropertyQuery :=
    .valued (String.ofList parts.1) (String.ofList parts.2)
  match cutAt? ['!', '='] [] text with
  | some parts => (valued parts, true)
  | none =>
    match cutAt? [':'] [] text <|> cutAt? ['='] [] text with
    | some parts => (valued parts, false)
    | none => (.named (String.ofList text), false)

def propertyEscape (negated : Bool) : Parse Primitive := do
  if !(← bumpSolid) then throw .escapeEnd
  match ← current? with
  | some '\x7b' =>
    discard bumpSolid
    let text ← takeSolid (fun c => c != '\x7d') (← remaining) []
    if ← isEnd then throw .escapeEnd
    discard bump
    let (query, inverted) := queryOf text
    pure (.property query (negated != inverted))
  | some '\\' => throw .propertyInvalid
  | some c =>
    discard bumpSolid
    pure (.property (.named (String.ofList [c])) negated)
  | none => throw .escapeEnd

def wordEdge? (name : String) : Option PlaceTree :=
  if name == "start" then some .wordStart
  else if name == "end" then some .wordEnd
  else if name == "start-half" then some .wordStartHalf
  else if name == "end-half" then some .wordEndHalf
  else none

/-- The name of a word edge in braces; braces with something else are left where they are. -/
def namedWordEdge : Parse PlaceTree := do
  let start ← get
  let isNameChar (c : Char) : Bool := c.isAlpha || c = '-'
  if !(← bumpSolid) then throw .wordEdgeEnd
  match ← current? with
  | some c =>
    if isNameChar c then
      let name ← takeSolid isNameChar (← remaining) []
      if !(← isAt '\x7d') then throw .wordEdgeUnclosed
      discard bump
      match wordEdge? (String.ofList name) with
      | some edge => pure edge
      | none => throw .wordEdgeUnknown
    else
      set start
      pure .wordBoundary
  | none => throw .wordEdgeEnd

/-- The characters that stand for themselves after a backslash. -/
def isEscapable (c : Char) : Bool :=
  c.toNat < 0x80 && !c.isAlphanum && c != '<' && c != '>'

/-- The characters with a letter of their own. -/
def specialChar? : Char → Option Char
  | 'a' => some '\x07'
  | 'f' => some '\x0c'
  | 't' => some '\t'
  | 'n' => some '\n'
  | 'r' => some '\r'
  | 'v' => some '\x0b'
  | _ => none

/-- The places with a letter of their own. -/
def specialPlace? : Char → Option PlaceTree
  | 'A' => some .textStart
  | 'z' => some .textEnd
  | 'B' => some .notWordBoundary
  | '<' => some .wordStart
  | '>' => some .wordEnd
  | _ => none

/-- The classes with a letter of their own. -/
def specialClass? : Char → Option (LetterClass × Bool)
  | 'd' => some (.digit, false)
  | 'D' => some (.digit, true)
  | 's' => some (.space, false)
  | 'S' => some (.space, true)
  | 'w' => some (.word, false)
  | 'W' => some (.word, true)
  | _ => none

/-- An escape, whose backslash is next. -/
def escape : Parse Primitive := do
  if !(← bump) then throw .escapeEnd
  match ← current? with
  | none => throw .escapeEnd
  | some c =>
    if c.isDigit then throw .backreference
    else if c = 'x' || c = 'u' || c = 'U' then return .literal (← hexEscape c)
    else if c = 'p' || c = 'P' then propertyEscape (c = 'P')
    else
      discard bump
      if isEscapable c then pure (.literal ⟨c, false⟩)
      else if c = 'b' then
        if ← isAt '\x7b' then return .place (← namedWordEdge) else pure (.place .wordBoundary)
      else
        match specialClass? c, specialChar? c, specialPlace? c with
        | some (sort, negated), _, _ => pure (.letter sort negated)
        | none, some d, _ => pure (.literal ⟨d, false⟩)
        | none, none, some p => pure (.place p)
        | none, none, none => throw .escapeUnknown

/-! ## 4. Classes -/

/-- The classes that have a name between colons. -/
def asciiNames : List String :=
  ["alnum", "alpha", "ascii", "blank", "cntrl", "digit", "graph", "lower", "print", "punct", "space",
    "upper", "word", "xdigit"]

/-- A named class at the front of a text, which starts with its bracket. -/
def asciiClass? (cs : List Char) : Option (ClassTree × List Char) :=
  match cs with
  | '[' :: ':' :: rest =>
    let (negated, rest) :=
      match rest with
      | '^' :: r => (true, r)
      | r => (false, r)
    let name := String.ofList (rest.takeWhile fun c => c != ':')
    match rest.dropWhile fun c => c != ':' with
    | ':' :: ']' :: after =>
      if asciiNames.contains name then some (.ascii name negated, after) else none
    | _ => none
  | _ => none

/-- An open bracket: what was read in it, and the operation that waits for its right side. -/
structure OpenClass where
  negated : Bool
  pending : Option (SetOperation × ClassTree) := none
  /-- The items of the current union, the last one first. -/
  items : List ClassTree := []

namespace OpenClass

/-- The set up to here. -/
def tree (o : OpenClass) : ClassTree :=
  let union := ClassTree.ofItems o.items.reverse
  match o.pending with
  | some (op, left) => .operation op left union
  | none => union

/-- Start the right side of an operation. -/
def withOperation (o : OpenClass) (op : SetOperation) : OpenClass :=
  { o with pending := some (op, o.tree), items := [] }

def add (o : OpenClass) (item : ClassTree) : OpenClass :=
  { o with items := item :: o.items }

end OpenClass

/-- Take a character of a class, where the pattern must not end. -/
def bumpInClass : Parse Unit := do
  if !(← bumpSolid) then throw .classUnclosed

/-- Hyphens at the front of a class stand for themselves. -/
def leadingHyphens : Nat → OpenClass → Parse OpenClass
  | 0, o => pure o
  | fuel + 1, o => do
    if ← isAt '-' then
      bumpInClass
      leadingHyphens fuel (o.add (.single ⟨'-', false⟩))
    else pure o

/-- Open a bracket, which is next. A closing bracket right after it stands for itself. -/
def openClass : Parse OpenClass := do
  bumpInClass
  let negated ← isAt '^'
  if negated then bumpInClass
  let o ← leadingHyphens (← remaining) { negated }
  if o.items.isEmpty && (← isAt ']') then
    bumpInClass
    pure (o.add (.single ⟨']', false⟩))
  else pure o

def classPrimitive : Parse Primitive := do
  match ← current? with
  | some '\\' => escape
  | some c =>
    discard bump
    pure (.literal ⟨c, false⟩)
  | none => throw .classUnclosed

def classItem : Primitive → Parse ClassTree
  | .literal l => pure (.single l)
  | .letter sort negated => pure (.letter sort negated)
  | .property query negated => pure (.property query negated)
  | .place _ | .dot => throw .classEscape

def rangeEnd : Primitive → Parse Literal
  | .literal l => pure l
  | _ => throw .classRangeEnd

/-- A range, or one item. -/
def classRange : Parse ClassTree := do
  let first ← classPrimitive
  skipSpace
  if ← isEnd then throw .classUnclosed
  let after ← secondSolid?
  if !(← isAt '-') || after == some ']' || after == some '-' then classItem first
  else
    bumpInClass
    let last ← classPrimitive
    let a ← rangeEnd first
    let b ← rangeEnd last
    if a.char ≤ b.char then pure (.range a b) else throw .classRange

/-- The operation that two characters spell. -/
def operationOf? (c : Char) : Option SetOperation :=
  if c = '&' then some .intersection
  else if c = '-' then some .difference
  else if c = '~' then some .symmetricDifference
  else none

/-- Close the innermost bracket: the whole class when it was the outermost one. -/
def closeClass (o : OpenClass) (outer : List OpenClass) : Parse (Tree ⊕ List OpenClass) := do
  discard bump
  match outer with
  | [] => pure (.inl (.bracketed o.negated o.tree))
  | parent :: rest => pure (.inr (parent.add (.bracketed o.negated o.tree) :: rest))

/-- One round of reading a class with some open brackets, the innermost first. -/
def classRound : List OpenClass → Parse (Tree ⊕ List OpenClass)
  | [] => throw .classUnclosed
  | o :: outer => do
    skipSpace
    match ← current? with
    | none => throw .classUnclosed
    | some '[' =>
      match asciiClass? (← get).rest with
      | some (item, rest) =>
        modify fun k => { k with rest }
        pure (.inr (o.add item :: outer))
      | none => return .inr ((← openClass) :: o :: outer)
    | some ']' => closeClass o outer
    | some c =>
      match operationOf? c, (← second?) == some c with
      | some op, true =>
        modify fun k => { k with rest := k.rest.drop 2 }
        pure (.inr (o.withOperation op :: outer))
      | _, _ => return .inr (o.add (← classRange) :: outer)

/-- Read a class to its end; every round takes a character. -/
def classRounds : Nat → List OpenClass → Parse Tree
  | 0, _ => throw .classUnclosed
  | fuel + 1, stack => do
    match ← classRound stack with
    | .inl tree => pure tree
    | .inr stack => classRounds fuel stack

/-- A class, whose bracket is next. -/
def bracketedClass : Parse Tree := do
  let fuel := (← remaining) + 1
  classRounds fuel [← openClass]

/-! ## 5. Groups -/

/-- An open group: the alternatives and the items that were read in it, the last ones first. -/
structure OpenGroup where
  /-- The outermost level is no group. -/
  sort : Option GroupSort
  /-- Whether blanks were left out before the group. -/
  spacedBefore : Bool := false
  alternatives : List Tree := []
  items : List Tree := []

namespace OpenGroup

def add (g : OpenGroup) (item : Tree) : OpenGroup :=
  { g with items := item :: g.items }

def nextAlternative (g : OpenGroup) : OpenGroup :=
  { g with alternatives := Tree.ofItems g.items.reverse :: g.alternatives, items := [] }

/-- The tree up to here. -/
def tree (g : OpenGroup) : Tree :=
  Tree.ofAlternatives (Tree.ofItems g.items.reverse :: g.alternatives).reverse

end OpenGroup

/-- Whether a character can be in the name of a group. -/
def isNamePart (c : Char) (isFirst : Bool) : Bool :=
  if isFirst then c = '_' || Text.isAlphabetic c
  else c = '_' || c = '.' || c = '[' || c = ']' || Text.isAlphanumeric c

/-- The characters of a group's name up to its closing bracket. -/
def nameChars : Nat → List Char → Parse (List Char)
  | 0, _ => throw .groupNameEnd
  | fuel + 1, acc => do
    match ← current? with
    | none => throw .groupNameEnd
    | some '>' => pure acc.reverse
    | some c =>
      if isNamePart c acc.isEmpty then
        discard bump
        nameChars fuel (c :: acc)
      else throw .groupNameInvalid

/-- The name of a group, with its closing bracket. -/
def groupName : Parse String := do
  let cs ← nameChars ((← remaining) + 1) []
  discard bump
  if cs.isEmpty then throw .groupNameEmpty
  let name := String.ofList cs
  if (← get).names.contains name then throw .groupNameDuplicate
  modify fun k => { k with names := name :: k.names }
  pure name

/-- Number a capturing group. -/
def nextGroup : Parse Nat := do
  modify fun k => { k with groups := k.groups + 1 }
  return (← get).groups

/-- Read flags up to a colon or a closing parenthesis. -/
def flagItems : Nat → List FlagItem → Parse (List FlagItem)
  | 0, _ => throw .flagEnd
  | fuel + 1, acc => do
    match ← current? with
    | none => throw .flagEnd
    | some c =>
      if c = ':' || c = ')' then
        if acc.head? = some .negation then throw .flagDangling
        pure acc.reverse
      else if c = '-' then
        if acc.contains .negation then throw .flagRepeated
        if !(← bump) then throw .flagEnd
        flagItems fuel (.negation :: acc)
      else
        match Flag.ofChar? c with
        | none => throw .flagUnknown
        | some f =>
          if acc.contains (.flag f) then throw .flagDuplicate
          if !(← bump) then throw .flagEnd
          flagItems fuel (.flag f :: acc)

/-- Whether something that looks around is next. -/
def takeLookAround : Parse Bool := do
  if ← takeText "?=" then pure true
  else if ← takeText "?!" then pure true
  else if ← takeText "?<=" then pure true
  else takeText "?<!"

/-- The start of a group, whose parenthesis is next: a group that is opened, or flags for the rest of the
group around it. -/
def groupStart : Parse (GroupSort ⊕ List FlagItem) := do
  discard bump
  skipSpace
  if ← takeLookAround then throw .lookAround
  if (← takeText "?P<") || (← takeText "?<") then
    let index ← nextGroup
    let name ← groupName
    pure (.inl (.capture index (some name)))
  else if ← takeText "?" then
    if ← isEnd then throw .groupUnclosed
    let items ← flagItems ((← remaining) + 1) []
    let isSetting ← isAt ')'
    discard bump
    if isSetting then
      if items.isEmpty then throw .repetitionMissing
      pure (.inr items)
    else pure (.inl (.plain items))
  else return .inl (.capture (← nextGroup) none)

/-- Open a group, or note flags. -/
def openGroup (g : OpenGroup) (outer : List OpenGroup) : Parse (List OpenGroup) := do
  match ← groupStart with
  | .inr items =>
    modify fun k => { k with spaced := (flagState .ignoreWhitespace items true).getD k.spaced }
    pure (g.add (.flags items) :: outer)
  | .inl sort =>
    let before := (← get).spaced
    let items :=
      match sort with
      | .plain items => items
      | .capture _ _ => []
    modify fun k => { k with spaced := (flagState .ignoreWhitespace items true).getD k.spaced }
    pure ({ sort := some sort, spacedBefore := before } :: g :: outer)

/-- Close the innermost group, whose parenthesis is next. -/
def closeGroup (g : OpenGroup) (outer : List OpenGroup) : Parse (List OpenGroup) := do
  match g.sort, outer with
  | some sort, parent :: rest =>
    modify fun k => { k with spaced := g.spacedBefore }
    discard bump
    pure (parent.add (.group sort g.tree) :: rest)
  | _, _ => throw .groupUnopened

/-! ## 6. Repetition -/

/-- Take off the item that a repetition applies to. -/
def repeatedItem (g : OpenGroup) : Parse (Tree × OpenGroup) := do
  match g.items with
  | .empty :: _ | .flags _ :: _ | [] => throw .repetitionMissing
  | item :: rest => pure (item, { g with items := rest })

/-- Take a question mark, and say whether it was not there. -/
def greedy : Parse Bool := do
  if ← isAt '?' then
    discard bump
    pure false
  else pure true

/-- A repetition with a sign of its own. -/
def signRepetition (g : OpenGroup) (least : Nat) (most : Option Nat) : Parse OpenGroup := do
  let (item, g) ← repeatedItem g
  discard bump
  return g.add (.repetition least most (← greedy) item)

/-- The counts in braces, of which the first one was read. -/
def counts (first : Except Fault Nat) : Parse (Nat × Option Nat) := do
  let known : Parse Nat :=
    match first with
    | .ok n => pure n
    | .error e => throw e
  if ← isEnd then throw .countUnclosed
  if ← isAt ',' then
    if !(← bumpSolid) then throw .countUnclosed
    if ← isAt '\x7d' then return (← known, none)
    else
      let least ← known
      match ← decimal with
      | .ok most => pure (least, some most)
      | .error e => throw e
  else
    let n ← known
    pure (n, some n)

/-- A repetition with counts in braces, the first of which is next. -/
def countedRepetition (g : OpenGroup) : Parse OpenGroup := do
  let (item, g) ← repeatedItem g
  if !(← bumpSolid) then throw .countUnclosed
  let (least, most) ← counts (← decimal)
  if !(← isAt '\x7d') then throw .countUnclosed
  discard bumpSolid
  let isGreedy ← greedy
  match most with
  | some n => if n < least then throw .countInvalid
  | none => pure ()
  pure (g.add (.repetition least most isGreedy item))

/-! ## 7. Patterns -/

def Primitive.tree : Primitive → Tree
  | literal l => .literal l
  | place p => .place p
  | dot => .dot
  | letter sort negated => .letter sort negated
  | property query negated => .property query negated

/-- A plain character or an escape. -/
def primitive : Parse Primitive := do
  match ← current? with
  | some '\\' => escape
  | some c =>
    discard bump
    pure <|
      if c = '.' then .dot
      else if c = '^' then .place .lineStart
      else if c = '$' then .place .lineEnd
      else .literal ⟨c, false⟩
  | none => throw .escapeEnd

/-- One round of reading a pattern with some open groups, the innermost first. -/
def round (c : Char) (g : OpenGroup) (outer : List OpenGroup) : Parse (List OpenGroup) := do
  if c = '(' then openGroup g outer
  else if c = ')' then closeGroup g outer
  else if c = '|' then
    discard bump
    pure (g.nextAlternative :: outer)
  else if c = '[' then return g.add (← bracketedClass) :: outer
  else if c = '?' then return (← signRepetition g 0 (some 1)) :: outer
  else if c = '*' then return (← signRepetition g 0 none) :: outer
  else if c = '+' then return (← signRepetition g 1 none) :: outer
  else if c = '\x7b' then return (← countedRepetition g) :: outer
  else return g.add (← primitive).tree :: outer

/-- Read a pattern to its end; every round takes a character. -/
def rounds : Nat → List OpenGroup → Parse Tree
  | _, [] => throw .groupUnopened
  | 0, _ => throw .groupUnclosed
  | fuel + 1, g :: outer => do
    skipSpace
    match ← current? with
    | none => if outer.isEmpty then pure g.tree else throw .groupUnclosed
    | some c => rounds fuel (← round c g outer)

end Parse

/-- How deep groups and brackets can be nested. -/
def nestingLimit : Nat := 250

/-- Read a pattern. -/
def parse (pattern : String) : Except Fault Tree :=
  match Parse.rounds (pattern.length + 1) [{ sort := none }] { rest := pattern.toList } with
  | .error fault _ => .error fault
  | .ok tree _ => if nestingLimit < tree.depth then .error (.nesting nestingLimit) else .ok tree

end GuestScript.Regex
