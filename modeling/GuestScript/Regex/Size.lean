import GuestScript.Regex.Pattern
import Std.Data.HashMap

/-!
# The size of patterns

A pattern is measured by two automata that read bytes: one goes through a text forwards and notes its groups,
the other one goes through it backwards. Neither may take more than `sizeLimit` bytes.

Most of an automaton has a fixed size. Only the states for a set of characters beyond ASCII depend on what is
there already, because they are looked up in a table by a hash of the numbers of other states, and the table
forgets a state when another one takes its slot. So a pattern becomes a *plan* first, fixed amounts and
sets in the order in which they are built, and the plan is carried out with the states counted.

A text is a sequence of bytes in UTF-8, so a range of characters is a list of *sequences* of byte ranges: a
character is in the range when its bytes are, one by one, in the byte ranges of a sequence. A range is first
cut into *bands*, in which all encodings have the same length and no surrogates, and then so that only
whole blocks of 64, 4096 and 262144 characters are put together.

* `byteSequences` is that list, in increasing order.
* `Pattern.fits` says whether a pattern is small enough.
-/

namespace GuestScript.Text

/-! ## 1. Bytes -/

/-- The bytes from the first to the last one, ends included. -/
structure ByteRange where
  first : Nat
  last : Nat
  deriving DecidableEq

/-- The bytes of a character. -/
def encoding (n : Nat) : List Nat :=
  let tail (k : Nat) : Nat := 0x80 + k % 0x40
  if n < 0x80 then [n]
  else if n < 0x800 then [0xC0 + n / 0x40, tail n]
  else if n < 0x10000 then [0xE0 + n / 0x1000, tail (n / 0x40), tail n]
  else [0xF0 + n / 0x40000, tail (n / 0x1000), tail (n / 0x40), tail n]

/-! ## 2. Cutting ranges -/

/-- The bands of characters. -/
def bands : List (Nat × Nat) :=
  [(0, 0x7F), (0x80, 0x7FF), (0x800, 0xD7FF), (0xE000, 0xFFFF), (0x10000, 0x10FFFF)]

/-- The parts of a range that lie in one band each. -/
def bandParts (first last : Nat) : List (Nat × Nat) :=
  bands.filterMap fun band =>
    let first := max band.1 first
    let last := min band.2 last
    if first ≤ last then some (first, last) else none

/-- Cut a range so that a part with more than one block is made of whole blocks. Blocks have `width`
characters, and 64 times as many on each level above. -/
def blockParts : Nat → Nat → Nat → Nat → List (Nat × Nat)
  | 0, _, first, last => [(first, last)]
  | levels + 1, width, first, last =>
    if first / width = last / width then [(first, last)]
    else
      let low := (first + width - 1) / width * width
      let high := (last + 1) / width * width
      (if first < low then [(first, low - 1)] else []) ++
        (if low < high then blockParts levels (0x40 * width) low (high - 1) else []) ++
        (if high ≤ last then [(high, last)] else [])

def byteSequences (first last : Nat) : List (List ByteRange) :=
  (bandParts first last).flatMap fun part =>
    let parts := if part.2 < 0x80 then [part] else blockParts 3 0x40 part.1 part.2
    parts.map fun part => List.zipWith ByteRange.mk (encoding part.1) (encoding part.2)

end GuestScript.Text

namespace GuestScript.Regex

open Text (ByteRange)

/-! ## 3. Extent -/

/-- The most bytes that an automaton may take. -/
def sizeLimit : Nat := 10485760

/-- The bytes of a state without its edges. -/
def stateSize : Nat := 32

/-- The bytes of an edge that takes a byte, at a state that can have several. -/
def edgeSize : Nat := 8

/-- The bytes of an edge that takes nothing, at a state that can have several. -/
def linkSize : Nat := 4

/-- How far an automaton has been built: the number of its states, and the bytes of their edges. -/
structure Extent where
  states : Nat := 0
  edges : Nat := 0

/-- The bytes of an automaton. -/
def Extent.bytes (e : Extent) : Nat :=
  stateSize * e.states + e.edges

/-- An action that builds a part of an automaton; it fails when the automaton gets too large. -/
abbrev Build := StateT Extent Option

/-- Add states, and the bytes of edges. -/
def add (states edges : Nat) : Build Unit := fun e =>
  let e := { states := e.states + states, edges := e.edges + edges : Extent }
  if sizeLimit < e.bytes then none else some ((), e)

/-- Add a state, and give its number. -/
def addState (edges : Nat) : Build Nat := do
  let e ← get
  add 1 edges
  pure e.states

/-! ## 4. Tables of states -/

/-- The slot of some numbers in a table, by a hash of 64 bits that takes in one number after the other. -/
def slotOf (slots : Nat) (numbers : List Nat) : Nat :=
  let hash := numbers.foldl (fun (h : UInt64) n => (h ^^^ n.toUInt64) * 1099511628211)
    14695981039346656037
  hash.toNat % slots

/-- An action with a table of states by slot; each is there with what it was built from. -/
abbrev Sharing (α : Type) := StateT (Std.HashMap Nat (α × Nat)) Build

/-- The state of a key: the one in its slot if that was built from the same key, else a new one, which takes
the slot. -/
def share {α : Type} [DecidableEq α] (slot : Nat) (key : α) (edges : Nat) : Sharing α Nat := do
  let known := (← get)[slot]?.filter fun entry => entry.1 = key
  match known with
  | some entry => pure entry.2
  | none => do
    let state ← addState edges
    modify fun table => table.insert slot (key, state)
    pure state

/-! ## 5. Sets forwards

The sequences of a set come in increasing order, so that those with a common beginning are neighbours. The
states of the last sequence are held open, from its first byte range on; when the next sequence leaves its
way, the states after the fork are closed from the end backwards. -/

/-- An edge to a state. -/
structure Edge where
  range : ByteRange
  target : Nat
  deriving DecidableEq

/-- A state that is still open: its edges, and the range of the edge whose target is not known yet. -/
structure OpenState where
  edges : Array Edge := #[]
  pending : Option ByteRange := none

namespace OpenState

/-- The edges once the target of the pending one is known. -/
def edgesTo (s : OpenState) (target : Nat) : Array Edge :=
  match s.pending with
  | none => s.edges
  | some range => s.edges.push ⟨range, target⟩

/-- Close states that follow each other, the last one first, and give the state that they start with. -/
def close (final : Nat) : List OpenState → Sharing (Array Edge) Nat
  | [] => pure final
  | s :: rest => do
    let edges := s.edgesTo (← close final rest)
    let numbers := edges.toList.flatMap fun e => [e.range.first, e.range.last, e.target]
    share (slotOf 10000 numbers) edges (edgeSize * edges.size)

/-- Go on with the next sequence. -/
def follow (final : Nat) : List OpenState → List ByteRange → Sharing (Array Edge) (List OpenState)
  | s :: rest, range :: more => do
    if s.pending = some range then return s :: (← follow final rest more)
    else
      let edges := s.edgesTo (← close final rest)
      pure ({ edges, pending := some range } :: more.map fun r => { pending := some r })
  | _, sequence => pure (sequence.map fun r => { pending := some r })

end OpenState

/-- Build the states that take a character of a set. -/
def buildSet (sequences : List (List ByteRange)) : Build Unit := do
  let final ← addState 0
  let action : Sharing (Array Edge) Nat := do
    OpenState.close final (← sequences.foldlM (OpenState.follow final) [{}])
  discard (action.run' ∅)

/-! ## 6. Sets backwards -/

/-- Build the states that take a character of a set from its last byte to its first one. Each sequence is a
way of its own from the state that all start at; ways share the states that they end with. -/
def buildSetBackwards (sequences : List (List ByteRange)) : Build Unit := do
  add 1 0
  let final ← addState 0
  let step (target : Nat) (range : ByteRange) : Sharing (Nat × ByteRange) Nat :=
    share (slotOf 1000 [target, range.first, range.last]) (target, range) 0
  let action : Sharing (Nat × ByteRange) Unit :=
    sequences.forM fun sequence => do
      discard (sequence.foldlM step final)
      add 0 linkSize
  action.run' ∅

/-! ## 7. Plans -/

/-- What is built for a pattern. -/
inductive Plan where
  /-- States, and the bytes of edges. -/
  | fixed (states edges : Nat)
  | set (sequences : List (List ByteRange))
  | chain (first rest : Plan)
  | copies (count : Nat) (body : Plan)

namespace Plan

/-- One plan after the other. -/
def append : Plan → Plan → Plan
  | fixed states edges, fixed states' edges' => fixed (states + states') (edges + edges')
  | p, q => chain p q

instance : Append Plan := ⟨append⟩

/-- A plan a number of times in a row. -/
def times (count : Nat) : Plan → Plan
  | fixed states edges => fixed (count * states) (count * edges)
  | p => copies count p

/-- Build something a number of times in a row. -/
def buildCopies (body : Build Unit) : Nat → Build Unit
  | 0 => pure ()
  | count + 1 => do
    body
    buildCopies body count

/-- Carry out a plan, with the way that sets are built. -/
def build (buildSet : List (List ByteRange) → Build Unit) : Plan → Build Unit
  | fixed states edges => add states edges
  | set sequences => buildSet sequences
  | chain first rest => do
    first.build buildSet
    rest.build buildSet
  | copies count body => buildCopies (body.build buildSet) count

/-- Whether an automaton can be built by a plan. -/
def fits (p : Plan) (buildSet : List (List ByteRange) → Build Unit) : Bool :=
  (p.build buildSet {}).isSome

/-- The plan of a state with two links. -/
def fork : Plan :=
  fixed 1 (2 * linkSize)

end Plan

/-! ## 8. Words

A choice between texts is a tree that is spelled out byte by byte. The end of a text closes the edges of its
node so far: a text that comes later gets edges of its own, so that the shorter one is still preferred. -/

/-- The texts between the empty ones of a list; empty texts at the front count as one. -/
def spans (texts : List (List Nat)) : List (List (List Nat)) :=
  let texts := (texts.takeWhile List.isEmpty).take 1 ++ texts.dropWhile List.isEmpty
  texts.foldr
    (fun text acc =>
      match text, acc with
      | [], _ => [] :: acc
      | text, span :: rest => (text :: span) :: rest
      | text, [] => [[text]])
    [[]]

/-- What follows each first byte in some texts. -/
def continuations (texts : List (List Nat)) : List (List (List Nat)) :=
  (texts.filterMap List.head?).eraseDups.map fun byte =>
    texts.filterMap fun text => if text.head? = some byte then some text.tail else none

/-- The plan of the tree of some texts, none of them longer than `depth` bytes. -/
def treePlan : Nat → List (List Nat) → Plan
  | 0, _ => .fixed 0 0
  | depth + 1, texts =>
    if texts.all List.isEmpty then .fixed 0 0
    else
      let spans := spans texts
      let nodes := (spans.filter fun span => !span.isEmpty).map continuations
      let edges := nodes.map fun n => if n.length = 1 then 0 else edgeSize * n.length
      let inner := (nodes.flatten.map (treePlan depth)).foldl (· ++ ·) (.fixed 0 0)
      inner ++ .fixed (nodes.length + 1) (edges.sum + linkSize * (nodes.length + (spans.length - 1)))

/-! ## 9. Patterns -/

/-- What is built for one alternative. -/
inductive Planned where
  | text (bytes : List Nat)
  | other (plan : Plan)

namespace Planned

/-- The plan of an alternative alone. -/
def plan : Planned → Plan
  | text bytes => .fixed bytes.length 0
  | other plan => plan

def text? : Planned → Option (List Nat)
  | text bytes => some bytes
  | other _ => none

def choicePlan : List Planned → Plan
  | [] => .fixed 1 0
  | [b] => b.plan
  | first :: second :: rest =>
    match (first :: second :: rest).mapM text? with
    | some texts => .fixed 1 0 ++ treePlan (texts.foldl (fun n text => max n text.length) 0) texts
    | none =>
      rest.foldl (fun p b => p ++ (b.plan ++ .fixed 0 linkSize))
        (first.plan ++ second.plan ++ .fixed 2 (2 * linkSize))

end Planned

def setPlan (chars : CharSet) : Plan :=
  if chars.all fun r => r.2 < 0x80 then .fixed 2 (edgeSize * chars.size)
  else .set (chars.toList.flatMap fun r => Text.byteSequences r.1 r.2)

/-- The plan of a repetition. A loop without an upper bound is entered by a fork of its own if its body can
match nothing. -/
def repetitionPlan (least : Nat) (most : Option Nat) (widthless : Bool) (body : Plan) : Plan :=
  match most with
  | some n =>
    if n = least then body.times n
    else if least = 0 && n = 1 then .fork ++ body ++ .fixed 1 0
    else
      let required := if least = 0 then .fixed 1 0 else body.times least
      required ++ .fixed 1 0 ++ Plan.times (n - least) (.fork ++ body)
  | none =>
    if 0 < least then body.times least ++ .fork
    else if widthless then body ++ .fork ++ .fork ++ .fixed 1 0
    else .fork ++ body

namespace Pattern

/-- What is built for the alternatives of a pattern, forwards or backwards. Groups are only noted forwards. -/
def planned (backwards : Bool) : Pattern → List Planned
  | empty => [.other (.fixed 1 0)]
  | text chars =>
    let bytes := chars.flatMap Text.encoding
    [.text (if backwards then bytes.reverse else bytes)]
  | set chars => [.other (setPlan chars)]
  | place _ => [.other (.fixed 1 0)]
  | repetition least most _ body =>
    let plan := Planned.choicePlan (body.planned backwards)
    [.other (repetitionPlan least most (body.least?.getD 0 = 0) plan)]
  | capture _ _ body =>
    let plan := Planned.choicePlan (body.planned backwards)
    [.other (if backwards then plan else .fixed 1 0 ++ plan ++ .fixed 1 0)]
  | concat first rest =>
    let first := Planned.choicePlan (first.planned backwards)
    let rest := Planned.choicePlan (rest.planned backwards)
    [.other (if backwards then rest ++ first else first ++ rest)]
  | choice first rest => first.planned backwards ++ rest.planned backwards

/-- Whether every match of a pattern starts at the start of the text. -/
def startsText : Pattern → Bool
  | place assertion => assertion = .textStart
  | repetition least _ _ body => 0 < least && body.startsText
  | capture _ _ body => body.startsText
  | concat first rest => first.startsText || (first.isWidthless && rest.startsText)
  | choice first rest => first.startsText && rest.startsText
  | _ => false

def endsText : Pattern → Bool
  | place assertion => assertion = .textEnd
  | repetition least _ _ body => 0 < least && body.endsText
  | capture _ _ body => body.endsText
  | concat first rest => rest.endsText || (rest.isWidthless && first.endsText)
  | choice first rest => first.endsText && rest.endsText
  | _ => false

/-- The plan of what goes before a match: a loop that takes any byte, unless the match stands at the end of
the text where reading begins. -/
def searchPlan (anchored : Bool) : Plan :=
  if anchored then .fixed 1 0 else .fork ++ .fixed 2 edgeSize

/-- Whether both automata of a pattern are small enough. -/
def fits (p : Pattern) : Bool :=
  let forwards := Planned.choicePlan ((capture 0 none p).planned false)
  let backwards := Planned.choicePlan (p.planned true)
  (searchPlan p.startsText ++ forwards ++ .fixed 1 0).fits buildSet &&
    (searchPlan p.endsText ++ backwards ++ .fixed 1 0).fits buildSetBackwards

end Pattern

end GuestScript.Regex
