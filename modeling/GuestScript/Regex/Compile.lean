import GuestScript.Regex.Parser
import GuestScript.Regex.Size

/-!
# Compiling patterns

Code is laid down from the back: the code of a pattern is made for the place that comes after it. A loop
reserves its branching instruction first and fills it in when the code of its body is known.

* `compile` reads a pattern and makes its program. Programs that would be too large are refused before
  anything is laid down.
-/

namespace GuestScript.Regex

/-! ## 1. Code -/

/-- An action that lays down code. -/
abbrev Emit := StateM (Array Instruction)

/-- Lay down an instruction, and give its place. -/
def emit (i : Instruction) : Emit Nat :=
  modifyGet fun code => (code.size, code.push i)

def fillIn (place : Nat) (i : Instruction) : Emit Unit :=
  modify fun code => code.setIfInBounds place i

/-- A branch that prefers to go on, or to leave when it is not greedy. -/
def branch (greedy : Bool) (onward leave : Nat) : Instruction :=
  if greedy then .split onward leave else .split leave onward

/-- Lay down code a number of times in a row. -/
def copies (body : Nat → Emit Nat) : Nat → Nat → Emit Nat
  | 0, next => pure next
  | count + 1, next => do copies body count (← body next)

/-- Lay down code up to a number of times in a row; each time it can be left for the end. -/
def optionalCopies (body : Nat → Emit Nat) (greedy : Bool) (leave : Nat) : Nat → Nat → Emit Nat
  | 0, next => pure next
  | count + 1, next => do
    let start ← body next
    optionalCopies body greedy leave count (← emit (branch greedy start leave))

/-- Lay down a loop that takes its body at least once. -/
def loopCode (body : Nat → Emit Nat) (greedy : Bool) (next : Nat) : Emit Nat := do
  let again ← emit .accept
  let start ← body again
  fillIn again (branch greedy start next)
  pure start

/-- Lay down the code of a text. -/
def textCode : List Nat → Nat → Emit Nat
  | [], next => pure next
  | c :: rest, next => do emit (.take (Text.Ranges.single c) (← textCode rest next))

/-- Lay down the code of a pattern before the code at a place. A loop whose body can match nothing is entered
by a branch of its own, so that the body is preferred over leaving only on entry. -/
def Pattern.code : Pattern → Nat → Emit Nat
  | empty, next => pure next
  | text chars, next => textCode chars next
  | set chars, next => emit (.take chars next)
  | place assertion, next => emit (.check assertion next)
  | capture index _ body, next => do
    let close ← emit (.mark (2 * index + 1) next)
    let start ← body.code close
    emit (.mark (2 * index) start)
  | concat first rest, next => do first.code (← rest.code next)
  | choice first rest, next => do
    let second ← rest.code next
    let start ← first.code next
    emit (.split start second)
  | repetition least most greedy body, next => do
    match most with
    | some n =>
      let start ← optionalCopies body.code greedy next (n - least) next
      copies body.code least start
    | none =>
      if least = 0 then
        if (body.least?.getD 0) > 0 then
          let again ← emit .accept
          let start ← body.code again
          fillIn again (branch greedy start next)
          pure again
        else
          let start ← loopCode body.code greedy next
          emit (branch greedy start next)
      else
        let start ← loopCode body.code greedy next
        copies body.code (least - 1) start

/-! ## 2. Groups -/

/-- Note the name of a group; groups that have no code before it count as unnamed. -/
def noteGroup (names : Array (Option String)) (index : Nat) (name : Option String) :
    Array (Option String) :=
  if index < names.size then names
  else (names ++ Array.replicate (index - names.size) none).push name

def Pattern.names : Pattern → Array (Option String) → Array (Option String)
  | empty, names | text _, names | set _, names | place _, names => names
  | repetition _ _ _ body, names => body.names names
  | capture index name body, names => body.names (noteGroup names index name)
  | concat first rest, names => rest.names (first.names names)
  | choice first rest, names => rest.names (first.names names)

/-! ## 3. Programs -/

/-- The program of a pattern; the whole match is group zero. -/
def Pattern.program (p : Pattern) : Program :=
  let whole := Pattern.capture 0 none p
  let lay : Emit Nat := do whole.code (← emit .accept)
  let (start, instructions) := lay.run #[]
  { instructions, start, names := p.names #[none] }

/-- Read a pattern and make its program. -/
def compile (pattern : String) (flags : Flags) : Except Fault Program := do
  let p ← (← parse pattern).resolve flags
  if p.fits then pure p.program else .error (.tooLarge sizeLimit)

end GuestScript.Regex
