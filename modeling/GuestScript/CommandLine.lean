import GuestScript.Evaluator
import GuestScript.Tree.Document

/-!
# The command line

What the program does with its arguments, as a function of them and of the text that it reads: evaluate a
text, print its syntax tree, or answer line by line. Nothing here reads or prints; the outcome says what is
to be printed and how the program ends.
-/

namespace GuestScript.CommandLine

/-! ## 1. Arguments -/

/-- What the arguments ask for. -/
structure Invocation where
  file : Option String := none
  /-- The text given in the arguments themselves. -/
  code : Option String := none
  timeout : Option Nat := none
  maxSteps : Option Nat := none
  /-- Whether the text is a syntax tree as a document. -/
  isTree : Bool := false
  printsTree : Bool := false

/-- Set something once. -/
def once {α : Type} (old : Option α) (new : α) : Option (Option α) :=
  match old with
  | some _ => none
  | none => some (some new)

/-- Set a switch once. -/
def switchOn (old : Bool) : Option Bool :=
  if old then none else some true

/-- A count among the arguments. -/
def count? (s : String) : Option Nat :=
  let digits :=
    match s.toList with
    | '+' :: rest => rest
    | cs => cs
  if digits.isEmpty then none else (Text.digits? digits).filter fun n => n < 18446744073709551616

/-- Whether an argument is an option. -/
def isOption (s : String) : Bool :=
  match s.toList with
  | '-' :: _ :: _ => true
  | _ => false

def Invocation.set? (i : Invocation) (name value : String) : Option Invocation :=
  if name == "--eval" then (once i.code value).map fun c => { i with code := c }
  else if name == "--timeout" then
    (count? value).bind fun n => (once i.timeout n).map fun t => { i with timeout := t }
  else if name == "--max-steps" then
    (count? value).bind fun n => (once i.maxSteps n).map fun m => { i with maxSteps := m }
  else none

/-- Turn a switch on. -/
def Invocation.switch? (i : Invocation) (name : String) : Option Invocation :=
  if name == "--ast" then (switchOn i.isTree).map fun b => { i with isTree := b }
  else if name == "--print-ast" then (switchOn i.printsTree).map fun b => { i with printsTree := b }
  else none

/-- The name and the value of an option that has its value in the same argument. -/
def assignment? (s : String) : Option (String × String) :=
  match s.toList with
  | '-' :: '-' :: rest =>
    if rest.contains '=' then
      some (String.ofList ('-' :: '-' :: rest.takeWhile fun c => c != '='),
        String.ofList ((rest.dropWhile fun c => c != '=').drop 1))
    else none
  | '-' :: 'e' :: '=' :: value => some ("--eval", String.ofList value)
  | '-' :: 'e' :: c :: value => some ("--eval", String.ofList (c :: value))
  | _ => none

def fullName (s : String) : String :=
  if s == "-e" then "--eval" else s

/-- Read the arguments; `none` when they do not fit together. -/
def Invocation.read? : List String → Invocation → Option Invocation
  | [], i => some i
  | s :: rest, i =>
    if isOption s then
      match i.switch? s, assignment? s with
      | some i, _ => Invocation.read? rest i
      | none, some (name, value) => (i.set? name value).bind (Invocation.read? rest)
      | none, none =>
        match rest with
        | value :: rest =>
          if isOption value then none else (i.set? (fullName s) value).bind (Invocation.read? rest)
        | [] => none
    else (once i.file s).bind fun f => Invocation.read? rest { i with file := f }

/-- The options of the evaluations. -/
def Invocation.options (i : Invocation) : Options :=
  let defaults : Options := {}
  { defaults with
    timeout := i.timeout.getD defaults.timeout
    maxSteps := i.maxSteps.getD defaults.maxSteps }.withDefaultParser

/-! ## 2. Outcomes -/

/-- What the program prints, and the status that it ends with. -/
structure Outcome where
  status : Nat := 0
  out : String := ""
  err : String := ""

/-- A failure as it is reported. -/
def failureText : Failure → String
  | .uncaught message _ => "Uncaught " ++ message
  | .interrupt i => i.text
  | .parse e => e.text
  | .config message => message
  | .json => "Invalid document"
  | .exhausted => "Nested too deep"
  | .panicked => "Index outside of a list"

/-- The outcome that only reports. -/
def Outcome.fault (message : String) : Outcome :=
  { status := 1, err := message ++ "\n" }

/-- The outcome of a panic, which ends the program with a status of its own. -/
def Outcome.panic : Outcome :=
  { status := 101, err := failureText .panicked ++ "\n" }

/-- The outcome of arguments that do not fit together. -/
def Outcome.usage : Outcome :=
  { status := 2
    err := "Usage: estreval [--eval CODE] [--timeout MS] [--max-steps N] [--ast] [--print-ast] [FILE]\n" }

def printTree (input : String) : Outcome :=
  match parse input {} with
  | .error e => .fault e.text
  | .ok n =>
    match n.toJson? with
    | some j => { out := j.pretty "" ++ "\n" }
    | none => .fault (failureText .json)

def bindNew (options : Options) : Session Unit := do
  Session.reset (← Session.newBindings) options

/-- Evaluate a program and print its value, unless that is `undefined`. -/
def printValue (source : Source) (options : Options) : Outcome :=
  let action : Session String := do
    bindNew options
    let v ← Session.evaluate source
    if v.isUndefined then pure "" else return (← Session.ofEval (Eval.display v)) ++ "\n"
  match action Machine.initial with
  | .ok text _ => { out := text }
  | .error .panicked _ => .panic
  | .error e _ => .fault (failureText e)

/-- Do what is asked for with a text. -/
def Invocation.runOn (i : Invocation) (input : String) : Outcome :=
  if i.printsTree then printTree input
  else if i.isTree then
    match Node.ofText? input with
    | some n => printValue (.tree n) i.options
    | none => .fault "Invalid AST"
  else printValue (.text input) i.options

/-! ## 3. Line by line -/

/-- What is printed first. -/
def greeting : String :=
  "estreval v0.1.0\nType expressions or statements. Press Ctrl-D to exit.\n"

/-- What is printed before every line. -/
def prompt : String := "> "

/-- A machine for lines. -/
def Invocation.machine (i : Invocation) : Machine :=
  match bindNew i.options Machine.initial with
  | .ok _ m => m
  | .error _ m => m

/-- A value as it is shown after a line: texts are quoted. -/
def shown (v : Value) : Session String :=
  match v with
  | .string s => pure (Text.quoted s)
  | _ => Session.ofEval (Eval.display v)

/-- Answer one line; every line runs with the same bindings. -/
def answer (m : Machine) (line : String) : Outcome × Machine :=
  let trimmed := Text.trimBy Text.isBlank line
  if trimmed.isEmpty then ({}, m)
  else
    let action : Session String := do shown (← Session.evaluate (.text trimmed))
    match action m with
    | .ok text m => ({ out := text ++ "\n" }, m)
    | .error .panicked m => (.panic, m)
    | .error e m => ({ err := failureText e ++ "\n" }, m)

/-- The lines of a text; a line feed ends a line. -/
def linesOf (input : String) : List String :=
  let (lines, last) := input.toList.foldl
    (fun (lines, line) c =>
      if c = '\n' then (String.ofList line.reverse :: lines, []) else (lines, c :: line))
    (([] : List String), ([] : List Char))
  (if last.isEmpty then lines else String.ofList last.reverse :: lines).reverse

def answerAll : List String → Machine → Outcome → Outcome
  | [], _, o => { o with out := o.out ++ prompt ++ "\n" }
  | line :: rest, m, o =>
    let (r, m) := answer m line
    let o : Outcome := { status := r.status, out := o.out ++ prompt ++ r.out, err := o.err ++ r.err }
    if r.status = 0 then answerAll rest m o else o

/-- Greet, and answer all lines of a text. -/
def Invocation.converse (i : Invocation) (input : String) : Outcome :=
  answerAll (linesOf input) i.machine { out := greeting }

end GuestScript.CommandLine
