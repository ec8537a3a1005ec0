import GuestScript.Evaluator

/-!
# Contexts

One machine that serves many objects of bindings: each call binds it to the context that it names, with the
same options every time, so that the built-in objects are made only once.
-/

namespace GuestScript.Session

/-- Make the machine ready for a host that has not bound it yet. -/
def start : Session Unit := do
  reset (← newBindings) {}

/-- Run a program with a context as its bindings. -/
def runIn (options : Options) (source : Source) (context : ObjectId) : Session Value := do
  reset context options.withDefaultParser
  evaluate source

/-- Make a function from the names of its parameters and the text of its body. Free names are looked up in the
context, or in an empty one. -/
def functionIn (options : Options) (code : String) (params : List String)
    (context : Option ObjectId) : Session Value := do
  let context ←
    match context with
    | some id => pure id
    | none => newBindings
  let text := "(function anonymous(" ++ ",".intercalate params ++ ")\x7b " ++ code ++ " \x7d);"
  runIn options (.text text) context

/-- Make a function from texts, of which the last one is the body. -/
def functionFrom (options : Options) (texts : List String) : Session Value :=
  functionIn options (texts.getLastD "") texts.dropLast none

end GuestScript.Session
