import GuestScript.CommandLine

/-!
# The program

Reads arguments, files and lines, and prints outcomes.
-/

namespace GuestScript.CommandLine

def Outcome.print (o : Outcome) : IO UInt32 := do
  (← IO.getStdout).putStr o.out
  (← IO.getStderr).putStr o.err
  return o.status.toUInt32

/-- Answer lines until there are no more. -/
partial def converseLines (m : Machine) : IO UInt32 := do
  let stdout ← IO.getStdout
  stdout.putStr prompt
  stdout.flush
  let line ← (← IO.getStdin).getLine
  if line.isEmpty then
    stdout.putStrLn ""
    return 0
  let (o, m) := answer m line
  let status ← o.print
  if status = 0 then converseLines m else return status

/-- Do what is asked for. -/
def Invocation.main (i : Invocation) : IO UInt32 := do
  match i.code, i.file with
  | some code, _ => (i.runOn code).print
  | none, some path =>
    match ← (IO.FS.readFile path).toBaseIO with
    | .ok input => (i.runOn input).print
    | .error e => (Outcome.fault ("Error reading " ++ path ++ ": " ++ toString e)).print
  | none, none =>
    (← IO.getStdout).putStr greeting
    converseLines i.machine

end GuestScript.CommandLine

open GuestScript.CommandLine in
/-- The program. -/
def main (args : List String) : IO UInt32 :=
  match Invocation.read? args {} with
  | some i => i.main
  | none => Outcome.usage.print
