import GuestScript.Builtin.Array
import GuestScript.Builtin.Collection
import GuestScript.Builtin.Date
import GuestScript.Builtin.Function
import GuestScript.Builtin.Global
import GuestScript.Builtin.Json
import GuestScript.Builtin.Math
import GuestScript.Builtin.Number
import GuestScript.Builtin.String

/-!
# All built-in functions

The one place where a function of the catalogue meets what it does.
-/

namespace GuestScript

/-- What a built-in function does with a receiver and arguments. -/
def Builtin.run : Builtin → Value → Array Value → Eval Value
  | .object method => method.run
  | .function method => method.run
  | .array method => method.run
  | .string method => method.run
  | .number method => method.run
  | .boolean method => method.run
  | .symbol method => method.run
  | .math method => fun _ => method.run
  | .json method => fun _ => method.run
  | .date method => method.run
  | .regex method => method.run
  | .global method => fun _ => method.run
  | .makeCollection kind => Eval.makeCollection kind
  | .collection kind method => method.run kind
  | .makeError kind => Eval.makeError kind
  | .errorToString => fun receiver _ => return .string (← Eval.errorText receiver)

end GuestScript
