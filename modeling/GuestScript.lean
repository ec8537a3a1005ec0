import GuestScript.Main
import GuestScript.Proofs.Bounded
import GuestScript.Proofs.Budget
import GuestScript.Proofs.Calendar
import GuestScript.Proofs.Caller
import GuestScript.Proofs.Chain
import GuestScript.Proofs.Elision
import GuestScript.Proofs.ForEach
import GuestScript.Proofs.ForIn
import GuestScript.Proofs.Frame
import GuestScript.Proofs.Grammar.Precedence
import GuestScript.Proofs.Interrupt
import GuestScript.Proofs.Json.Circular
import GuestScript.Proofs.Json.RoundTrip
import GuestScript.Proofs.Lexical.Hoisting
import GuestScript.Proofs.Lexical.Jump
import GuestScript.Proofs.LiteralKey
import GuestScript.Proofs.Percent
import GuestScript.Proofs.Sandbox
import GuestScript.Proofs.Sealing
import GuestScript.Proofs.Span.Position
import GuestScript.Proofs.Span.Statement
import GuestScript.Proofs.Joining
import GuestScript.Object.Store
import GuestScript.Proofs.Object.Store
