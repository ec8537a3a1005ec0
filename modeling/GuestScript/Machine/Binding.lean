import GuestScript.Machine.Access

/-!
# Names

Reading, assigning and initializing names of scripts. A name resolves to the nearest scope that binds it; a
lexical name that is not initialized yet cannot be used, and a constant cannot be assigned.
-/

namespace GuestScript.Eval

def resolve (name : String) (access : State.Access) (position : Option Position) :
    Eval ScopeId := do
  match ← read fun m => m.resolve name access with
  | .found scope => pure scope
  | .uninitialized => raise .useBeforeInitialization name position

/-- Read a name from a scope that was found for it; `none` when the scope does not hold it after all. -/
def readFrom? (scope : ScopeId) (name : String) : Eval (Option Value) := do
  let data := (← scopeAt scope).data
  match ← lookup? data (.string name) with
  | none => pure none
  | some p => return some (← hideGlobal (← readProperty (.object data) (some p)))

/-- The scope that binds a name, and the name's value. -/
def resolveValue (name : String) (position : Option Position) : Eval (ScopeId × Value) := do
  let scope ← resolve name .use position
  match ← readFrom? scope name with
  | some v => pure (scope, v)
  | none => raise .variableUndefined name position

def readName (name : String) (position : Option Position) : Eval Value :=
  return (← resolveValue name position).2

/-- The value of a name for `typeof`: a name that nothing binds is `undefined`. -/
def readNameOrUndefined (name : String) (position : Option Position) : Eval Value := do
  let scope ← resolve name .use position
  return (← readFrom? scope name).getD .undefined

def assignName (name : String) (value : Value) (position : Option Position) : Eval Unit := do
  let scope ← resolve name .use position
  let s ← scopeAt scope
  match s.record? name with
  | some ⟨_, .constant⟩ => raise .constChange name position
  | _ => put (.object s.data) (.string name) value

/-- The first write of a lexical name, which ends its dead zone. -/
def initializeName (name : String) (value : Value) (position : Option Position) : Eval Unit := do
  let scope ← resolve name .firstWrite position
  initializeIn scope name value

def setLocal (name : String) (value : Value) : Eval Unit := do
  setVariable (← currentScope) name value

/-- Bind the function declarations of a body in a scope to new functions that close over it. -/
def instantiate (functions : List (String × Template)) (scope : ScopeId) : Eval Unit :=
  functions.forM fun entry => do
    let id ← newFunction (.closure entry.2 scope none)
    setVariable scope entry.1 (.object id)

/-- Declare the `var` names of a body in a scope; names that are there keep their value. -/
def declareVars (names : List String) (scope : ScopeId) : Eval Unit :=
  names.forM fun name =>
    changeNames scope fun o => if o.hasOwn (.string name) then o else o.insertValue name .undefined

end GuestScript.Eval
