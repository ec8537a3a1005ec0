import GuestScript.Machine.Access

/-!
# Operators

Comparison, arithmetic and the tests `in` and `instanceof`, on any values. Each operator converts its operands
in order, left before right, and then works on primitives alone.
-/

namespace GuestScript.Eval

/-! ## 1. Comparison -/

/-- A truth value as a number; anything else stays. -/
def booleanAsNumber : Value → Value
  | .boolean b => .number (if b then 1.0 else 0.0)
  | v => v

/-- Equality of primitives with conversion: `undefined` and `null` are equal to each other only, and a text is
compared with a number as a number. -/
def primitivesEqual (left right : Value) : Bool :=
  if left.isNullish || right.isNullish then left.isNullish && right.isNullish
  else
    match booleanAsNumber left, booleanAsNumber right with
    | .number a, .string b => Number.equal a (textToNumber b)
    | .string a, .number b => Number.equal (textToNumber a) b
    | a, b => a.strictEquals b

/-- Equality with conversion. -/
def looseEquals (left right : Value) : Eval Bool := do
  if left.isNullish || right.isNullish then pure (left.isNullish && right.isNullish)
  else
    match left, right with
    | .object a, .object b => pure (a = b)
    | .object _, _ => return primitivesEqual (← toPrimitive left .default) right
    | _, .object _ => return primitivesEqual left (← toPrimitive right .default)
    | _, _ => pure (primitivesEqual left right)

/-- Whether a value comes before another one: texts by their units, all else as numbers. There is no answer
for not-a-number. -/
def lessThan (left right : Value) : Eval (Option Bool) := do
  let l ← toPrimitive left .number
  let r ← toPrimitive right .number
  match l, r with
  | .string a, .string b => pure (some (Text.before a b))
  | _, _ =>
    let x ← toNumber l
    let y ← toNumber r
    pure (Number.lessThan? x y)

/-! ## 2. Arithmetic -/

/-- The sum of two values, or their texts joined when one of them is a text. -/
def add (left right : Value) : Eval Value := do
  let l ← toPrimitive left .default
  let r ← toPrimitive right .default
  if l.isString || r.isString then
    let a ← toText l
    let b ← toText r
    pure (.string (a ++ b))
  else
    let x ← toNumber l
    let y ← toNumber r
    pure (.number (x + y))

/-- An operator on two numbers. -/
@[inline] def numeric (f : Float → Float → Float) (left right : Value) : Eval Value := do
  let x ← toNumber left
  let y ← toNumber right
  pure (.number (f x y))

/-! ## 3. Tests -/

/-- Whether a value is an instance of a function, following bound functions to their targets. -/
def instanceOfWithin : Nat → Value → Value → Eval Bool
  | 0, _, _ => stop .exhausted
  | fuel + 1, v, target => do
    match target with
    | .object id =>
      match (← lookup? id (.symbol (.wellKnown .hasInstance))).bind Property.value? with
      | some (.object method) => return (← call (.object method) target #[v]).truthy
      | _ =>
        match (← object id).callable with
        | none => throwTypeError "Right-hand side of 'instanceof' is not callable"
        | some (.bound bound _ _ _ _ _) => instanceOfWithin fuel v (.object bound)
        | some _ =>
          match v with
          | .object instanceId =>
            match ← getNamed target "prototype" with
            | .object prototype => read fun m => m.inheritsFrom instanceId prototype
            | _ => throwTypeError "Function has non-object prototype in instanceof check"
          | _ => pure false
    | _ => throwTypeError "Right-hand side of 'instanceof' is not an object"

def instanceOf (v target : Value) : Eval Bool :=
  instanceOfWithin nestingLimit v target

/-- Whether an object has a property. -/
def insideOf (left right : Value) : Eval Bool := do
  match right with
  | .object id =>
    let key ← toKey left
    hasProperty id key
  | _ =>
    throwTypeError ("Cannot use 'in' operator to search for '" ++ (← display left) ++ "' in "
      ++ (← display right))

/-- Apply an operator. -/
def binary (operator : BinaryOperator) (left right : Value) : Eval Value := do
  match operator with
  | .equal => return .boolean (← looseEquals left right)
  | .notEqual => return .boolean (!(← looseEquals left right))
  | .strictEqual => pure (.boolean (left.strictEquals right))
  | .strictNotEqual => pure (.boolean (!left.strictEquals right))
  | .less => return .boolean ((← lessThan left right) == some true)
  | .greater => return .boolean ((← lessThan right left) == some true)
  | .lessEqual => return .boolean ((← lessThan right left) == some false)
  | .greaterEqual => return .boolean ((← lessThan left right) == some false)
  | .add => add left right
  | .subtract => numeric (· - ·) left right
  | .multiply => numeric (· * ·) left right
  | .divide => numeric (· / ·) left right
  | .remainder => numeric Number.remainder left right
  | .power => numeric Number.power left right
  | .shiftLeft => numeric Number.shiftLeft left right
  | .shiftRight => numeric Number.shiftRight left right
  | .shiftRightZero => numeric Number.shiftRightZero left right
  | .bitAnd => numeric Number.bitAnd left right
  | .bitOr => numeric Number.bitOr left right
  | .bitXor => numeric Number.bitXor left right
  | .inside => return .boolean (← insideOf left right)
  | .instanceOf => return .boolean (← instanceOf left right)
  | .other word => raise .binaryOperator word.text (← read State.lastPosition)

def unary (operator : UnaryOperator) (v : Value) (position : Option Position) : Eval Value := do
  match operator with
  | .minus => return .number (Number.negate (← toNumber v))
  | .plus => return .number (← toNumber v)
  | .not => pure (.boolean (!v.truthy))
  | .bitNot => return .number (Number.bitNot (← toNumber v))
  | .typeOf => return .string (← typeName v)
  | .void => pure .undefined
  | .delete => pure (.boolean true)
  | .other word => raise .unaryOperator word.text position

end GuestScript.Eval
