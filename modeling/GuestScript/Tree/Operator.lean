/-!
# Operators of the syntax tree

Each family of operators keeps the spellings that it does not know, so that a tree can be read and written
back, and the fault is named when the tree is used.
-/

namespace GuestScript

/-- A spelling outside a family of known ones. -/
structure Stray (spellings : List String) where
  text : String
  unknown : text ∉ spellings
  deriving DecidableEq

/-- The spellings of the operators on two values. -/
def BinaryOperator.spellings : List String :=
  ["==", "!=", "===", "!==", "<", "<=", ">", ">=", "<<", ">>", ">>>", "+", "-", "*", "/", "%", "**", "|",
   "^", "&", "in", "instanceof"]

/-- Operators on two values. -/
inductive BinaryOperator where
  | equal
  | notEqual
  | strictEqual
  | strictNotEqual
  | less
  | lessEqual
  | greater
  | greaterEqual
  | shiftLeft
  | shiftRight
  | shiftRightZero
  | add
  | subtract
  | multiply
  | divide
  | remainder
  | power
  | bitOr
  | bitXor
  | bitAnd
  | inside
  | instanceOf
  /-- A spelling outside the family. -/
  | other (word : Stray BinaryOperator.spellings)
  deriving DecidableEq

/-- The spelling of an operator. -/
def BinaryOperator.text : BinaryOperator → String
  | equal => "=="
  | notEqual => "!="
  | strictEqual => "==="
  | strictNotEqual => "!=="
  | less => "<"
  | lessEqual => "<="
  | greater => ">"
  | greaterEqual => ">="
  | shiftLeft => "<<"
  | shiftRight => ">>"
  | shiftRightZero => ">>>"
  | add => "+"
  | subtract => "-"
  | multiply => "*"
  | divide => "/"
  | remainder => "%"
  | power => "**"
  | bitOr => "|"
  | bitXor => "^"
  | bitAnd => "&"
  | inside => "in"
  | instanceOf => "instanceof"
  | other word => word.text

def BinaryOperator.ofText (s : String) : BinaryOperator :=
  if known : s ∈ spellings then
    match s with
    | "==" => .equal
    | "!=" => .notEqual
    | "===" => .strictEqual
    | "!==" => .strictNotEqual
    | "<" => .less
    | "<=" => .lessEqual
    | ">" => .greater
    | ">=" => .greaterEqual
    | "<<" => .shiftLeft
    | ">>" => .shiftRight
    | ">>>" => .shiftRightZero
    | "+" => .add
    | "-" => .subtract
    | "*" => .multiply
    | "/" => .divide
    | "%" => .remainder
    | "**" => .power
    | "|" => .bitOr
    | "^" => .bitXor
    | "&" => .bitAnd
    | "in" => .inside
    | _ => .instanceOf
  else .other ⟨s, known⟩

/-- The spellings of the operators that may leave their right side alone. -/
def LogicalOperator.spellings : List String :=
  ["||", "&&", "??"]

/-- Operators that may leave their right side alone. -/
inductive LogicalOperator where
  | or
  | and
  | nullish
  /-- A spelling outside the family. -/
  | other (word : Stray LogicalOperator.spellings)
  deriving DecidableEq

/-- The spelling of an operator. -/
def LogicalOperator.text : LogicalOperator → String
  | or => "||"
  | and => "&&"
  | nullish => "??"
  | other word => word.text

def LogicalOperator.ofText (s : String) : LogicalOperator :=
  if known : s ∈ spellings then
    match s with
    | "||" => .or
    | "&&" => .and
    | _ => .nullish
  else .other ⟨s, known⟩

def UnaryOperator.spellings : List String :=
  ["-", "+", "!", "~", "typeof", "void", "delete"]

/-- Operators on one value. -/
inductive UnaryOperator where
  | minus
  | plus
  | not
  | bitNot
  | typeOf
  | void
  | delete
  /-- A spelling outside the family. -/
  | other (word : Stray UnaryOperator.spellings)
  deriving DecidableEq

/-- The spelling of an operator. -/
def UnaryOperator.text : UnaryOperator → String
  | minus => "-"
  | plus => "+"
  | not => "!"
  | bitNot => "~"
  | typeOf => "typeof"
  | void => "void"
  | delete => "delete"
  | other word => word.text

def UnaryOperator.ofText (s : String) : UnaryOperator :=
  if known : s ∈ spellings then
    match s with
    | "-" => .minus
    | "+" => .plus
    | "!" => .not
    | "~" => .bitNot
    | "typeof" => .typeOf
    | "void" => .void
    | _ => .delete
  else .other ⟨s, known⟩

/-- The spellings of increment and decrement. -/
def UpdateOperator.spellings : List String :=
  ["++", "--"]

/-- Increment and decrement. -/
inductive UpdateOperator where
  | increment
  | decrement
  /-- A spelling outside the family. -/
  | other (word : Stray UpdateOperator.spellings)
  deriving DecidableEq

/-- The spelling of an operator. -/
def UpdateOperator.text : UpdateOperator → String
  | increment => "++"
  | decrement => "--"
  | other word => word.text

def UpdateOperator.ofText (s : String) : UpdateOperator :=
  if known : s ∈ spellings then
    match s with
    | "++" => .increment
    | _ => .decrement
  else .other ⟨s, known⟩

def AssignmentOperator.spellings : List String :=
  ["=", "+=", "-=", "*=", "/=", "%=", "**=", "<<=", ">>=", ">>>=", "|=", "^=", "&=", "||=", "&&=", "??="]

/-- Assignments, plain and compound. -/
inductive AssignmentOperator where
  | plain
  | add
  | subtract
  | multiply
  | divide
  | remainder
  | power
  | shiftLeft
  | shiftRight
  | shiftRightZero
  | bitOr
  | bitXor
  | bitAnd
  | or
  | and
  | nullish
  /-- A spelling outside the family. -/
  | other (word : Stray AssignmentOperator.spellings)
  deriving DecidableEq

/-- The spelling of an operator. -/
def AssignmentOperator.text : AssignmentOperator → String
  | plain => "="
  | add => "+="
  | subtract => "-="
  | multiply => "*="
  | divide => "/="
  | remainder => "%="
  | power => "**="
  | shiftLeft => "<<="
  | shiftRight => ">>="
  | shiftRightZero => ">>>="
  | bitOr => "|="
  | bitXor => "^="
  | bitAnd => "&="
  | or => "||="
  | and => "&&="
  | nullish => "??="
  | other word => word.text

def AssignmentOperator.ofText (s : String) : AssignmentOperator :=
  if known : s ∈ spellings then
    match s with
    | "=" => .plain
    | "+=" => .add
    | "-=" => .subtract
    | "*=" => .multiply
    | "/=" => .divide
    | "%=" => .remainder
    | "**=" => .power
    | "<<=" => .shiftLeft
    | ">>=" => .shiftRight
    | ">>>=" => .shiftRightZero
    | "|=" => .bitOr
    | "^=" => .bitXor
    | "&=" => .bitAnd
    | "||=" => .or
    | "&&=" => .and
    | _ => .nullish
  else .other ⟨s, known⟩

/-- The operator that a compound assignment applies; plain and logical assignments apply none. -/
def AssignmentOperator.binary? : AssignmentOperator → Option BinaryOperator
  | add => some .add
  | subtract => some .subtract
  | multiply => some .multiply
  | divide => some .divide
  | remainder => some .remainder
  | power => some .power
  | shiftLeft => some .shiftLeft
  | shiftRight => some .shiftRight
  | shiftRightZero => some .shiftRightZero
  | bitOr => some .bitOr
  | bitXor => some .bitXor
  | bitAnd => some .bitAnd
  | _ => none

end GuestScript
