/-!
# Syntax of regular expressions

The tree of a pattern as it is written, and the faults that a pattern can have. Sequences and choices are
chains of two: the left part is one item and the right part is the rest of the chain.
-/

namespace GuestScript.Regex

/-! ## 1. Faults -/

/-- What can be wrong with a pattern. -/
inductive Fault where
  | classEscape
  | classRange
  | classRangeEnd
  | classUnclosed
  | decimalInvalid
  | hexEmpty
  | hexInvalid
  | hexDigit
  | escapeEnd
  | escapeUnknown
  | flagDangling
  | flagDuplicate
  | flagRepeated
  | flagEnd
  | flagUnknown
  | groupNameDuplicate
  | groupNameEmpty
  | groupNameInvalid
  | groupNameEnd
  | groupUnclosed
  | groupUnopened
  | nesting (limit : Nat)
  | countInvalid
  | countEmpty
  | countUnclosed
  | wordEdgeUnclosed
  | wordEdgeUnknown
  | wordEdgeEnd
  | repetitionMissing
  | propertyInvalid
  | backreference
  | lookAround
  | unicodeNotAllowed
  | notText
  | propertyNotFound
  | propertyValueNotFound
  | tooLarge (limit : Nat)
  deriving DecidableEq

/-- The wording of a fault. -/
def Fault.message : Fault → String
  | classEscape => "invalid escape sequence found in character class"
  | classRange => "invalid character class range, the start must be <= the end"
  | classRangeEnd => "invalid range boundary, must be a literal"
  | classUnclosed => "unclosed character class"
  | decimalInvalid => "decimal literal invalid"
  | hexEmpty => "hexadecimal literal empty"
  | hexInvalid => "hexadecimal literal is not a Unicode scalar value"
  | hexDigit => "invalid hexadecimal digit"
  | escapeEnd => "incomplete escape sequence, reached end of pattern prematurely"
  | escapeUnknown => "unrecognized escape sequence"
  | flagDangling => "dangling flag negation operator"
  | flagDuplicate => "duplicate flag"
  | flagRepeated => "flag negation operator repeated"
  | flagEnd => "expected flag but got end of regex"
  | flagUnknown => "unrecognized flag"
  | groupNameDuplicate => "duplicate capture group name"
  | groupNameEmpty => "empty capture group name"
  | groupNameInvalid => "invalid capture group character"
  | groupNameEnd => "unclosed capture group name"
  | groupUnclosed => "unclosed group"
  | groupUnopened => "unopened group"
  | nesting limit =>
    "exceed the maximum number of nested parentheses/brackets (" ++ toString limit ++ ")"
  | countInvalid => "invalid repetition count range, the start must be <= the end"
  | countEmpty => "repetition quantifier expects a valid decimal"
  | countUnclosed => "unclosed counted repetition"
  | wordEdgeUnclosed =>
    "special word boundary assertion is either unclosed or contains an invalid character"
  | wordEdgeUnknown =>
    "unrecognized special word boundary assertion, valid choices are: start, end, start-half or end-half"
  | wordEdgeEnd =>
    "found either the beginning of a special word boundary or a bounded repetition on a \\b with an "
      ++ "opening brace, but no closing brace"
  | repetitionMissing => "repetition operator missing expression"
  | propertyInvalid => "invalid Unicode character class"
  | backreference => "backreferences are not supported"
  | lookAround => "look-around, including look-ahead and look-behind, is not supported"
  | unicodeNotAllowed => "Unicode not allowed here"
  | notText => "pattern can match invalid UTF-8"
  | propertyNotFound => "Unicode property not found"
  | propertyValueNotFound => "Unicode property value not found"
  | tooLarge limit => "Compiled regex exceeds size limit of " ++ toString limit ++ " bytes."

/-- The line that a fault is reported with; only faults of the syntax are marked as errors. -/
def Fault.report (f : Fault) : String :=
  match f with
  | tooLarge _ => f.message
  | _ => "error: " ++ f.message

/-! ## 2. Flags -/

/-- The flags that a pattern can set for a part of itself. -/
inductive Flag where
  | caseInsensitive
  | multiLine
  | dotMatchesNewLine
  | swapGreed
  | unicode
  | crlf
  | ignoreWhitespace
  deriving DecidableEq

/-- The flag of a letter. -/
def Flag.ofChar? : Char → Option Flag
  | 'i' => some caseInsensitive
  | 'm' => some multiLine
  | 's' => some dotMatchesNewLine
  | 'U' => some swapGreed
  | 'u' => some unicode
  | 'R' => some crlf
  | 'x' => some ignoreWhitespace
  | _ => none

/-- One item of a list of flags: a flag, or the sign that the flags after it are taken back. -/
inductive FlagItem where
  | negation
  | flag (f : Flag)
  deriving DecidableEq

/-- Whether a list of flags sets a flag or takes it back; `none` when it does neither. -/
def flagState (f : Flag) : List FlagItem → Bool → Option Bool
  | [], _ => none
  | .negation :: rest, _ => flagState f rest false
  | .flag g :: rest, value => if g = f then some value else flagState f rest value

/-! ## 3. Trees -/

/-- A literal character; one that is written with two hexadecimal digits can also stand for a byte. -/
structure Literal where
  char : Char
  isByte : Bool

/-- The classes with a letter of their own. -/
inductive LetterClass where
  | digit
  | space
  | word
  deriving DecidableEq

/-- A property by name, or by name and value. -/
inductive PropertyQuery where
  | named (name : String)
  | valued (name value : String)

/-- How two sets are put together. -/
inductive SetOperation where
  | intersection
  | difference
  | symmetricDifference
  deriving DecidableEq

/-- What stands between brackets. -/
inductive ClassTree where
  | empty
  | range (first last : Literal)
  | single (literal : Literal)
  | ascii (name : String) (negated : Bool)
  | property (query : PropertyQuery) (negated : Bool)
  | letter (sort : LetterClass) (negated : Bool)
  | bracketed (negated : Bool) (body : ClassTree)
  | union (item rest : ClassTree)
  | operation (op : SetOperation) (left right : ClassTree)

/-- Conditions on a place of the text, as they are written. -/
inductive PlaceTree where
  | lineStart
  | lineEnd
  | textStart
  | textEnd
  | wordBoundary
  | notWordBoundary
  | wordStart
  | wordEnd
  | wordStartHalf
  | wordEndHalf
  deriving DecidableEq

/-- The sorts of groups. -/
inductive GroupSort where
  | capture (index : Nat) (name : Option String)
  | plain (flags : List FlagItem)

/-- A pattern. -/
inductive Tree where
  | empty
  | flags (items : List FlagItem)
  | literal (l : Literal)
  | dot
  | place (p : PlaceTree)
  | property (query : PropertyQuery) (negated : Bool)
  | letter (sort : LetterClass) (negated : Bool)
  | bracketed (negated : Bool) (body : ClassTree)
  | repetition (least : Nat) (most : Option Nat) (greedy : Bool) (body : Tree)
  | group (sort : GroupSort) (body : Tree)
  | concat (first rest : Tree)
  | choice (first rest : Tree)

/-! ## 4. Depth -/

/-- How deep a class is nested; a list counts once, whatever its length. -/
def ClassTree.depth : ClassTree → Nat
  | empty | range _ _ | single _ | ascii _ _ | property _ _ | letter _ _ => 0
  | bracketed _ body => body.depth + 1
  | union item rest =>
    max (item.depth + 1)
      (match rest with
        | union _ _ => rest.depth
        | _ => rest.depth + 1)
  | operation _ left right => max left.depth right.depth + 1

/-- How deep a pattern is nested; a chain counts once, whatever its length. -/
def Tree.depth : Tree → Nat
  | empty | flags _ | literal _ | dot | place _ | property _ _ | letter _ _ => 0
  | bracketed _ body => body.depth + 1
  | repetition _ _ _ body => body.depth + 1
  | group _ body => body.depth + 1
  | concat first rest =>
    max (first.depth + 1)
      (match rest with
        | concat _ _ => rest.depth
        | _ => rest.depth + 1)
  | choice first rest =>
    max (first.depth + 1)
      (match rest with
        | choice _ _ => rest.depth
        | _ => rest.depth + 1)

/-- The chain of some items. -/
def Tree.ofItems : List Tree → Tree
  | [] => empty
  | [item] => item
  | item :: rest => concat item (ofItems rest)

/-- The choice between some alternatives. -/
def Tree.ofAlternatives : List Tree → Tree
  | [] => empty
  | [tree] => tree
  | tree :: rest => choice tree (ofAlternatives rest)

/-- The union of some items. -/
def ClassTree.ofItems : List ClassTree → ClassTree
  | [] => empty
  | [item] => item
  | item :: rest => union item (ofItems rest)

end GuestScript.Regex
