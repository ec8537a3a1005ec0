import GuestScript.Diagnostic
import GuestScript.Number.Notation
import GuestScript.Text.Quoted

/-!
# Tokens

The words and marks of a program text. A template literal comes in pieces, one for each stretch of text
between its substitutions; a piece holds its text as written and, when all of its escapes are valid, the
text it stands for.
-/

namespace GuestScript

/-! ## 1. Reserved words -/

/-- The reserved words. -/
inductive Keyword where
  | breakWord
  | caseWord
  | catchWord
  | classWord
  | constWord
  | continueWord
  | debuggerWord
  | defaultWord
  | deleteWord
  | doWord
  | elseWord
  | enumWord
  | exportWord
  | extendsWord
  | finallyWord
  | forWord
  | functionWord
  | ifWord
  | importWord
  | inWord
  | instanceofWord
  | letWord
  | newWord
  | returnWord
  | superWord
  | switchWord
  | thisWord
  | throwWord
  | tryWord
  | typeofWord
  | varWord
  | voidWord
  | whileWord
  | withWord
  | yieldWord
  deriving DecidableEq

/-- The spelling of a reserved word. -/
def Keyword.text : Keyword → String
  | breakWord => "break"
  | caseWord => "case"
  | catchWord => "catch"
  | classWord => "class"
  | constWord => "const"
  | continueWord => "continue"
  | debuggerWord => "debugger"
  | defaultWord => "default"
  | deleteWord => "delete"
  | doWord => "do"
  | elseWord => "else"
  | enumWord => "enum"
  | exportWord => "export"
  | extendsWord => "extends"
  | finallyWord => "finally"
  | forWord => "for"
  | functionWord => "function"
  | ifWord => "if"
  | importWord => "import"
  | inWord => "in"
  | instanceofWord => "instanceof"
  | letWord => "let"
  | newWord => "new"
  | returnWord => "return"
  | superWord => "super"
  | switchWord => "switch"
  | thisWord => "this"
  | throwWord => "throw"
  | tryWord => "try"
  | typeofWord => "typeof"
  | varWord => "var"
  | voidWord => "void"
  | whileWord => "while"
  | withWord => "with"
  | yieldWord => "yield"

/-- All reserved words. -/
def Keyword.all : List Keyword :=
  [.breakWord, .caseWord, .catchWord, .classWord, .constWord, .continueWord,
   .debuggerWord, .defaultWord, .deleteWord, .doWord, .elseWord, .enumWord,
   .exportWord, .extendsWord, .finallyWord, .forWord, .functionWord, .ifWord,
   .importWord, .inWord, .instanceofWord, .letWord, .newWord, .returnWord,
   .superWord, .switchWord, .thisWord, .throwWord, .tryWord, .typeofWord,
   .varWord, .voidWord, .whileWord, .withWord, .yieldWord]

/-- The reserved word with a given spelling. -/
def Keyword.ofText? (s : String) : Option Keyword :=
  Keyword.all.find? (fun k => k.text == s)

/-! ## 2. Punctuators -/

/-- The punctuators. -/
inductive Punctuator where
  | leftBrace
  | rightBrace
  | leftParen
  | rightParen
  | leftBracket
  | rightBracket
  | dot
  | ellipsis
  | semicolon
  | comma
  | less
  | greater
  | lessEqual
  | greaterEqual
  | equal
  | notEqual
  | strictEqual
  | strictNotEqual
  | plus
  | minus
  | star
  | percent
  | exponent
  | increment
  | decrement
  | leftShift
  | rightShift
  | zeroRightShift
  | ampersand
  | pipe
  | caret
  | bang
  | tilde
  | logicalAnd
  | logicalOr
  | nullish
  | question
  | optionalChain
  | colon
  | assign
  | plusAssign
  | minusAssign
  | starAssign
  | percentAssign
  | exponentAssign
  | leftShiftAssign
  | rightShiftAssign
  | zeroRightShiftAssign
  | ampersandAssign
  | pipeAssign
  | caretAssign
  | logicalAndAssign
  | logicalOrAssign
  | nullishAssign
  | arrow
  | slash
  | slashAssign
  | hash
  deriving DecidableEq

/-- The spelling of a punctuator. -/
def Punctuator.text : Punctuator → String
  | leftBrace => "\x7b"
  | rightBrace => "\x7d"
  | leftParen => "("
  | rightParen => ")"
  | leftBracket => "["
  | rightBracket => "]"
  | dot => "."
  | ellipsis => "..."
  | semicolon => ";"
  | comma => ","
  | less => "<"
  | greater => ">"
  | lessEqual => "<="
  | greaterEqual => ">="
  | equal => "=="
  | notEqual => "!="
  | strictEqual => "==="
  | strictNotEqual => "!=="
  | plus => "+"
  | minus => "-"
  | star => "*"
  | percent => "%"
  | exponent => "**"
  | increment => "++"
  | decrement => "--"
  | leftShift => "<<"
  | rightShift => ">>"
  | zeroRightShift => ">>>"
  | ampersand => "&"
  | pipe => "|"
  | caret => "^"
  | bang => "!"
  | tilde => "~"
  | logicalAnd => "&&"
  | logicalOr => "||"
  | nullish => "??"
  | question => "?"
  | optionalChain => "?."
  | colon => ":"
  | assign => "="
  | plusAssign => "+="
  | minusAssign => "-="
  | starAssign => "*="
  | percentAssign => "%="
  | exponentAssign => "**="
  | leftShiftAssign => "<<="
  | rightShiftAssign => ">>="
  | zeroRightShiftAssign => ">>>="
  | ampersandAssign => "&="
  | pipeAssign => "|="
  | caretAssign => "^="
  | logicalAndAssign => "&&="
  | logicalOrAssign => "||="
  | nullishAssign => "??="
  | arrow => "=>"
  | slash => "/"
  | slashAssign => "/="
  | hash => "#"

/-! ## 3. Tokens -/

/-- Where a piece of a template literal stands in it. -/
inductive TemplatePlace where
  /-- The only piece. -/
  | whole
  /-- The piece before the first substitution. -/
  | head
  /-- A piece between two substitutions. -/
  | middle
  /-- The piece after the last substitution. -/
  | tail
  deriving DecidableEq

/-- A token of a program text. -/
inductive Token where
  | identifier (name : String)
  | keyword (word : Keyword)
  | number (value : Float)
  | string (value : String)
  | boolean (value : Bool)
  | null
  | regex (pattern flags : String)
  | template (place : TemplatePlace) (cooked : Option String) (raw : String)
  | punctuator (mark : Punctuator)
  | newline
  | eof

namespace Token

/-- How a token is named in a message. -/
def text : Token → String
  | identifier name => name
  | keyword word => word.text
  | number value => Number.text value
  | string value => Text.quoted value
  | boolean true => "true"
  | boolean false => "false"
  | null => "null"
  | regex pattern flags => "/" ++ pattern ++ "/" ++ flags
  | template .whole _ _ => "`"
  | template .head _ _ => "`"
  | template _ _ _ => "\x7d"
  | newline => "line terminator"
  | eof => "end of input"
  | punctuator mark => mark.text

def isMark (t : Token) (mark : Punctuator) : Bool :=
  match t with
  | punctuator m => m = mark
  | _ => false

/-- Whether a token is a given reserved word. -/
def isWord (t : Token) (word : Keyword) : Bool :=
  match t with
  | keyword w => w = word
  | _ => false

/-- Whether a token is a line break. -/
def isNewline : Token → Bool
  | newline => true
  | _ => false

/-- Whether a token is the end of the text. -/
def isEof : Token → Bool
  | eof => true
  | _ => false

end Token

/-- A fault in a program text, and its place. -/
structure LexError where
  message : String
  position : Position
  deriving DecidableEq

end GuestScript
