import GuestScript.Diagnostic

/-!
# The catalogue of built-in functions

Every function that a script finds without writing it, with its name and the number of arguments that it
announces. What a function does is said family by family in the modules beside this one; here they are only
listed, so that a heap can hold them.
-/

namespace GuestScript

/-! ## 1. Families -/

/-- Functions of `Object` and of the prototype of all objects. -/
inductive ObjectMethod where
  | make
  | keys
  | values
  | entries
  | assign
  | freeze
  | isFrozen
  | preventExtensions
  | isExtensible
  | create
  | getPrototypeOf
  | setPrototypeOf
  | defineProperty
  | defineProperties
  | getOwnPropertyNames
  | getOwnPropertySymbols
  | getOwnPropertyDescriptor
  | fromEntries
  | is
  | hasOwnProperty
  | isPrototypeOf
  | propertyIsEnumerable
  | toString
  | toLocaleString
  | valueOf
  deriving DecidableEq

namespace ObjectMethod

/-- The name of a function and how many arguments it announces. -/
def signature : ObjectMethod → String × Nat
  | make => ("Object", 1)
  | keys => ("keys", 1)
  | values => ("values", 1)
  | entries => ("entries", 1)
  | assign => ("assign", 2)
  | freeze => ("freeze", 1)
  | isFrozen => ("isFrozen", 1)
  | preventExtensions => ("preventExtensions", 1)
  | isExtensible => ("isExtensible", 1)
  | create => ("create", 2)
  | getPrototypeOf => ("getPrototypeOf", 1)
  | setPrototypeOf => ("setPrototypeOf", 2)
  | defineProperty => ("defineProperty", 3)
  | defineProperties => ("defineProperties", 2)
  | getOwnPropertyNames => ("getOwnPropertyNames", 1)
  | getOwnPropertySymbols => ("getOwnPropertySymbols", 1)
  | getOwnPropertyDescriptor => ("getOwnPropertyDescriptor", 2)
  | fromEntries => ("fromEntries", 1)
  | is => ("is", 2)
  | hasOwnProperty => ("hasOwnProperty", 1)
  | isPrototypeOf => ("isPrototypeOf", 1)
  | propertyIsEnumerable => ("propertyIsEnumerable", 1)
  | toString => ("toString", 0)
  | toLocaleString => ("toLocaleString", 0)
  | valueOf => ("valueOf", 0)

end ObjectMethod

/-- Functions of the prototype of all functions, which is itself a function that does nothing. -/
inductive FunctionMethod where
  | nothing
  | call
  | apply
  | bind
  | toString
  deriving DecidableEq

namespace FunctionMethod

/-- The name of a function and how many arguments it announces. -/
def signature : FunctionMethod → String × Nat
  | nothing => ("", 0)
  | call => ("call", 1)
  | apply => ("apply", 2)
  | bind => ("bind", 1)
  | toString => ("toString", 0)

end FunctionMethod

/-- Functions of `Array` and of the prototype of all arrays. -/
inductive ArrayMethod where
  | make
  | isArray
  | ofItems
  | ofIterable
  | push
  | pop
  | shift
  | unshift
  | splice
  | reverse
  | fill
  | copyWithin
  | sort
  | forEach
  | map
  | filter
  | anyOf
  | allOf
  | find
  | findIndex
  | findLast
  | findLastIndex
  | reduce
  | reduceRight
  | flatMap
  | elementAt
  | concat
  | slice
  | indexOf
  | lastIndexOf
  | includes
  | join
  | toString
  | toLocaleString
  | flat
  | keys
  | values
  | entries
  | toReversed
  | toSorted
  | toSpliced
  | replaced
  deriving DecidableEq

namespace ArrayMethod

/-- The name of a function and how many arguments it announces. -/
def signature : ArrayMethod → String × Nat
  | make => ("Array", 1)
  | isArray => ("isArray", 1)
  | ofItems => ("of", 0)
  | ofIterable => ("from", 1)
  | push => ("push", 1)
  | pop => ("pop", 0)
  | shift => ("shift", 0)
  | unshift => ("unshift", 1)
  | splice => ("splice", 2)
  | reverse => ("reverse", 0)
  | fill => ("fill", 1)
  | copyWithin => ("copyWithin", 2)
  | sort => ("sort", 1)
  | forEach => ("forEach", 1)
  | map => ("map", 1)
  | filter => ("filter", 1)
  | anyOf => ("some", 1)
  | allOf => ("every", 1)
  | find => ("find", 1)
  | findIndex => ("findIndex", 1)
  | findLast => ("findLast", 1)
  | findLastIndex => ("findLastIndex", 1)
  | reduce => ("reduce", 1)
  | reduceRight => ("reduceRight", 1)
  | flatMap => ("flatMap", 1)
  | elementAt => ("at", 1)
  | concat => ("concat", 1)
  | slice => ("slice", 2)
  | indexOf => ("indexOf", 1)
  | lastIndexOf => ("lastIndexOf", 1)
  | includes => ("includes", 1)
  | join => ("join", 1)
  | toString => ("toString", 0)
  | toLocaleString => ("toLocaleString", 0)
  | flat => ("flat", 0)
  | keys => ("keys", 0)
  | values => ("values", 0)
  | entries => ("entries", 0)
  | toReversed => ("toReversed", 0)
  | toSorted => ("toSorted", 1)
  | toSpliced => ("toSpliced", 2)
  | replaced => ("with", 2)

end ArrayMethod

/-- Functions of `String` and of the prototype of all strings. -/
inductive StringMethod where
  | make
  | fromCharCode
  | fromCodePoint
  | raw
  | charAt
  | charCodeAt
  | codePointAt
  | unitAt
  | indexOf
  | lastIndexOf
  | includes
  | startsWith
  | endsWith
  | slice
  | substring
  | substr
  | localeCompare
  | toString
  | valueOf
  | toUpperCase
  | toLowerCase
  | toLocaleUpperCase
  | toLocaleLowerCase
  | trim
  | trimStart
  | trimEnd
  | padStart
  | padEnd
  | repeated
  | concat
  | normalize
  | split
  | replace
  | replaceAll
  | matchFirst
  | matchAll
  | search
  deriving DecidableEq

namespace StringMethod

/-- The name of a function and how many arguments it announces. -/
def signature : StringMethod → String × Nat
  | make => ("String", 1)
  | fromCharCode => ("fromCharCode", 1)
  | fromCodePoint => ("fromCodePoint", 1)
  | raw => ("raw", 1)
  | charAt => ("charAt", 1)
  | charCodeAt => ("charCodeAt", 1)
  | codePointAt => ("codePointAt", 1)
  | unitAt => ("at", 1)
  | indexOf => ("indexOf", 1)
  | lastIndexOf => ("lastIndexOf", 1)
  | includes => ("includes", 1)
  | startsWith => ("startsWith", 1)
  | endsWith => ("endsWith", 1)
  | slice => ("slice", 2)
  | substring => ("substring", 2)
  | substr => ("substr", 2)
  | localeCompare => ("localeCompare", 1)
  | toString => ("toString", 0)
  | valueOf => ("valueOf", 0)
  | toUpperCase => ("toUpperCase", 0)
  | toLowerCase => ("toLowerCase", 0)
  | toLocaleUpperCase => ("toLocaleUpperCase", 0)
  | toLocaleLowerCase => ("toLocaleLowerCase", 0)
  | trim => ("trim", 0)
  | trimStart => ("trimStart", 0)
  | trimEnd => ("trimEnd", 0)
  | padStart => ("padStart", 2)
  | padEnd => ("padEnd", 2)
  | repeated => ("repeat", 1)
  | concat => ("concat", 1)
  | normalize => ("normalize", 0)
  | split => ("split", 2)
  | replace => ("replace", 2)
  | replaceAll => ("replaceAll", 2)
  | matchFirst => ("match", 1)
  | matchAll => ("matchAll", 1)
  | search => ("search", 1)

end StringMethod

/-- Functions of `Number` and of the prototype of all numbers. -/
inductive NumberMethod where
  | make
  | isFinite
  | isNaN
  | isInteger
  | isSafeInteger
  | toString
  | toLocaleString
  | valueOf
  | toFixed
  | toExponential
  | toPrecision
  deriving DecidableEq

namespace NumberMethod

/-- The name of a function and how many arguments it announces. -/
def signature : NumberMethod → String × Nat
  | make => ("Number", 1)
  | isFinite => ("isFinite", 1)
  | isNaN => ("isNaN", 1)
  | isInteger => ("isInteger", 1)
  | isSafeInteger => ("isSafeInteger", 1)
  | toString => ("toString", 1)
  | toLocaleString => ("toLocaleString", 0)
  | valueOf => ("valueOf", 0)
  | toFixed => ("toFixed", 1)
  | toExponential => ("toExponential", 1)
  | toPrecision => ("toPrecision", 1)

end NumberMethod

/-- Functions of `Boolean` and of the prototype of all truth values. -/
inductive BooleanMethod where
  | make
  | toString
  | valueOf
  deriving DecidableEq

namespace BooleanMethod

/-- The name of a function and how many arguments it announces. -/
def signature : BooleanMethod → String × Nat
  | make => ("Boolean", 1)
  | toString => ("toString", 0)
  | valueOf => ("valueOf", 0)

end BooleanMethod

/-- Functions of `Symbol` and of the prototype of all symbols. -/
inductive SymbolMethod where
  | make
  | registered
  | keyFor
  | toString
  | valueOf
  | description
  deriving DecidableEq

namespace SymbolMethod

/-- The name of a function and how many arguments it announces. -/
def signature : SymbolMethod → String × Nat
  | make => ("Symbol", 0)
  | registered => ("for", 1)
  | keyFor => ("keyFor", 1)
  | toString => ("toString", 0)
  | valueOf => ("valueOf", 0)
  | description => ("get description", 0)

end SymbolMethod

/-- Functions of `Math`. -/
inductive MathMethod where
  | abs
  | ceil
  | floor
  | round
  | trunc
  | sign
  | sqrt
  | cbrt
  | exp
  | expm1
  | log
  | log1p
  | log2
  | log10
  | sin
  | cos
  | tan
  | asin
  | acos
  | atan
  | sinh
  | cosh
  | tanh
  | asinh
  | acosh
  | atanh
  | fround
  | clz32
  | max
  | min
  | pow
  | atan2
  | hypot
  | imul
  | random
  deriving DecidableEq

namespace MathMethod

/-- The name of a function and how many arguments it announces. -/
def signature : MathMethod → String × Nat
  | abs => ("abs", 1)
  | ceil => ("ceil", 1)
  | floor => ("floor", 1)
  | round => ("round", 1)
  | trunc => ("trunc", 1)
  | sign => ("sign", 1)
  | sqrt => ("sqrt", 1)
  | cbrt => ("cbrt", 1)
  | exp => ("exp", 1)
  | expm1 => ("expm1", 1)
  | log => ("log", 1)
  | log1p => ("log1p", 1)
  | log2 => ("log2", 1)
  | log10 => ("log10", 1)
  | sin => ("sin", 1)
  | cos => ("cos", 1)
  | tan => ("tan", 1)
  | asin => ("asin", 1)
  | acos => ("acos", 1)
  | atan => ("atan", 1)
  | sinh => ("sinh", 1)
  | cosh => ("cosh", 1)
  | tanh => ("tanh", 1)
  | asinh => ("asinh", 1)
  | acosh => ("acosh", 1)
  | atanh => ("atanh", 1)
  | fround => ("fround", 1)
  | clz32 => ("clz32", 1)
  | max => ("max", 2)
  | min => ("min", 2)
  | pow => ("pow", 2)
  | atan2 => ("atan2", 2)
  | hypot => ("hypot", 2)
  | imul => ("imul", 2)
  | random => ("random", 0)

end MathMethod

/-- Functions of `JSON`. -/
inductive JsonMethod where
  | parse
  | stringify
  deriving DecidableEq

namespace JsonMethod

/-- The name of a function and how many arguments it announces. -/
def signature : JsonMethod → String × Nat
  | parse => ("parse", 2)
  | stringify => ("stringify", 3)

end JsonMethod

/-- Functions of `RegExp` and of the prototype of all regular expressions. -/
inductive RegexMethod where
  | make
  | exec
  | test
  | toString
  | source
  | flags
  | global
  | ignoreCase
  | multiline
  | dotAll
  | unicode
  | sticky
  | hasIndices
  deriving DecidableEq

namespace RegexMethod

/-- The name of a function and how many arguments it announces. -/
def signature : RegexMethod → String × Nat
  | make => ("RegExp", 2)
  | exec => ("exec", 1)
  | test => ("test", 1)
  | toString => ("toString", 0)
  | source => ("get source", 0)
  | flags => ("get flags", 0)
  | global => ("get global", 0)
  | ignoreCase => ("get ignoreCase", 0)
  | multiline => ("get multiline", 0)
  | dotAll => ("get dotAll", 0)
  | unicode => ("get unicode", 0)
  | sticky => ("get sticky", 0)
  | hasIndices => ("get hasIndices", 0)

end RegexMethod

/-- Functions that are global names themselves. -/
inductive GlobalMethod where
  | parseInt
  | parseFloat
  | isNaN
  | isFinite
  | encodeURI
  | encodeURIComponent
  | decodeURI
  | decodeURIComponent
  | escape
  | unescape
  deriving DecidableEq

namespace GlobalMethod

/-- The name of a function and how many arguments it announces. -/
def signature : GlobalMethod → String × Nat
  | parseInt => ("parseInt", 2)
  | parseFloat => ("parseFloat", 1)
  | isNaN => ("isNaN", 1)
  | isFinite => ("isFinite", 1)
  | encodeURI => ("encodeURI", 1)
  | encodeURIComponent => ("encodeURIComponent", 1)
  | decodeURI => ("decodeURI", 1)
  | decodeURIComponent => ("decodeURIComponent", 1)
  | escape => ("escape", 1)
  | unescape => ("unescape", 1)

end GlobalMethod

/-- Functions of the four keyed collections. -/
inductive CollectionMethod where
  | has
  | delete
  | get
  | set
  | add
  | clear
  | forEach
  | keys
  | values
  | entries
  | size
  deriving DecidableEq

namespace CollectionMethod

/-- The name of a function and how many arguments it announces. -/
def signature : CollectionMethod → String × Nat
  | has => ("has", 1)
  | delete => ("delete", 1)
  | get => ("get", 1)
  | set => ("set", 2)
  | add => ("add", 1)
  | clear => ("clear", 0)
  | forEach => ("forEach", 1)
  | keys => ("keys", 0)
  | values => ("values", 0)
  | entries => ("entries", 0)
  | size => ("get size", 0)

end CollectionMethod

/-- The parts of a date, the day of the week last. -/
inductive DateField where
  | year
  | month
  | day
  | hours
  | minutes
  | seconds
  | milliseconds
  | weekday
  deriving DecidableEq

namespace DateField

/-- The place of a part among the parts of a date. -/
def index : DateField → Nat
  | year => 0
  | month => 1
  | day => 2
  | hours => 3
  | minutes => 4
  | seconds => 5
  | milliseconds => 6
  | weekday => 7

/-- The name of a part within the names of the functions that read and write it. -/
def name : DateField → String
  | year => "FullYear"
  | month => "Month"
  | day => "Date"
  | hours => "Hours"
  | minutes => "Minutes"
  | seconds => "Seconds"
  | milliseconds => "Milliseconds"
  | weekday => "Day"

/-- How many parts, from this one on, can be written at once. -/
def writable : DateField → Nat
  | year => 3
  | month => 2
  | day => 1
  | hours => 4
  | minutes => 3
  | seconds => 2
  | milliseconds => 1
  | weekday => 0

end DateField

/-- Functions of `Date` and of the prototype of all dates. -/
inductive DateMethod where
  | make
  | now
  | parse
  | utc
  | read (field : DateField) (universal : Bool)
  | write (field : DateField) (universal : Bool)
  | getTime
  | valueOf
  | setTime
  | getTimezoneOffset
  | toISOString
  | toJSON
  | toString
  | toUTCString
  | toDateString
  | toTimeString
  | toLocaleDateString
  | toLocaleTimeString
  | toLocaleString
  deriving DecidableEq

/-- The name of a function and how many arguments it announces. -/
def DateMethod.signature : DateMethod → String × Nat
  | make => ("Date", 7)
  | now => ("now", 0)
  | parse => ("parse", 1)
  | utc => ("UTC", 7)
  | read field universal => ((if universal then "getUTC" else "get") ++ field.name, 0)
  | write field universal => ((if universal then "setUTC" else "set") ++ field.name, field.writable)
  | getTime => ("getTime", 0)
  | valueOf => ("valueOf", 0)
  | setTime => ("setTime", 1)
  | getTimezoneOffset => ("getTimezoneOffset", 0)
  | toISOString => ("toISOString", 0)
  | toJSON => ("toJSON", 1)
  | toString => ("toString", 0)
  | toUTCString => ("toUTCString", 0)
  | toDateString => ("toDateString", 0)
  | toTimeString => ("toTimeString", 0)
  | toLocaleDateString => ("toLocaleDateString", 0)
  | toLocaleTimeString => ("toLocaleTimeString", 0)
  | toLocaleString => ("toLocaleString", 0)

/-- The four keyed collections. -/
inductive CollectionKind where
  | map
  | set
  | weakMap
  | weakSet
  deriving DecidableEq

namespace CollectionKind

/-- The name of a collection's constructor. -/
def name : CollectionKind → String
  | map => "Map"
  | set => "Set"
  | weakMap => "WeakMap"
  | weakSet => "WeakSet"

/-- Whether a collection holds a value for each key. -/
def isKeyed : CollectionKind → Bool
  | map | weakMap => true
  | set | weakSet => false

/-- Whether a collection takes objects only and cannot be listed. -/
def isWeak : CollectionKind → Bool
  | weakMap | weakSet => true
  | map | set => false

end CollectionKind

/-! ## 2. All functions -/

/-- A built-in function. -/
inductive Builtin where
  | object (method : ObjectMethod)
  | function (method : FunctionMethod)
  | array (method : ArrayMethod)
  | string (method : StringMethod)
  | number (method : NumberMethod)
  | boolean (method : BooleanMethod)
  | symbol (method : SymbolMethod)
  | makeError (kind : ErrorKind)
  | errorToString
  | math (method : MathMethod)
  | json (method : JsonMethod)
  | date (method : DateMethod)
  | regex (method : RegexMethod)
  | makeCollection (kind : CollectionKind)
  | collection (kind : CollectionKind) (method : CollectionMethod)
  | global (method : GlobalMethod)
  deriving DecidableEq

namespace Builtin

/-- The name of a function and how many arguments it announces. -/
def signature : Builtin → String × Nat
  | object method => method.signature
  | function method => method.signature
  | array method => method.signature
  | string method => method.signature
  | number method => method.signature
  | boolean method => method.signature
  | symbol method => method.signature
  | makeError kind => (kind.name, 1)
  | errorToString => ("toString", 0)
  | math method => method.signature
  | json method => method.signature
  | date method => method.signature
  | regex method => method.signature
  | makeCollection kind => (kind.name, 0)
  | collection _ method => method.signature
  | global method => method.signature

/-- The name of a function. -/
def name (b : Builtin) : String :=
  b.signature.1

/-- How many arguments a function announces. -/
def arity (b : Builtin) : Nat :=
  b.signature.2

/-- Whether a function can be used with `new`. -/
def isConstructor : Builtin → Bool
  | object .make | array .make | string .make | number .make | boolean .make | symbol .make
  | makeError _ | date .make | regex .make | makeCollection _ => true
  | _ => false

end Builtin

end GuestScript
