import GuestScript.Builtin.Regex

/-!
# `String`

Functions of text. Places and lengths count sixteen-bit units. Functions that search take a text or a regular
expression: both give a list of matches, and splitting and replacing work on that list.
-/

namespace GuestScript

/-! ## 1. Texts -/

namespace Text

/-- The longest text that padding and repeating will build, in units. -/
def lengthLimit : Float := 268435456.0

/-- A text repeated a number of times. -/
def repeated (s : String) : Nat → String → String
  | 0, acc => acc
  | count + 1, acc => repeated s count (acc ++ s)

/-- The first `count` units of a text repeated for ever. -/
def cycle (fill : String) (count : Nat) : String :=
  let us := units fill
  ofUnits ((List.range count).map fun i => us.getD (i % us.size) 0)

/-- The code point at a place: of a pair, or of one unit. -/
def pointAt? (s : String) (i : Nat) : Option Nat :=
  let us := units s
  us[i]?.map fun u =>
    match us[i + 1]? with
    | some v => if isHigh u && isLow v then (pairChar u v).toNat else u.toNat
    | none => u.toNat

/-- The places where a text holds another one, each after the end of the one before. -/
def occurrences (us needle : Array UInt16) (all : Bool) : Nat → Nat → List Nat
  | 0, _ => []
  | fuel + 1, start =>
    if us.size < start + needle.size then []
    else
      match indexOfUnits? us needle start with
      | none => []
      | some i =>
        if all then i :: occurrences us needle all fuel (i + max needle.size 1) else [i]

/-- The order of two texts by characters: negative, zero or positive. -/
def compare (a b : String) : Float :=
  if a < b then -1.0 else if b < a then 1.0 else 0.0

end Text

/-- The places where a text holds another one, as matches without groups. -/
def Regex.literalMatches (us needle : Array UInt16) (all : Bool) : List Regex.Match :=
  (Text.occurrences us needle all (us.size + 1) 0).map fun i =>
    { start := i, stop := i + needle.size, groups := #[some (Text.ofUnits needle.toList)], names := #[] }

namespace Eval

/-! ## 2. Arguments -/

def receiverText (receiver : Value) (name : String) : Eval String := do
  if receiver.isNullish then
    throwTypeError ("String.prototype." ++ name ++ " called on null or undefined")
  else toText receiver

/-- The text that a receiver is or wraps. -/
def receiverString (receiver : Value) (name : String) : Eval Value := do
  let refuse : Eval Value :=
    throwTypeError ("String.prototype." ++ name ++ " requires that 'this' be a String")
  match receiver with
  | .string s => pure (.string s)
  | .object id =>
    match (← object id).primitive with
    | some (.string s) => pure (.string s)
    | _ => refuse
  | _ => refuse

/-- The text to search for, which must not be a regular expression. -/
def searchText (v : Value) (name : String) : Eval String := do
  if (← regexOf? v).isSome then
    throwTypeError
      ("First argument to String.prototype." ++ name ++ " must not be a regular expression")
  else toText v

/-- A place within a length: the nearer end for places outside. -/
def clampPlace (x : Float) (size : Nat) : Nat :=
  if x < 0.0 then 0 else min (Number.toNatural64 x) size

def placeArgument (v : Value) (size : Nat) : Eval Nat :=
  return clampPlace (← toInteger v) size

def optionalPlace (v : Value) (size default : Nat) : Eval Nat := do
  if v.isUndefined then pure default else placeArgument v size

/-- The place of an index within a text, if it is in there. -/
def placeWithin? (x : Float) (size : Nat) : Option Nat :=
  if x < 0.0 || x ≥ Number.ofNat size then none else some (Number.toNatural64 x)

/-- The number of a place that may be missing. -/
def placeOrMinusOne : Option Nat → Value
  | some i => .ofNat i
  | none => .number (-1.0)

/-- The regular expression that an argument stands for. -/
def patternRegex (v : Value) (flags : String) : Eval Value := do
  if (← regexOf? v).isSome then pure v
  else
    let source ← if v.isUndefined then pure "(?:)" else toText v
    newRegex source flags

/-! ## 3. Making texts -/

/-- The character of a code point; surrogates are replaced. -/
def pointToChar (x : Float) : Eval Char := do
  if Number.truncate x == x && 0.0 ≤ x && x ≤ 1114111.0 then
    let n := Number.toNatural64 x
    pure (if 0xD800 ≤ n && n ≤ 0xDFFF then Text.replacement else Char.ofNat n)
  else throwFault .rangeError ("Invalid code point " ++ Number.text x)

/-- The pieces of a template with the values between them. -/
def interleave (values : Array Value) : List Value → Nat → String → Eval String
  | [], _, acc => pure acc
  | piece :: rest, i, acc => do
    let acc := acc ++ (← toText piece)
    match rest.isEmpty, values[i + 1]? with
    | false, some v => interleave values rest (i + 1) (acc ++ (← toText v))
    | _, _ => interleave values rest (i + 1) acc

/-- Fill a text up to a length. -/
def padText (s : String) (args : Array Value) (atStart : Bool) : Eval Value := do
  let target ← toInteger (argument args 0)
  let second := argument args 1
  let fill ← if second.isUndefined then pure " " else toText second
  let size := Text.size s
  if target ≤ Number.ofNat size || fill.isEmpty then pure (.string s)
  else if target > Text.lengthLimit then throwFault .rangeError "Invalid string length"
  else
    let padding := Text.cycle fill (Number.toNatural64 target - size)
    pure (.string (if atStart then padding ++ s else s ++ padding))

def repeatText (s : String) (count : Float) : Eval Value := do
  if count < 0.0 || count.isInf then
    throwFault .rangeError ("Invalid count value: " ++ Number.text count)
  else if Number.ofNat (Text.size s) * count > Text.lengthLimit then
    throwFault .rangeError "Invalid string length"
  else if s.isEmpty then pure (.string "")
  else pure (.string (Text.repeated s (Number.toNatural64 count) ""))

/-- Check the name of a normal form; texts are left as they are. -/
def normalizeText (s : String) (form : Value) : Eval Value := do
  let name ← if form.isUndefined then pure "NFC" else toText form
  if ["NFC", "NFD", "NFKC", "NFKD"].contains name then pure (.string s)
  else
    throwFault .rangeError "The normalization form should be one of NFC, NFD, NFKC, NFKD."

/-! ## 4. Splitting -/

/-- The pieces before matches, and the groups of the matches, up to a limit; also where the last match ended,
or `none` when the limit was reached. -/
def splitPieces (us : Array UInt16) (limit : Nat) :
    List Regex.Match → Nat → Array Value → Array Value × Option Nat
  | [], start, acc => (acc, some start)
  | m :: rest, start, acc =>
    let pieces := #[Value.string (Text.sliceUnits us start m.start)] ++ m.captures.map Value.ofText?
    let acc := acc ++ pieces
    if limit ≤ acc.size then (acc.take limit, none) else splitPieces us limit rest m.stop acc

/-- The pieces of a text between matches, up to a limit. -/
def splitAt (us : Array UInt16) (limit : Nat) (ms : List Regex.Match) : Array Value :=
  match splitPieces us limit ms 0 #[] with
  | (acc, none) => acc
  | (acc, some start) => acc.push (.string (Text.sliceUnits us start us.size))

/-- The matches that a regular expression splits a text at. Every search is a step. A match that ends where
the last piece began is passed over. Every search moves the start of the piece or the place of the next
search, neither goes back, and none passes the end, so that twice the size bounds the searches. -/
def splitMatches (r : Regex) (s : Regex.Subject) (size limit : Nat) :
    Nat → Nat → Nat → List Regex.Match → Nat → Eval (List Regex.Match)
  | 0, _, _, acc, _ => pure acc.reverse
  | fuel + 1, start, place, acc, count => do
    if size ≤ place || limit ≤ count then pure acc.reverse
    else
      charge
      match r.findAt? s place with
      | none => pure acc.reverse
      | some m =>
        if size ≤ m.start then pure acc.reverse
        else if m.stop = start then
          splitMatches r s size limit fuel start (max m.start place + 1) acc count
        else
          splitMatches r s size limit fuel m.stop m.stop (m :: acc) (count + m.groups.size)

/-- Split a text by a regular expression. -/
def splitByRegex (s : String) (r : Regex) (limit : Nat) : Eval (Array Value) := do
  let subject := Regex.Subject.ofText s
  let us := Text.units s
  if us.isEmpty then
    pure (if (r.findAt? subject 0).isSome then #[] else #[.string s])
  else
    return splitAt us limit (← splitMatches r subject us.size limit (2 * us.size + 1) 0 0 [] 0)

def splitText (s : String) (separator : Value) (limit : Nat) : Eval (Array Value) := do
  if limit = 0 then pure #[]
  else
    match ← regexOf? separator with
    | some r => splitByRegex s r limit
    | none =>
      if separator.isUndefined then pure #[.string s]
      else
        let needle := Text.units (← toText separator)
        let us := Text.units s
        if needle.isEmpty then
          pure ((Array.range (min us.size limit)).map fun i =>
            .string (Text.sliceUnits us i (i + 1)))
        else pure (splitAt us limit (Regex.literalMatches us needle true))

/-! ## 5. Replacing -/

def replacedMatches (s : String) (pattern : Value) (all : Bool) : Eval (List Regex.Match) := do
  match ← regexOf? pattern with
  | none => return Regex.literalMatches (Text.units s) (Text.units (← toText pattern)) all
  | some r =>
    if r.has 'g' then
      putNamed pattern "lastIndex" (.number 0.0)
      pure (r.findAll (.ofText s))
    else if all then throwTypeError "replaceAll must be called with a global RegExp"
    else return (← execRegex pattern s).toList

/-- The text that a function gives for a match. -/
def callReplacement (f : Value) (m : Regex.Match) (s : String) : Eval String := do
  let named ← if m.hasNames then pure #[← groupsOf m] else pure #[]
  toText (← call f .undefined
    (m.groups.map Value.ofText? ++ #[.ofNat m.start, .string s] ++ named))

/-- Put the replacements of matches into a text; every match is a step. -/
def replaceFrom (us : Array UInt16) (replacement : Regex.Match → Eval String) :
    List Regex.Match → Nat → String → Eval String
  | [], start, acc => pure (acc ++ Text.sliceUnits us start us.size)
  | m :: rest, start, acc => do
    charge
    let acc := acc ++ Text.sliceUnits us start m.start
    replaceFrom us replacement rest m.stop (acc ++ (← replacement m))

def replaceText (s : String) (pattern replacement : Value) (all : Bool) : Eval String := do
  let ms ← replacedMatches s pattern all
  let us := Text.units s
  if ← isCallable replacement then
    replaceFrom us (fun m => callReplacement replacement m s) ms 0 ""
  else
    let template ← toText replacement
    let expand (m : Regex.Match) : Eval String :=
      pure (Regex.expand template m (Text.sliceUnits us 0 m.start)
        (Text.sliceUnits us m.stop us.size))
    replaceFrom us expand ms 0 ""

/-! ## 6. Matching -/

/-- The first match, or all matched texts of a global expression. -/
def matchText (s : String) (pattern : Value) : Eval Value := do
  let regex ← patternRegex pattern ""
  match ← regexOf? regex with
  | none => pure .null
  | some r =>
    if r.has 'g' then
      let ms := r.findAll (.ofText s)
      putNamed regex "lastIndex" (.number 0.0)
      if ms.isEmpty then pure .null
      else newArray (ms.map fun m => Value.string m.text).toArray
    else
      match ← execRegex regex s with
      | some m => matchArray m s
      | none => pure .null

/-- Refuse a regular expression that is not global. -/
def requireGlobal (pattern : Value) : Eval Unit := do
  if (← regexOf? pattern).any fun r => !r.has 'g' then
    throwTypeError "String.prototype.matchAll called with a non-global RegExp argument"

def matchAllText (s : String) (pattern : Value) : Eval Value := do
  requireGlobal pattern
  match ← regexOf? (← patternRegex pattern "g") with
  | some r =>
    let ms ← (r.findAll (.ofText s)).mapM fun m => matchArray m s
    newArray ms.toArray
  | none => newArray #[]

/-- The place of the first match. -/
def searchPlace (s : String) (pattern : Value) : Eval Value := do
  let found := (← regexOf? (← patternRegex pattern "")).bind fun r => r.findAt? (.ofText s) 0
  pure (placeOrMinusOne (found.map Regex.Match.start))

end Eval

/-! ## 7. The functions -/

open Eval in
/-- What the functions of `String` do that make a text from other values. -/
def StringMethod.build (method : StringMethod) (receiver : Value) (args : Array Value) :
    Eval Value := do
  match method with
  | .fromCharCode =>
    let us ← args.toList.mapM fun v => return (Number.toWord (← toNumber v)).toUInt16
    pure (.string (Text.ofUnits us))
  | .fromCodePoint =>
    let cs ← args.toList.mapM fun v => do pointToChar (← toNumber v)
    pure (.string (String.ofList cs))
  | .raw =>
    let pieces ← listOf (← getNamed (argument args 0) "raw")
    return .string (← interleave args pieces.toList 0 "")
  | _ =>
    let instance? ← constructing? receiver
    let given : Option Value := args[0]?
    let s ←
      match given, instance? with
      | none, _ => pure ""
      | some (.symbol symbol), none => pure symbol.text
      | some v, _ => toText v
    match instance? with
    | some id => wrapInto id .string (.string s)
    | none => pure (.string s)

open Eval in
/-- What the functions of `String` do that look into a text. -/
def StringMethod.look (method : StringMethod) (s : String) (args : Array Value) : Eval Value := do
  let first := argument args 0
  let second := argument args 1
  let size := Text.size s
  match method with
  | .charAt =>
    pure <|
      match placeWithin? (← toInteger first) size with
      | some i => .string (Text.slice s i (i + 1))
      | none => .string ""
  | .charCodeAt =>
    pure <|
      match (placeWithin? (← toInteger first) size).bind (Text.unitAt? s) with
      | some u => .ofNat u.toNat
      | none => .number Number.nan
  | .codePointAt =>
    pure <|
      match (placeWithin? (← toInteger first) size).bind (Text.pointAt? s) with
      | some n => .ofNat n
      | none => .undefined
  | .unitAt =>
    let x ← toInteger first
    pure <|
      match placeWithin? (if x < 0.0 then Number.ofNat size + x else x) size with
      | some i => .string (Text.slice s i (i + 1))
      | none => .undefined
  | .indexOf =>
    let needle ← toText first
    return placeOrMinusOne (Text.indexOf? s needle (← placeArgument second size))
  | .lastIndexOf =>
    let needle ← toText first
    let x ← toNumber second
    let start := if x.isNaN then size else clampPlace (Number.toInteger x) size
    pure (placeOrMinusOne (Text.lastIndexOf? s needle start))
  | .includes =>
    let needle ← searchText first "includes"
    return .boolean (Text.indexOf? s needle (← placeArgument second size)).isSome
  | .startsWith =>
    let needle := Text.units (← searchText first "startsWith")
    return .boolean (Text.matchesAt (Text.units s) needle (← placeArgument second size))
  | .endsWith =>
    let needle := Text.units (← searchText first "endsWith")
    let stop ← optionalPlace second size size
    pure (.boolean (needle.size ≤ stop
      && Text.matchesAt (Text.units s) needle (stop - needle.size)))
  | .slice =>
    let start ← relativeArgument first size 0
    return .string (Text.slice s start (← relativeArgument second size size))
  | .substring =>
    let start ← placeArgument first size
    let stop ← optionalPlace second size size
    pure (.string (Text.slice s (min start stop) (max start stop)))
  | .substr =>
    let start ← relativeArgument first size 0
    let count ← optionalPlace second (size - start) (size - start)
    pure (.string (Text.slice s start (start + count)))
  | _ => return .number (Text.compare s (← toText first))

open Eval in
/-- What the functions of `String` do that change a text. -/
def StringMethod.transform (method : StringMethod) (s : String) (args : Array Value) :
    Eval Value := do
  let first := argument args 0
  match method with
  | .toUpperCase | .toLocaleUpperCase => pure (.string (Text.toUpper s))
  | .toLowerCase | .toLocaleLowerCase => pure (.string (Text.toLower s))
  | .trim => pure (.string (Text.trimBy Text.isScriptBlank s))
  | .trimStart => pure (.string (Text.trimStartBy Text.isScriptBlank s))
  | .trimEnd => pure (.string (Text.trimEndBy Text.isScriptBlank s))
  | .padStart => padText s args true
  | .padEnd => padText s args false
  | .repeated => do repeatText s (← toInteger first)
  | .concat =>
    return .string (← args.toList.foldlM (fun acc v => return acc ++ (← toText v)) s)
  | .normalize => normalizeText s first
  | .split =>
    let second := argument args 1
    let limit ←
      if second.isUndefined then pure 4294967295
      else do pure (Number.toWord (← toNumber second)).toNat
    newArray (← splitText s first limit)
  | .replace => return .string (← replaceText s first (argument args 1) false)
  | .replaceAll => return .string (← replaceText s first (argument args 1) true)
  | .matchFirst => matchText s first
  | .matchAll => matchAllText s first
  | _ => searchPlace s first

open Eval in
/-- What the functions of `String` do. -/
def StringMethod.run (method : StringMethod) (receiver : Value) (args : Array Value) :
    Eval Value := do
  let name := method.signature.1
  match method with
  | .make | .fromCharCode | .fromCodePoint | .raw => method.build receiver args
  | .toString | .valueOf => receiverString receiver name
  | .charAt | .charCodeAt | .codePointAt | .unitAt | .indexOf | .lastIndexOf | .includes
  | .startsWith | .endsWith | .slice | .substring | .substr | .localeCompare =>
    method.look (← receiverText receiver name) args
  | .toUpperCase | .toLowerCase | .toLocaleUpperCase | .toLocaleLowerCase | .trim | .trimStart
  | .trimEnd | .padStart | .padEnd | .repeated | .concat | .normalize | .split | .replace
  | .replaceAll | .matchFirst | .matchAll | .search =>
    method.transform (← receiverText receiver name) args

end GuestScript
