import GuestScript.Builtin.Basic
import GuestScript.Text.Percent

/-!
# Global functions

Reading numbers from the front of a text, and percent escapes.
-/

namespace GuestScript

namespace Number

/-- A sign at the front of a text, and what follows it. -/
def readSign : List Char → Bool × List Char
  | '-' :: rest => (true, rest)
  | '+' :: rest => (false, rest)
  | rest => (false, rest)

/-- Leave out a hexadecimal mark; without a radix it sets the radix. -/
def readRadixMark (radix : Int) (cs : List Char) : Int × List Char :=
  if radix = 0 || radix = 16 then
    match cs with
    | '0' :: 'x' :: rest | '0' :: 'X' :: rest => (16, rest)
    | _ => (if radix = 0 then 10 else radix, cs)
  else (radix, cs)

/-- The integer at the front of a text in a radix, or in the one that the text announces. -/
def readInteger (s : String) (radix : Int) : Float :=
  let (negative, cs) := readSign (Text.dropFront Text.isScriptBlank s.toList)
  let (radix, cs) := readRadixMark radix cs
  if radix < 2 || radix > 36 then nan
  else
    let r := radix.toNat
    let digits := (cs.map (digitOf? r)).takeWhile Option.isSome
    if digits.isEmpty then nan
    else
      withSign negative
        (digits.foldl (fun x d => x * ofNat r + ofNat (d.getD 0)) 0.0)

/-- An exponent at the front of a text, if there is a whole one. -/
def exponentPart (cs : List Char) : List Char :=
  match cs with
  | c :: rest =>
    if c = 'e' || c = 'E' then
      let sign := rest.take 1 |>.filter fun c => c = '+' || c = '-'
      let digits := (takeDigits (rest.drop sign.length)).1
      if digits.isEmpty then [] else c :: sign ++ digits
    else []
  | [] => []

/-- The characters of the longest decimal number at the front of a text. -/
def decimalPart (cs : List Char) : List Char :=
  let sign := cs.take 1 |>.filter fun c => c = '+' || c = '-'
  let (whole, rest) := takeDigits (cs.drop sign.length)
  let (fraction, rest) :=
    match rest with
    | '.' :: r => ('.' :: (takeDigits r).1, (takeDigits r).2)
    | r => ([], r)
  if whole.isEmpty && fraction.length ≤ 1 then []
  else sign ++ whole ++ fraction ++ exponentPart rest

/-- The decimal number at the front of a text. -/
def readLeading (s : String) : Float :=
  let cs := Text.dropFront Text.isScriptBlank s.toList
  let startsWith (text : String) : Bool := text.toList.isPrefixOf cs
  if startsWith "Infinity" || startsWith "+Infinity" then infinity
  else if startsWith "-Infinity" then -infinity
  else (read? (String.ofList (decimalPart cs))).getD nan

end Number

open Eval in
/-- What the global functions do. -/
def GlobalMethod.run (method : GlobalMethod) (args : Array Value) : Eval Value := do
  let first := argument args 0
  let decoded (kept : List Char) : Eval Value := do
    match Text.decodeLink? kept (← toText first) with
    | some s => pure (.string s)
    | none => throwFault .uriError "URI malformed"
  match method with
  | .parseInt =>
    let s ← toText first
    let radix ← toNumber (argument args 1)
    pure (.number (Number.readInteger s (Number.toSigned32 radix)))
  | .parseFloat => return .number (Number.readLeading (← toText first))
  | .isNaN => return .boolean (← toNumber first).isNaN
  | .isFinite => return .boolean (← toNumber first).isFinite
  | .encodeURI => return .string (Text.encodeLink Text.linkSeparators (← toText first))
  | .encodeURIComponent => return .string (Text.encodeLink [] (← toText first))
  | .decodeURI => decoded Text.linkSeparators
  | .decodeURIComponent => decoded []
  | .escape => return .string (Text.escapeUnits (← toText first))
  | .unescape => return .string (Text.unescapeUnits (← toText first))

end GuestScript
