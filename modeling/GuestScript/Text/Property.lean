import GuestScript.Text.Age
import GuestScript.Text.Break
import GuestScript.Text.Category
import GuestScript.Text.Script
import GuestScript.Text.Trait

/-!
# Properties by name

Sets of characters by the names that the character standard gives them: traits, general categories and
scripts by their names alone, and those with values by a name and a value.

* `named` looks a name up in traits, categories and scripts.
* `valued` looks up a value of a property that has values.
* `isWord` says which characters make up words: letters, marks, digits, connecting punctuation and joiners.
* `isIdentifierStart` and `isIdentifierPart` say which characters make up identifiers.
-/

namespace GuestScript.Text

/-! ## 1. Families -/

/-- All sets that others are built from. -/
def namedSets : List NamedSet :=
  traits ++ categories ++ scripts

def trait? (name : String) : Option Ranges :=
  NamedSet.resolveIn namedSets traits name

/-- The set of a general category or of a group of them by its loose name. -/
def category? (name : String) : Option Ranges :=
  NamedSet.resolve categories (isNamed name)

/-- The characters that belong to a script, by its loose name. -/
def script? (name : String) : Option Ranges :=
  NamedSet.resolve scripts (isNamed name)

/-- The characters that a script uses, by its loose name. -/
def scriptExtension? (name : String) : Option Ranges :=
  (scripts.find? fun script => isNamed name script.names).map extended

/-- The code points of some categories. -/
def categorySet (names : List String) : Ranges :=
  NamedSet.join (names.filterMap fun n => category? (looseName n))

/-- Names of the properties that are not traits. -/
def valuedNames : List String := [
   "Age", "Bidi_Class", "bc", "Bidi_Mirroring_Glyph", "bmg", "Bidi_Paired_Bracket", "bpb",
   "Bidi_Paired_Bracket_Type", "bpt", "Block", "blk", "Canonical_Combining_Class", "ccc",
   "Case_Folding", "cf", "Changes_When_NFKC_Casefolded", "cwkcf", "Composition_Exclusion", "ce",
   "Decomposition_Mapping", "dm", "Decomposition_Type", "dt", "East_Asian_Width", "ea",
   "Equivalent_Unified_Ideograph", "equideo", "Expands_On_NFC", "xonfc", "Expands_On_NFD", "xonfd",
   "Expands_On_NFKC", "xonfkc", "Expands_On_NFKD", "xonfkd", "FC_NFKC_Closure", "fcnfkc",
   "Full_Composition_Exclusion", "compex", "General_Category", "gc", "Grapheme_Cluster_Break", "gcb",
   "Hangul_Syllable_Type", "hst", "ISO_Comment", "isc", "ocomment", "Indic_Conjunct_Break", "incb",
   "Indic_Positional_Category", "inpc", "Indic_Syllabic_Category", "insc", "Jamo_Short_Name", "jsn",
   "Joining_Group", "jg", "Joining_Type", "jt", "Line_Break", "lb", "Lowercase_Mapping", "lc",
   "NFC_Quick_Check", "nfcqc", "NFD_Quick_Check", "nfdqc", "NFKC_Casefold", "nfkccf",
   "NFKC_Quick_Check", "nfkcqc", "NFKC_Simple_Casefold", "nfkcscf", "NFKD_Quick_Check", "nfkdqc",
   "Name", "na", "Name_Alias", "Numeric_Type", "nt", "Numeric_Value", "nv", "Script", "sc",
   "Script_Extensions", "scx", "Sentence_Break", "sb", "Simple_Case_Folding", "scf", "sfc",
   "Simple_Lowercase_Mapping", "slc", "Simple_Titlecase_Mapping", "stc", "Simple_Uppercase_Mapping",
   "suc", "Titlecase_Mapping", "tc", "Unicode_1_Name", "na1", "Uppercase_Mapping", "uc",
   "Vertical_Orientation", "vo", "Word_Break", "wb", "kAccountingNumeric", "cjkaccountingnumeric",
   "kCompatibilityVariant", "cjkcompatibilityvariant", "kEH_Cat", "kEH_Desc", "kEH_HG", "kEH_IFAO",
   "kEH_JSesh", "kEH_NoMirror", "kEH_NoRotate", "kIICore", "cjkiicore", "kIRG_GSource",
   "cjkirggsource", "kIRG_HSource", "cjkirghsource", "kIRG_JSource", "cjkirgjsource", "kIRG_KPSource",
   "cjkirgkpsource", "kIRG_KSource", "cjkirgksource", "kIRG_MSource", "cjkirgmsource", "kIRG_SSource",
   "cjkirgssource", "kIRG_TSource", "cjkirgtsource", "kIRG_UKSource", "cjkirguksource",
   "kIRG_USource", "cjkirgusource", "kIRG_VSource", "cjkirgvsource", "kOtherNumeric",
   "cjkothernumeric", "kPrimaryNumeric", "cjkprimarynumeric", "kRSUnicode", "cjkrsunicode",
   "unicoderadicalstroke", "urs"]

/-! ## 2. Queries -/

/-- Why a query has no set. -/
inductive PropertyFault where
  | name
  | value

/-- The answer to a query whose name is known. -/
def answer (set : Option Ranges) : Except PropertyFault Ranges :=
  match set with
  | some s => .ok s
  | none => .error .value

/-- The set of a name: a trait, a category or a script. Three short names belong to categories although
properties have them too; any other property that is not a trait has no set of its own. -/
def named (name : String) : Except PropertyFault Ranges :=
  let loose := looseName name
  let isShared := loose == "cf" || loose == "sc" || loose == "lc"
  if !isShared && isNamed loose valuedNames then .error .name
  else if isNamed loose (surrogateNames ++ bareScriptNames) then .error .value
  else
    match trait? loose <|> category? loose <|> script? loose with
    | some set => .ok set
    | none => .error .name

def valued (name value : String) : Except PropertyFault Ranges :=
  let loose := looseName name
  let looseValue := looseName value
  if isNamed loose ["General_Category", "gc"] then answer (category? looseValue)
  else if isNamed loose ["Script", "sc"] then answer (script? looseValue)
  else if isNamed loose ["Script_Extensions", "scx"] then answer (scriptExtension? looseValue)
  else if isNamed loose ["Age"] then answer (age? looseValue)
  else if isNamed loose ["Grapheme_Cluster_Break", "gcb"] then
    answer (NamedSet.resolveIn namedSets graphemeBreaks looseValue)
  else if isNamed loose ["Word_Break", "wb"] then
    answer (NamedSet.resolveIn namedSets wordBreaks looseValue)
  else if isNamed loose ["Sentence_Break", "sb"] then
    answer (NamedSet.resolveIn namedSets sentenceBreaks looseValue)
  else if isNamed loose valuedNames || traits.any fun t => isNamed loose t.names then .error .value
  else .error .name

/-! ## 3. Letters and digits -/

/-- Letters that are newer than the tables of traits. -/
def newLetters : Ranges := Ranges.ofText
  "88F C5C DC A7CE-CF D2 D4 F1 10940-59 10EC5-C7 FA-FB 11B60-67 11DB0-DB 16EA0-B8 BB-D3 16FF2-F6 187F8-FF 18D09-1E 80-F2
   1E6C0-DE E0-F5 FE-FF 2B73A-3F 2CEA2-AD 323B0-33479"

/-- Numbers that are newer than the tables of categories. -/
def newNumbers : Ranges := Ranges.ofText "11DE0-E9 16FF4-F6"

/-- Letters and what counts as one. -/
def alphabetic : Ranges := NamedSet.join [(trait? "alphabetic").getD #[], newLetters]

def numeric : Ranges := NamedSet.join [categorySet ["N"], newNumbers]

/-- Whether a character is a letter. -/
def isAlphabetic (c : Char) : Bool :=
  if c.toNat < 0x80 then c.isAlpha else alphabetic.contains c.toNat

/-- Whether a character is a letter or a number. -/
def isAlphanumeric (c : Char) : Bool :=
  if c.toNat < 0x80 then c.isAlphanum else isAlphabetic c || numeric.contains c.toNat

/-- The blanks as a set. -/
def blankRanges : Ranges := (trait? "whitespace").getD #[]

/-! ## 4. Words -/

/-- The characters of words. -/
def wordRanges : Ranges :=
  NamedSet.join [(trait? "alphabetic").getD #[], categorySet ["M", "Nd", "Pc"],
    (trait? "joincontrol").getD #[]]

/-- Whether a character is an ASCII letter, a digit or an underscore. -/
def isAsciiWord (c : Char) : Bool :=
  c.isAlpha || c.isDigit || c = '_'

/-- Whether a character belongs to words. -/
def isWord (c : Char) : Bool :=
  if c.toNat < 0x80 then isAsciiWord c else wordRanges.contains c.toNat

/-! ## 5. Identifiers

An identifier starts with a letter-like character, `_` or `$`, and goes on with those, digits, marks and the
two joiners. The traits say which characters are meant, as they are closed under compatibility normalisation;
some characters are newer than the tables of traits. -/

/-- Characters that can start an identifier. -/
def identifierStart : Ranges := NamedSet.join [(trait? "xidstart").getD #[], Ranges.ofText
  "558 8B-8C 88F C5C DC 209D-9F A7CE-CF D2 D4 DD-E2 F1 AB6C-6D 10940-59 10EC5-C7 11DB0-DB 12550-12686 16D80-9D 16EA0-B8
   BB-D3 16FF2-F6 187F8-FF 18D09-1E 80-F2 18E00-19191 1E6C0-DE E0-E2 E4-E5 E7-ED F0-F4 FE-FF 2B73A-3F 2CEA2-AD
   323B0-33479 3D000-3FC3F"]

/-- Characters that can only continue an identifier, among others. -/
def identifierExtra : Ranges := NamedSet.join [(trait? "xidcontinue").getD #[], Ranges.ofText
  "5C8-C9 B53-54 1ACF-EB 10EFA-FB 11B60-67 11DE0-E9 16DA0-A9 1E6E3 E6 EE-EF F5"]

/-- Letters and letter-like signs that are not ASCII and stand before the combining marks. -/
def latinLetters : Ranges := Ranges.ofText "AA B5 BA C0-D6 D8-F6 F8-2C1 C6-D1 E0-E4 EC EE"

/-- Whether a character can start an identifier. -/
def isIdentifierStart (c : Char) : Bool :=
  if c.toNat < 0x80 then c.isAlpha || c = '_' || c = '$'
  else if c.toNat < 0x300 then latinLetters.contains c.toNat
  else identifierStart.contains c.toNat

/-- Whether a character can continue an identifier. No identifier runs over the separators of lines. -/
def isIdentifierPart (c : Char) : Bool :=
  if c.toNat < 0x80 then c.isAlphanum || c = '_' || c = '$'
  else if c.toNat < 0x300 then c.toNat = 0xB7 || latinLetters.contains c.toNat
  else if c.toNat = 0x2028 || c.toNat = 0x2029 then false
  else
    c.toNat = 0x200C || c.toNat = 0x200D || identifierStart.contains c.toNat ||
      identifierExtra.contains c.toNat

end GuestScript.Text
