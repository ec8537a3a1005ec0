import GuestScript.Text.Property

/-!
# Case

The case mappings of the character standard. Lower case maps one character to one, except for the capital I
with a dot; upper case may map one to up to three. Two characters are the same up to case when they have the
same *folding*.

* `toLower` and `toUpper` map a text. A capital sigma at the end of a word has its own lower case.
* `foldings` lists each character that folds to another one.
-/

namespace GuestScript.Text

/-! ## 1. Tables -/

/-- A run of code points that are mapped to others: the first one to `target`, and those after it to what
is as far after `target`. -/
structure CaseRun where
  run : Run
  target : Nat

/-- Read a map of code points, one run and its target a word. -/
def caseTable (text : String) : List CaseRun :=
  (Run.readAll 0 (words text)).map fun (run, rest) => ⟨run, (readPoint run.last (rest.drop 1)).1⟩

/-- The code points of a word with marks between them. -/
def readPoints (before : Nat) : Nat → List Char → List Nat
  | 0, _ => []
  | _, [] => []
  | fuel + 1, word =>
    let (n, rest) := readPoint before word
    n :: readPoints before fuel (rest.drop 1)

/-- Read a map of code points to several ones. -/
def caseSequences (text : String) : List (Nat × List Nat) :=
  (Run.readAll 0 (words text)).map fun (run, rest) =>
    (run.first, readPoints run.first rest.length (rest.drop 1))

/-- Lower case, character by character. -/
def lowerRuns : List CaseRun := caseTable
  "41-5A>61 C0-D6>E0 D8-DE>F8 100-2E/2>1 32-36/2>33 39-47/2>3A 4A-76/2>4B 78>0FF 79-7D/2>7A 81>253 82-84/2>83 86>254
   87>88 89-8A>256 8B>8C 8E>DD 8F>259 90>25B 91>92 93>260 94>263 96>269 97>268 98>99 9C>26F 9D>272 9F>275 A0-A4/2>A1
   A6>280 A7>A8 A9>283 AC>AD AE>288 AF>B0 B1-B2>28A B3-B5/2>B4 B7>292 B8>B9 BC>BD C4>C6 C5>C6 C7>C9 C8>C9 CA>CC
   CB-DB/2>CC DE-EE/2>DF F1>F3 F2-F4/2>F3 F6>95 F7>BF F8-21E/2>1F9 20>19E 22-32/2>23 3A>2C65 3B>3C 3D>19A 3E>2C66 41>42
   43>180 44>89 45>8C 46-4E/2>47 370-72/2>71 76>77 7F>F3 86>AC 88-8A>AD 8C>CC 8E-8F>CD 91-A1>B1 A3-AB>C3 CF>D7
   D8-EE/2>D9 F4>B8 F7>F8 F9>F2 FA>FB FD-FF>7B 400-F>50 10-2F>30 60-80/2>61 8A-BE/2>8B C0>CF C1-CD/2>C2 D0-52E/2>4D1
   31-56>61 10A0-C5>2D00 C7>2D27 CD>2D2D 13A0-EF>AB70 F0-F5>F8 1C89>8A 90-BA>10D0 BD-BF>10FD 1E00-94/2>1 9E>0DF
   A0-FE/2>A1 1F08-F>0 18-1D>10 28-2F>20 38-3F>30 48-4D>40 59-5F/2>51 68-6F>60 88-8F>80 98-9F>90 A8-AF>A0 B8-B9>B0
   BA-BB>70 BC>B3 C8-CB>72 CC>C3 D8-D9>D0 DA-DB>76 E8-E9>E0 EA-EB>7A EC>E5 F8-F9>78 FA-FB>7C FC>F3 2126>3C9 2A>06B
   2B>0E5 32>4E 60-6F>70 83>84 24B6-CF>D0 2C00-2F>30 60>61 62>26B 63>1D7D 64>27D 67-6B/2>68 6D>251 6E>271 6F>250 70>252
   72>73 75>76 7E-7F>23F 80-E2/2>81 EB-ED/2>EC F2>F3 A640-6C/2>41 80-9A/2>81 A722-2E/2>23 32-6E/2>33 79-7B/2>7A 7D>1D79
   7E-86/2>7F 8B>8C 8D>265 90-92/2>91 96-A8/2>97 AA>266 AB>25C AC>261 AD>26C AE>26A B0>29E B1>287 B2>29D B3>AB53
   B4-C2/2>B5 C4>94 C5>282 C6>1D8E C7-C9/2>C8 CB>264 CC-DA/2>CD DC>19B F5>F6 FF21-3A>41 10400-27>28 B0-D3>D8 10570-7A>97
   7C-8A>A3 8C-92>B3 94-95>BB 10C80-B2>C0 10D50-65>70 118A0-BF>C0 16E40-5F>60 A0-B8>BB 1E900-21>22"

/-- Upper case, where it is one character and not the first one with that lower case. -/
def upperRuns : List CaseRun := caseTable
  "B5>39C 131>049 7F>053 C5>C4 C8>C7 CB>CA F2>F1 345>99 C2>A3 D0>92 D1>98 D5>A6 D6>A0 F0>9A F1>A1 F5>95 1C80>412 81>414
   82>41E 83-84>421 85>422 86>42A 87>462 88>A64A 1E9B>60 1FBE>399"

/-- Upper case, where it is more than one character. -/
def upperSequences : List (Nat × List Nat) := caseSequences
  "DF>53+53 149>2BC+04E F0>04A+30C 390>99+8+1 B0>A5+8+1 587>35+52 1E96>048+331 97>054+308 98>057+30A 99>059+30A
   9A>041+2BE 1F50>3A5+313 52>3A5+313+300 54>3A5+313+301 56>3A5+313+342 80>8+399 81>9+399 82>A+399 83>B+399 84>C+399
   85>D+399 86>E+399 87>F+399 88>8+399 89>9+399 8A>A+399 8B>B+399 8C>C+399 8D>D+399 8E>E+399 8F>F+399 90>28+399
   91>29+399 92>2A+399 93>2B+399 94>2C+399 95>2D+399 96>2E+399 97>2F+399 98>28+399 99>29+399 9A>2A+399 9B>2B+399
   9C>2C+399 9D>2D+399 9E>2E+399 9F>2F+399 A0>68+399 A1>69+399 A2>6A+399 A3>6B+399 A4>6C+399 A5>6D+399 A6>6E+399
   A7>6F+399 A8>68+399 A9>69+399 AA>6A+399 AB>6B+399 AC>6C+399 AD>6D+399 AE>6E+399 AF>6F+399 B2>BA+399 B3>391+399
   B4>386+399 B6>391+342 B7>391+342+399 BC>391+399 C2>CA+399 C3>397+399 C4>389+399 C6>397+342 C7>397+342+399 CC>397+399
   D2>399+308+300 D3>399+308+301 D6>399+342 D7>399+308+342 E2>3A5+308+300 E3>3A5+308+301 E4>3A1+313 E6>3A5+342
   E7>3A5+308+342 F2>FA+399 F3>3A9+399 F4>38F+399 F6>3A9+342 F7>3A9+342+399 FC>3A9+399 FB00>046+046 1>046+049 2>046+04C
   3>046+046+049 4>046+046+04C 5>053+054 6>053+054 13>544+546 14>544+535 15>544+53B 16>54E+546 17>544+53D"

/-- Foldings that are not lower case. -/
def foldRuns : List CaseRun := caseTable
  "17F>073 399>45 9C>0B5 B9>45 BC>0B5 C2>C3 D0>B2 D1>B8 D5>C6 D6>C0 F0>BA F1>C1 F5>B5 1C80>432 81>434 82>43E 83-84>441
   85>442 86>44A 87>463 1E9B>61 1FBE>345 D3>390 E3>3B0 A64A>1C88 4B>1C88 FB06>5"

/-- Characters whose lower case is not their folding. -/
def unfolded : Ranges := Ranges.ofText "399 9C A64A A7CE D2 D4 16EA0-B8"

/-- Characters that have case. -/
def cased : Ranges :=
  (NamedSet.join [(trait? "cased").getD #[], Ranges.ofText
    "A7CE-CF D2 D4 F1 16EA0-B8 BB-D3"]).diff (Ranges.ofText "295")

/-- Characters that do not count when the end of a word is looked for. -/
def caseIgnorable : Ranges := NamedSet.join [(trait? "caseignorable").getD #[], Ranges.ofText
  "1ACF-DD E0-EB A7F1 10EC5 FA-FB 11B60 62-64 66 11DD9 16FF2-F3 1E6E3 E6 EE-EF F5 FF"]

/-! ## 2. Characters -/

/-- The code point that a map gives for another one. -/
def mapPoint? (table : List CaseRun) (n : Nat) : Option Nat :=
  (table.find? fun r => r.run.contains n).map fun r => r.target + (n - r.run.first)

/-- The first code point for which a map gives another one. -/
def sourcePoint? (table : List CaseRun) (n : Nat) : Option Nat :=
  (table.find? fun r => r.target ≤ n && r.run.contains (n - r.target + r.run.first)).map fun r =>
    n - r.target + r.run.first

/-- The lower case of a character. -/
def lowerChars (c : Char) : List Char :=
  if c.toNat < 0x80 then [c.toLower]
  else if c.toNat = 0x130 then [Char.ofNat 0x69, Char.ofNat 0x307]
  else [Char.ofNat ((mapPoint? lowerRuns c.toNat).getD c.toNat)]

/-- The upper case of a character. -/
def upperChars (c : Char) : List Char :=
  if c.toNat < 0x80 then [c.toUpper]
  else
    match upperSequences.lookup c.toNat with
    | some ns => ns.map Char.ofNat
    | none => [Char.ofNat ((mapPoint? upperRuns c.toNat <|> sourcePoint? lowerRuns c.toNat).getD c.toNat)]

/-- The code points of a map, with those it gives for them. -/
def mapped (table : List CaseRun) : List (Nat × Nat) :=
  table.flatMap fun r => r.run.points.map fun n => (n, r.target + (n - r.run.first))

/-- The characters that fold to others, with their foldings. -/
def foldings : List (Nat × Nat) :=
  mapped foldRuns ++ (mapped lowerRuns).filter fun e => !unfolded.contains e.1

/-! ## 3. Texts -/

/-- Whether the first character that counts has case. -/
def startsCased (cs : List Char) : Bool :=
  match cs.dropWhile fun c => caseIgnorable.contains c.toNat with
  | c :: _ => cased.contains c.toNat
  | [] => false

/-- The lower case of the rest of a text, with the characters before it in reverse. A capital sigma after a
letter and before none is a final one. -/
def lowerFrom : List Char → List Char → List Char
  | _, [] => []
  | before, c :: rest =>
    let mapped :=
      if c = 'Σ' then
        if startsCased before && !startsCased rest then ['ς'] else ['σ']
      else lowerChars c
    mapped ++ lowerFrom (c :: before) rest

/-- A text in lower case. -/
def toLower (s : String) : String :=
  String.ofList (lowerFrom [] s.toList)

/-- A text in upper case. -/
def toUpper (s : String) : String :=
  String.ofList (s.toList.flatMap upperChars)

end GuestScript.Text
