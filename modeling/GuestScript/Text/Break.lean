import GuestScript.Text.NamedSet

/-!
# Roles of characters at boundaries

What a character does where a text is divided into visible characters, words or sentences. A character in
none of these sets has no role.
-/

namespace GuestScript.Text

/-- Roles at the boundaries of visible characters. -/
def graphemeBreaks : List NamedSet := [
  { names := ["CR"], extra := "D" },
  { names := ["Control", "cn"]
    parts := ["Cc", "Cf", "Zl", "Zp"]
    without := ["Prepended_Concatenation_Mark", "Join_Control"]
    extra := "2065 FFF0-F8 E0000 2-1F 80-FF E01F0-E0FFF"
    missing := "A D E0020-7F" },
  { names := ["Extend", "ex"], parts := ["Grapheme_Extend", "Emoji_Modifier"] },
  { names := ["L"], extra := "1100-5F A960-7C" },
  { names := ["LF"], extra := "A" },
  { names := ["LV"], extra := "AC00-D788/1C" },
  { names := ["LVT"]
    extra := "AC00-D7A3"
    missing := "AC00-D788/1C" },
  { names := ["Prepend", "pp"]
    parts := ["Prepended_Concatenation_Mark"]
    extra := "D4E 111C2-C3 113D1 1193F 41 11A3A 84-89 11D46 11F02" },
  { names := ["Regional_Indicator", "ri"], parts := ["Regional_Indicator"] },
  { names := ["SpacingMark", "sm"]
    parts := ["Mc"]
    without := ["Grapheme_Extend"]
    extra := "E33 B3"
    missing := "102B-2C 38 62-64 67-6D 83 87-8C 8F 9A-9C 1A61 63-64 AA7B 7D 11720-21" },
  { names := ["T"], extra := "11A8-FF D7CB-FB" },
  { names := ["V"], extra := "1160-A7 D7B0-C6 16D63 67-6A" },
  { names := ["ZWJ"], extra := "200D" }]

/-- Roles at the boundaries of words. -/
def wordBreaks : List NamedSet := [
  { names := ["ALetter", "le"]
    parts := ["Alphabetic"]
    without := ["M", "Ideographic", "Hiragana", "Katakana", "Thai", "Lao", "Khmer", "Myanmar",
      "Tai_Viet", "Tai_Tham", "New_Tai_Lue", "Tai_Le", "Ahom"]
    extra := "2C2-C5 D2-D7 DE-DF E5-EB ED EF-FF 55A-5C 5E 8A F3 70F A708-16 20-21 89-8A AB5B"
    missing := "5D0-EA EF-F2 3031-35 FC FB1D 1F-28 2A-36 38-3C 3E 40-41 43-44 46-4F FF70 9E-9F" },
  { names := ["CR"], extra := "D" },
  { names := ["Double_Quote", "dq"], extra := "22" },
  { names := ["Extend"], parts := ["Grapheme_Extend", "Mc", "Emoji_Modifier"] },
  { names := ["ExtendNumLet", "ex"]
    parts := ["Pc"]
    extra := "202F" },
  { names := ["Format", "fo"]
    parts := ["Cf"]
    without := ["Prepended_Concatenation_Mark", "Join_Control"]
    missing := "200B E0020-7F" },
  { names := ["Hebrew_Letter", "hl"]
    extra := "5D0-EA EF-F2 FB1D 1F-28 2A-36 38-3C 3E 40-41 43-44 46-4F" },
  { names := ["Katakana", "ka"]
    parts := ["Katakana"]
    extra := "3031-35 9B-9C A0 FC FF70" },
  { names := ["LF"], extra := "A" },
  { names := ["MidLetter", "ml"], extra := "3A B7 387 55F F4 2027 FE13 55 FF1A" },
  { names := ["MidNum", "mn"], extra := "2C 3B 37E 589 60C-D 6C 7F8 2044 FE50 54 FF0C 1B" },
  { names := ["MidNumLet", "mb"], extra := "2E 2018-19 24 FE52 FF07 E" },
  { names := ["Newline", "nl"], extra := "B-C 85 2028-29" },
  { names := ["Numeric", "nu"]
    parts := ["Nd"]
    extra := "600-5 6B DD 890-91 E2 19DA 110BD CD" },
  { names := ["Regional_Indicator", "ri"], parts := ["Regional_Indicator"] },
  { names := ["Single_Quote", "sq"], extra := "27" },
  { names := ["WSegSpace"]
    parts := ["Zs"]
    missing := "A0 2007 2F" },
  { names := ["ZWJ"], extra := "200D" }]

/-- Roles at the boundaries of sentences. -/
def sentenceBreaks : List NamedSet := [
  { names := ["ATerm", "at"], extra := "2E 2024 FE52 FF0E" },
  { names := ["CR"], extra := "D" },
  { names := ["Close", "cl"]
    parts := ["Ps", "Pe", "Pi", "Pf"]
    extra := "22 27 275B-60 2E00-1 6-8 B 1F676-78" },
  { names := ["Extend", "ex"]
    parts := ["Grapheme_Extend", "Mc"]
    extra := "200D" },
  { names := ["Format", "fo"]
    parts := ["Cf"]
    without := ["Prepended_Concatenation_Mark", "Join_Control"]
    extra := "70F"
    missing := "E0020-7F" },
  { names := ["LF"], extra := "A" },
  { names := ["Lower", "lo"]
    parts := ["Lowercase"]
    without := ["Grapheme_Extend"]
    missing := "10D0-FA FD-FF" },
  { names := ["Numeric", "nu"]
    parts := ["Nd"]
    extra := "600-5 6B-6C DD 890-91 E2 19DA 110BD CD" },
  { names := ["OLetter", "le"]
    parts := ["Alphabetic"]
    without := ["Cased", "M"]
    extra := "5F3 10D0-FA FD-FF 1C90-BA BD-BF"
    missing := "FF9E-9F" },
  { names := ["SContinue", "sc"]
    extra := "2C-2D 3A-3B 37E 55D 60C-D 7F8 1802 8 2013-14 3001 FE10-11 13-14 31-32 50-51 54-55 58 63 FF0C-D 1A-1B
      64" },
  { names := ["STerm", "st"]
    parts := ["Sentence_Terminal"]
    missing := "2E 2024 FE52 FF0E" },
  { names := ["Sep", "se"], extra := "85 2028-29" },
  { names := ["Sp"]
    parts := ["White_Space"]
    missing := "A D 85 2028-29" },
  { names := ["Upper", "up"]
    parts := ["Uppercase", "Lt"]
    missing := "1C90-BA BD-BF" }]

end GuestScript.Text
