import GuestScript.Text.Property

/-!
# Text in quotes for messages

A text shown in a message stands between double quotes. Line breaks, tabs, the zero character, quotes and
backslashes have short escapes; a character that would not show, or that would join its neighbour, is
written by its number.
-/

namespace GuestScript.Text

/-- Characters beyond ASCII that do not show by themselves: blanks other than the plain one, controls,
format characters, unassigned ones, letters that only hold a place, and those that extend the character
before them, the halfwidth sound marks excepted. Some characters are newer than the tables of categories. -/
def hidden : Ranges :=
  (NamedSet.join [(trait? "graphemeextend").getD #[], categorySet ["C", "Z"],
    Ranges.ofText "115F-60 3164 FFA0"]).diff (Ranges.ofText
  "88F C5C DC 20C1 2B96 A7CE-CF D2 D4 F1 FBC3-D2 FD90-91 C8-CE FF9E-9F 10940-59 10EC5-C7 D0-D8 11B61 65 67 11DB0-DB
   E0-E9 16EA0-B8 BB-D3 16FF2-F6 187F8-FF 18D09-1E 80-F2 1CCFA-FC 1CEBA-D0 E0-F0 1E6C0-DE E0-E2 E4-E5 E7-ED F0-F4 FE-FF
   1F6D8 1F777-7A 1F8D0-D8 1FA54-57 8A 8E C8 CD EA EF 1FBFA 2B73A-3F 2CEA2-AD 323B0-33479")

/-- A character by its number. -/
def numbered (c : Char) : List Char :=
  '\\' :: 'u' :: '\x7b' :: (Nat.toDigits 16 c.toNat ++ ['\x7d'])

/-- One character inside quotes. -/
def quotedChar (c : Char) : List Char :=
  match c with
  | '\x00' => ['\\', '0']
  | '\t' => ['\\', 't']
  | '\r' => ['\\', 'r']
  | '\n' => ['\\', 'n']
  | '\\' => ['\\', '\\']
  | '"' => ['\\', '"']
  | c =>
    if c.toNat < 0x20 then numbered c
    else if c.toNat < 0x7F then [c]
    else if hidden.contains c.toNat then numbered c
    else [c]

/-- A text between quotes. -/
def quoted (s : String) : String :=
  "\"" ++ String.ofList (s.toList.flatMap quotedChar) ++ "\""

end GuestScript.Text
