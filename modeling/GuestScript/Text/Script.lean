import GuestScript.Text.NamedSet

/-!
# Scripts

The scripts that characters belong to, and the characters that each script uses. Characters of several
scripts belong to the common or the inherited one, and are used by those scripts only.
-/

namespace GuestScript.Text

/-! ## 1. Scripts -/

/-- The names of the scripts, and the characters that belong to them. -/
def scriptTables : List (String × String) := [
  ("Adlam adlm", "1E900-4B 50-59 5E-5F"),
  ("Ahom", "11700-1A 1D-2B 30-46"),
  ("Anatolian_Hieroglyphs hluw", "14400-14646"),
  ("Arabic arab", "600-4 6-B D-1A 1C-1E 20-3F 41-4A 56-6F 71-DC DE-FF 750-7F 870-8E 90-91 97-E1 E3-FF FB50-C2 D3-FD3D
    40-8F 92-C7 CF F0-FF FE70-74 76-FC 10E60-7E C2-C4 FC-FF 1EE00-3 5-1F 21-22 24 27 29-32 34-37 39 3B 42 47-4B/2 4D-4F
    51-52 54 57-5F/2 61-62 64 67-6A 6C-72 74-77 79-7C 7E 80-89 8B-9B A1-A3 A5-A9 AB-BB F0-F1"),
  ("Armenian armn", "531-56 59-8A 8D-8F FB13-17"),
  ("Avestan avst", "10B00-35 39-3F"),
  ("Balinese bali", "1B00-4C 4E-7F"),
  ("Bamum bamu", "A6A0-F7 16800-16A38"),
  ("Bassa_Vah bass", "16AD0-ED F0-F5"),
  ("Batak batk", "1BC0-F3 FC-FF"),
  ("Bengali beng", "980-83 85-8C 8F-90 93-A8 AA-B0 B2 B6-B9 BC-C4 C7-C8 CB-CE D7 DC-DD DF-E3 E6-FE"),
  ("Bhaiksuki bhks", "11C00-8 A-36 38-45 50-6C"),
  ("Bopomofo bopo", "2EA-EB 3105-2F A0-BF"),
  ("Brahmi brah", "11000-4D 52-75 7F"),
  ("Braille brai", "2800-FF"),
  ("Buginese bugi", "1A00-1B 1E-1F"),
  ("Buhid buhd", "1740-53"),
  ("Canadian_Aboriginal cans", "1400-167F 18B0-F5 11AB0-BF"),
  ("Carian cari", "102A0-D0"),
  ("Caucasian_Albanian aghb", "10530-63 6F"),
  ("Chakma cakm", "11100-34 36-47"),
  ("Cham", "AA00-36 40-4D 50-59 5C-5F"),
  ("Cherokee cher", "13A0-F5 F8-FD AB70-BF"),
  ("Chorasmian chrs", "10FB0-CB"),
  ("Common zyyy", "0-40 5B-60 7B-A9 AB-B9 BB-BF D7 F7 2B9-DF E5-E9 EC-FF 374 7E 85 87 605 C 1B 1F 40 DD 8E2 964-65 E3F
    FD5-D8 10FB 16EB-ED 1735-36 1802-3 5 1CD3 E1 E9-EC EE-F3 F5-F7 FA 2000-B E-64 66-70 74-7E 80-8E A0-C0 2100-25 27-29
    2C-31 33-4D 4F-5F 89-8B 90-2429 40-4A 60-27FF 2900-2B73 76-95 97-FF 2E00-5D 2FF0-3004 6 8-20 30-37 3C-3F 9B-9C A0
    FB-FC 3190-9F C0-E5 EF 3220-5F 7F-CF FF 3358-FF 4DC0-FF A700-21 88-8A A830-39 A92E CF AB5B 6A-6B FD3E-3F FE10-19
    30-52 54-66 68-6B FF FF01-20 3B-40 5B-65 70 9E-9F E0-E6 E8-EE F9-FD 10100-2 7-33 37-3F 90-9C D0-FC 102E1-FB 1BCA0-A3
    1CC00-F9 1CD00-1CEB3 1CF50-C3 1D000-F5 1D100-26 29-66 6A-7A 83-84 8C-A9 AE-EA 1D2C0-D3 E0-F3 1D300-56 60-78 1D400-54
    56-9C 9E-9F A2 A5-A6 A9-AC AE-B9 BB BD-C3 C5-1D505 7-A D-14 16-1C 1E-39 3B-3E 40-44 46 4A-50 52-1D6A5 A8-1D7CB CE-FF
    1EC71-B4 1ED01-3D 1F000-2B 30-93 A0-AE B1-BF C1-CF D1-F5 1F100-AD E6-FF 1F201-2 10-3B 40-48 50-51 60-65 1F300-1F6D7
    DC-EC F0-FC 1F700-76 7B-D9 E0-EB F0 1F800-B 10-47 50-59 60-87 90-AD B0-BB C0-C1 1F900-1FA53 60-6D 70-7C 80-89 8F-C6
    CE-DC DF-E9 F0-F8 1FB00-92 94-F9 E0001 20-7F"),
  ("Coptic copt qaac", "3E2-EF 2C80-F3 F9-FF"),
  ("Cuneiform xsux", "12000-12399 12400-6E 70-74 80-12543"),
  ("Cypriot cprt", "10800-5 8 A-35 37-38 3C 3F"),
  ("Cypro_Minoan cpmn", "12F90-F2"),
  ("Cyrillic cyrl", "400-84 87-52F 1C80-8A 1D2B 78 2DE0-FF A640-9F FE2E-2F 1E030-6D 8F"),
  ("Deseret dsrt", "10400-4F"),
  ("Devanagari deva", "900-50 55-63 66-7F A8E0-FF 11B00-9"),
  ("Dives_Akuru diak", "11900-6 9 C-13 15-16 18-35 37-38 3B-46 50-59"),
  ("Dogra dogr", "11800-3B"),
  ("Duployan dupl", "1BC00-6A 70-7C 80-88 90-99 9C-9F"),
  ("Egyptian_Hieroglyphs egyp", "13000-13455 60-143FA"),
  ("Elbasan elba", "10500-27"),
  ("Elymaic elym", "10FE0-F6"),
  ("Ethiopic ethi", "1200-48 4A-4D 50-56 58 5A-5D 60-88 8A-8D 90-B0 B2-B5 B8-BE C0 C2-C5 C8-D6 D8-1310 12-15 18-5A 5D-7C
    80-99 2D80-96 A0-A6 A8-AE B0-B6 B8-BE C0-C6 C8-CE D0-D6 D8-DE AB01-6 9-E 11-16 20-26 28-2E 1E7E0-E6 E8-EB ED-EE
    F0-FE"),
  ("Garay gara", "10D40-65 69-85 8E-8F"),
  ("Georgian geor", "10A0-C5 C7 CD D0-FA FC-FF 1C90-BA BD-BF 2D00-25 27 2D"),
  ("Glagolitic glag", "2C00-5F 1E000-6 8-18 1B-21 23-24 26-2A"),
  ("Gothic goth", "10330-4A"),
  ("Grantha gran", "11300-3 5-C F-10 13-28 2A-30 32-33 35-39 3C-44 47-48 4B-4D 50 57 5D-63 66-6C 70-74"),
  ("Greek grek", "370-73 75-77 7A-7D 7F 84 86 88-8A 8C 8E-A1 A3-E1 F0-FF 1D26-2A 5D-61 66-6A BF 1F00-15 18-1D 20-45
    48-4D 50-57 59-5D/2 5F-7D 80-B4 B6-C4 C6-D3 D6-DB DD-EF F2-F4 F6-FE 2126 AB65 10140-8E A0 1D200-45"),
  ("Gujarati gujr", "A81-83 85-8D 8F-91 93-A8 AA-B0 B2-B3 B5-B9 BC-C5 C7-C9 CB-CD D0 E0-E3 E6-F1 F9-FF"),
  ("Gunjala_Gondi gong", "11D60-65 67-68 6A-8E 90-91 93-98 A0-A9"),
  ("Gurmukhi guru", "A01-3 5-A F-10 13-28 2A-30 32-33 35-36 38-39 3C 3E-42 47-48 4B-4D 51 59-5C 5E 66-76"),
  ("Gurung_Khema gukh", "16100-39"),
  ("Han hani", "2E80-99 9B-F3 2F00-D5 3005 7 21-29 38-3B 3400-4DBF 4E00-9FFF F900-FA6D 70-D9 16FE2-E3 F0-F1 20000-2A6DF
    2A700-2B739 40-2B81D 20-2CEA1 B0-2EBE0 F0-2EE5D 2F800-2FA1D 30000-3134A 50-323AF"),
  ("Hangul hang", "1100-FF 302E-2F 3131-8E 3200-1E 60-7E A960-7C AC00-D7A3 B0-C6 CB-FB FFA0-BE C2-C7 CA-CF D2-D7
    DA-DC"),
  ("Hanifi_Rohingya rohg", "10D00-27 30-39"),
  ("Hanunoo hano", "1720-34"),
  ("Hatran hatr", "108E0-F2 F4-F5 FB-FF"),
  ("Hebrew hebr", "591-C7 D0-EA EF-F4 FB1D-36 38-3C 3E 40-41 43-44 46-4F"),
  ("Hiragana hira", "3041-96 9D-9F 1B001-1B11F 32 50-52 1F200"),
  ("Imperial_Aramaic armi", "10840-55 57-5F"),
  ("Inherited qaai zinh", "300-6F 485-86 64B-55 70 951-54 1AB0-CE 1CD0-D2 D4-E0 E2-E8 ED F4 F8-F9 1DC0-FF 200C-D D0-F0
    302A-2D 99-9A FE00-F 20-2D 101FD 102E0 1133B 1CF00-2D 30-46 1D167-69 7B-82 85-8B AA-AD E0100-EF"),
  ("Inscriptional_Pahlavi phli", "10B60-72 78-7F"),
  ("Inscriptional_Parthian prti", "10B40-55 58-5F"),
  ("Javanese java", "A980-CD D0-D9 DE-DF"),
  ("Kaithi kthi", "11080-C2 CD"),
  ("Kannada knda", "C80-8C 8E-90 92-A8 AA-B3 B5-B9 BC-C4 C6-C8 CA-CD D5-D6 DD-DE E0-E3 E6-EF F1-F3"),
  ("Katakana kana", "30A1-FA FD-FF 31F0-FF 32D0-FE 3300-57 FF66-6F 71-9D 1AFF0-F3 F5-FB FD-FE 1B000 1B120-22 55 64-67"),
  ("Kawi", "11F00-10 12-3A 3E-5A"),
  ("Kayah_Li kali", "A900-2D 2F"),
  ("Kharoshthi khar", "10A00-3 5-6 C-13 15-17 19-35 38-3A 3F-48 50-58"),
  ("Khitan_Small_Script kits", "16FE4 18B00-18CD5 FF"),
  ("Khmer khmr", "1780-DD E0-E9 F0-F9 19E0-FF"),
  ("Khojki khoj", "11200-11 13-41"),
  ("Khudawadi sind", "112B0-EA F0-F9"),
  ("Kirat_Rai krai", "16D40-79"),
  ("Lao laoo", "E81-82 84 86-8A 8C-A3 A5 A7-BD C0-C4 C6 C8-CE D0-D9 DC-DF"),
  ("Latin latn", "41-5A 61-7A AA BA C0-D6 D8-F6 F8-2B8 E0-E4 1D00-25 2C-5C 62-65 6B-77 79-BE 1E00-FF 2071 7F 90-9C
    212A-2B 32 4E 60-88 2C60-7F A722-87 8B-CD D0-D1 D3 D5-DC F2-FF AB30-5A 5C-64 66-69 FB00-6 FF21-3A 41-5A 10780-85
    87-B0 B2-BA 1DF00-1E 25-2A"),
  ("Lepcha lepc", "1C00-37 3B-49 4D-4F"),
  ("Limbu limb", "1900-1E 20-2B 30-3B 40 44-4F"),
  ("Linear_A lina", "10600-10736 40-55 60-67"),
  ("Linear_B linb", "10000-B D-26 28-3A 3C-3D 3F-4D 50-5D 80-FA"),
  ("Lisu", "A4D0-FF 11FB0"),
  ("Lycian lyci", "10280-9C"),
  ("Lydian lydi", "10920-39 3F"),
  ("Mahajani mahj", "11150-76"),
  ("Makasar maka", "11EE0-F8"),
  ("Malayalam mlym", "D00-C E-10 12-44 46-48 4A-4F 54-63 66-7F"),
  ("Mandaic mand", "840-5B 5E"),
  ("Manichaean mani", "10AC0-E6 EB-F6"),
  ("Marchen marc", "11C70-8F 92-A7 A9-B6"),
  ("Masaram_Gondi gonm", "11D00-6 8-9 B-36 3A 3C-3D 3F-47 50-59"),
  ("Medefaidrin medf", "16E40-9A"),
  ("Meetei_Mayek mtei", "AAE0-F6 ABC0-ED F0-F9"),
  ("Mende_Kikakui mend", "1E800-C4 C7-D6"),
  ("Meroitic_Cursive merc", "109A0-B7 BC-CF D2-FF"),
  ("Meroitic_Hieroglyphs mero", "10980-9F"),
  ("Miao plrd", "16F00-4A 4F-87 8F-9F"),
  ("Modi", "11600-44 50-59"),
  ("Mongolian mong", "1800-1 4 6-19 20-78 80-AA 11660-6C"),
  ("Mro mroo", "16A40-5E 60-69 6E-6F"),
  ("Multani mult", "11280-86 88 8A-8D 8F-9D 9F-A9"),
  ("Myanmar mymr", "1000-9F A9E0-FE AA60-7F 116D0-E3"),
  ("Nabataean nbat", "10880-9E A7-AF"),
  ("Nag_Mundari nagm", "1E4D0-F9"),
  ("Nandinagari nand", "119A0-A7 AA-D7 DA-E4"),
  ("New_Tai_Lue talu", "1980-AB B0-C9 D0-DA DE-DF"),
  ("Newa", "11400-5B 5D-61"),
  ("Nko nkoo", "7C0-FA FD-FF"),
  ("Nushu nshu", "16FE1 1B170-1B2FB"),
  ("Nyiakeng_Puachue_Hmong hmnp", "1E100-2C 30-3D 40-49 4E-4F"),
  ("Ogham ogam", "1680-9C"),
  ("Ol_Chiki olck", "1C50-7F"),
  ("Ol_Onal onao", "1E5D0-FA FF"),
  ("Old_Hungarian hung", "10C80-B2 C0-F2 FA-FF"),
  ("Old_Italic ital", "10300-23 2D-2F"),
  ("Old_North_Arabian narb", "10A80-9F"),
  ("Old_Permic perm", "10350-7A"),
  ("Old_Persian xpeo", "103A0-C3 C8-D5"),
  ("Old_Sogdian sogo", "10F00-27"),
  ("Old_South_Arabian sarb", "10A60-7F"),
  ("Old_Turkic orkh", "10C00-48"),
  ("Old_Uyghur ougr", "10F70-89"),
  ("Oriya orya", "B01-3 5-C F-10 13-28 2A-30 32-33 35-39 3C-44 47-48 4B-4D 55-57 5C-5D 5F-63 66-77"),
  ("Osage osge", "104B0-D3 D8-FB"),
  ("Osmanya osma", "10480-9D A0-A9"),
  ("Pahawh_Hmong hmng", "16B00-45 50-59 5B-61 63-77 7D-8F"),
  ("Palmyrene palm", "10860-7F"),
  ("Pau_Cin_Hau pauc", "11AC0-F8"),
  ("Phags_Pa phag", "A840-77"),
  ("Phoenician phnx", "10900-1B 1F"),
  ("Psalter_Pahlavi phlp", "10B80-91 99-9C A9-AF"),
  ("Rejang rjng", "A930-53 5F"),
  ("Runic runr", "16A0-EA EE-F8"),
  ("Samaritan samr", "800-2D 30-3E"),
  ("Saurashtra saur", "A880-C5 CE-D9"),
  ("Sharada shrd", "11180-DF"),
  ("Shavian shaw", "10450-7F"),
  ("Siddham sidd", "11580-B5 B8-DD"),
  ("SignWriting sgnw", "1D800-1DA8B 9B-9F A1-AF"),
  ("Sinhala sinh", "D81-83 85-96 9A-B1 B3-BB BD C0-C6 CA CF-D4 D6 D8-DF E6-EF F2-F4 111E1-F4"),
  ("Sogdian sogd", "10F30-59"),
  ("Sora_Sompeng sora", "110D0-E8 F0-F9"),
  ("Soyombo soyo", "11A50-A2"),
  ("Sundanese sund", "1B80-BF 1CC0-C7"),
  ("Sunuwar sunu", "11BC0-E1 F0-F9"),
  ("Syloti_Nagri sylo", "A800-2C"),
  ("Syriac syrc", "700-D F-4A 4D-4F 860-6A"),
  ("Tagalog tglg", "1700-15 1F"),
  ("Tagbanwa tagb", "1760-6C 6E-70 72-73"),
  ("Tai_Le tale", "1950-6D 70-74"),
  ("Tai_Tham lana", "1A20-5E 60-7C 7F-89 90-99 A0-AD"),
  ("Tai_Viet tavt", "AA80-C2 DB-DF"),
  ("Takri takr", "11680-B9 C0-C9"),
  ("Tamil taml", "B82-83 85-8A 8E-90 92-95 99-9A 9C 9E-9F A3-A4 A8-AA AE-B9 BE-C2 C6-C8 CA-CD D0 D7 E6-FA 11FC0-F1 FF"),
  ("Tangsa tnsa", "16A70-BE C0-C9"),
  ("Tangut tang", "16FE0 17000-187F7 18800-18AFF 18D00-8"),
  ("Telugu telu", "C00-C E-10 12-28 2A-39 3C-44 46-48 4A-4D 55-56 58-5A 5D 60-63 66-6F 77-7F"),
  ("Thaana thaa", "780-B1"),
  ("Thai", "E01-3A 40-5B"),
  ("Tibetan tibt", "F00-47 49-6C 71-97 99-BC BE-CC CE-D4 D9-DA"),
  ("Tifinagh tfng", "2D30-67 6F-70 7F"),
  ("Tirhuta tirh", "11480-C7 D0-D9"),
  ("Todhri todr", "105C0-F3"),
  ("Toto", "1E290-AE"),
  ("Tulu_Tigalari tutg", "11380-89 8B 8E 90-B5 B7-C0 C2 C5 C7-CA CC-D5 D7-D8 E1-E2"),
  ("Ugaritic ugar", "10380-9D 9F"),
  ("Vai vaii", "A500-A62B"),
  ("Vithkuqi vith", "10570-7A 7C-8A 8C-92 94-95 97-A1 A3-B1 B3-B9 BB-BC"),
  ("Wancho wcho", "1E2C0-F9 FF"),
  ("Warang_Citi wara", "118A0-F2 FF"),
  ("Yezidi yezi", "10E80-A9 AB-AD B0-B1"),
  ("Yi yiii", "A000-A48C 90-C6"),
  ("Zanabazar_Square zanb", "11A00-47")]

/-- The scripts with the characters that belong to them. -/
def scripts : List NamedSet :=
  scriptTables.map fun (names, table) => { names := (words names).map String.ofList, extra := table }

/-- Names of scripts without characters of their own. -/
def bareScriptNames : List String := ["Katakana_Or_Hiragana", "hrkt", "Unknown", "zzzz"]

/-! ## 2. Extensions -/

/-- The scripts that use other characters than those that belong to them, with these characters. -/
def scriptExtensions : List (String × String) := [
  ("Adlam", "61F 40 204F 2E41"),
  ("Arabic", "60C 1B 1F 40 4B-55 70 204F 2E41 FD3E-3F 102E0-FB"),
  ("Armenian", "308"),
  ("Avestan", "B7 2E30-31"),
  ("Bengali", "2BC 951-52 64-65 1CD0 D2 D5-D6 D8 E1 EA ED F2 F5-F7 A8F1"),
  ("Bopomofo", "2C7 C9-CB D9 3001-3 8-11 13-1F 2A-2D 30 37 FB FE45-46 FF61-65"),
  ("Buginese", "A9CF"),
  ("Buhid", "1735-36"),
  ("Carian", "B7 205A 5D 2E31"),
  ("Caucasian_Albanian", "304 31 5E"),
  ("Chakma", "9E6-EF 1040-49"),
  ("Cherokee", "300-2 4 B-C 23-24 30-31"),
  ("Coptic", "B7 300 4-5 7 74-75 2E17 102E0-FB"),
  ("Cypriot", "10100-2 7-33 37-3F"),
  ("Cypro_Minoan", "10100-1"),
  ("Cyrillic", "2BC 300-2 4-8/2 B 11 485-86 1DF8 2E43"),
  ("Devanagari", "2BC 951-52 64-65 1CD0-F6 F8-F9 20F0 A830-39"),
  ("Dogra", "964-6F A830-39"),
  ("Duployan", "B7 307-8 A 23-24 2E3C 1BCA0-A3"),
  ("Elbasan", "B7 305"),
  ("Ethiopic", "30E"),
  ("Garay", "60C 1B 1F"),
  ("Georgian", "B7 589 10FB 205A 2E31"),
  ("Glagolitic", "B7 303 5 484 87 589 10FB 205A 2E43 A66F"),
  ("Gothic", "B7 304-5 8 31"),
  ("Grantha", "951-52 64-65 BE6-F3 1CD0 D2-D3 F2-F4 F8-F9 20F0 1133B 11FD0-D1 D3"),
  ("Greek", "B7 300-1 4-8/2 13 42 45 74 1DC0-C1 205D"),
  ("Gujarati", "951-52 64-65 A830-39"),
  ("Gunjala_Gondi", "B7 964-65"),
  ("Gurmukhi", "951-52 64-65 A830-39"),
  ("Gurung_Khema", "965"),
  ("Han", "B7 2FF0-FF 3001-3 6 8-11 13-1F 2A-2D 30 37 3C-3F FB 3190-9F C0-E5 EF 3220-47 80-B0 C0-CB FF 3358-70 7B-7F
    E0-FE A700-7 FE45-46 FF61-65 1D360-71 1F250-51"),
  ("Hangul", "3001-3 8-11 13-1F 30 37 FB FE45-46 FF61-65"),
  ("Hanifi_Rohingya", "60C 1B 1F 40 D4"),
  ("Hanunoo", "1735-36"),
  ("Hebrew", "307-8"),
  ("Hiragana", "3001-3 8-11 13-1F 30-35 37 3C-3D 99-9C A0 FB-FC FE45-46 FF61-65 70 9E-9F"),
  ("Javanese", "A9CF"),
  ("Kaithi", "966-6F 2E31 A830-39"),
  ("Kannada", "951-52 64-65 1CD0 D2-D3 DA F2 F4 A830-35"),
  ("Katakana", "305 23 3001-3 8-11 13-1F 30-35 37 3C-3D 99-9C A0 FB-FC FE45-46 FF61-65 70 9E-9F"),
  ("Kayah_Li", "A92E"),
  ("Khojki", "AE6-EF A830-39"),
  ("Khudawadi", "964-65 A830-39"),
  ("Latin", "B7 2BC C7 C9-CB CD D7 D9 300-E 10-11 13 20 23-25 2D-2E 30-31 58 5E 63-6F 485-86 951-52 10FB 1DF8 202F F0
    2E17 A700-7 A92E"),
  ("Limbu", "965"),
  ("Linear_A", "10107-33"),
  ("Linear_B", "10100-2 7-33 37-3F"),
  ("Lisu", "2BC CD 300A-B"),
  ("Lycian", "205A"),
  ("Lydian", "B7 2E31"),
  ("Mahajani", "B7 964-6F A830-39"),
  ("Malayalam", "951-52 64-65 1CDA F2 A830-32"),
  ("Mandaic", "640"),
  ("Manichaean", "640"),
  ("Masaram_Gondi", "964-65"),
  ("Meroitic_Hieroglyphs", "205D"),
  ("Modi", "A830-39"),
  ("Mongolian", "1802-3 5 202F 3001-2 8-B"),
  ("Multani", "A66-6F"),
  ("Myanmar", "A92E"),
  ("Nandinagari", "964-65 CE6-EF 1CE9 F2 FA A830-35"),
  ("Nko", "60C 1B 1F FD3E-3F"),
  ("Ol_Onal", "964-65"),
  ("Old_Hungarian", "205A 5D 2E31 41"),
  ("Old_Permic", "B7 300 6-8 13 483"),
  ("Old_Turkic", "205A 2E30"),
  ("Old_Uyghur", "640 10AF2"),
  ("Oriya", "951-52 64-65 1CDA F2"),
  ("Osage", "301 4 B 58"),
  ("Phags_Pa", "1802-3 5 202F 3002"),
  ("Psalter_Pahlavi", "640"),
  ("Runic", "16EB-ED"),
  ("Samaritan", "2E31"),
  ("Sharada", "951 1CD7 D9 DC-DD E0 A830-35 38"),
  ("Shavian", "B7"),
  ("Sinhala", "964-65 1CF2"),
  ("Sogdian", "640"),
  ("Sunuwar", "300-1 3 D 10 2D 31"),
  ("Syloti_Nagri", "964-65 E6-EF"),
  ("Syriac", "303-4 7-8 A 20 23-25 2D-2E 30 60C 1B-1C 1F 40 4B-55 70 1DF8 FA"),
  ("Tagalog", "1735-36"),
  ("Tagbanwa", "1735-36"),
  ("Tai_Le", "300-1 7-8 C 1040-49"),
  ("Takri", "964-65 A830-39"),
  ("Tamil", "951-52 64-65 1CDA A8F3 11301 3 3B-3C"),
  ("Tangut", "2FF0-FF 31EF"),
  ("Telugu", "951-52 64-65 1CDA F2"),
  ("Thaana", "60C 1B-1C 1F 60-69 FDF2 FD"),
  ("Thai", "2BC D7 303 31"),
  ("Tibetan", "3008-B"),
  ("Tifinagh", "302 4 7 9"),
  ("Tirhuta", "951-52 64-65 1CF2 A830-39"),
  ("Todhri", "301 4 7 11 13 5E"),
  ("Toto", "2BC"),
  ("Tulu_Tigalari", "CE6-EF 1CF2 F4 A830-35 F1"),
  ("Yezidi", "60C 1B 1F 60-69"),
  ("Yi", "3001-2 8-11 14-1B FB FF61-65")]

/-- The characters that a script uses: its own ones, and others; or, for the scripts of characters that are common to
several ones, those that none of these uses. -/
def extended (script : NamedSet) : Ranges :=
  let own := Ranges.ofText script.extra
  let isOf (name : String) := script.names.contains name
  let used (p : String → Bool) :=
    NamedSet.join ((scriptExtensions.filter fun e => p e.1).map fun e => Ranges.ofText e.2)
  if isOf "Common" || isOf "Inherited" then own.diff (used fun _ => true) else own.union (used isOf)

end GuestScript.Text
