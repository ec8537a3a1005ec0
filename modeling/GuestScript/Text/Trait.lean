import GuestScript.Text.NamedSet

/-!
# Traits of characters

The properties that a character has or has not, with all of their names. Most of them are built from general
categories and from lists of further characters, which have names of their own.
-/

namespace GuestScript.Text

/-- The properties that a character has or has not. -/
def traits : List NamedSet := [
  { names := ["Alphabetic", "alpha"]
    parts := ["Lowercase", "Uppercase", "Lt", "Lm", "Lo", "Nl", "Other_Alphabetic"] },
  { names := ["Cased"], parts := ["Lowercase", "Uppercase", "Lt"] },
  { names := ["Lowercase", "lower"], parts := ["Ll", "Other_Lowercase"] },
  { names := ["Uppercase", "upper"], parts := ["Lu", "Other_Uppercase"] },
  { names := ["Case_Ignorable", "ci"]
    parts := ["Mn", "Me", "Cf", "Lm", "Sk"]
    extra := "27 2E 3A B7 387 55F F4 2018-19 24 27 FE13 52 55 FF07 E 1A" },
  { names := ["Changes_When_Casemapped", "cwcm"]
    parts := ["Changes_When_Lowercased", "Changes_When_Uppercased", "Changes_When_Titlecased"] },
  { names := ["Changes_When_Casefolded", "cwcf"]
    parts := ["Changes_When_Lowercased"]
    extra := "B5 DF 149 7F 345 C2 D0-D1 D5-D6 F0-F1 F5 587 13F8-FD 1C80-88 1E9A-9B 1F80-87 90-97 A0-A7 B2-B4 B7 C2-C4 C7
      F2-F4 F7 AB70-BF FB00-6 13-17"
    missing := "13A0-F5" },
  { names := ["Changes_When_Lowercased", "cwl"]
    parts := ["Lu", "Lt"]
    extra := "2160-6F 24B6-CF"
    missing := "3D2-D4 2102 7 B-D 10-12 15 19-1D 24 28 2C-2D 30-31 33 3E-3F 45 1D400-19 34-4D 68-81 9C 9E-9F A2 A5-A6
      A9-AC AE-B5 D0-E9 1D504-5 7-A D-14 16-1C 38-39 3B-3E 40-44 46 4A-50 6C-85 A0-B9 D4-ED 1D608-21 3C-55 70-89 A8-C0
      E2-FA 1D71C-34 56-6E 90-A8 CA" },
  { names := ["Changes_When_Titlecased", "cwt"]
    parts := ["Changes_When_Uppercased"]
    extra := "1C4 C7 CA F1"
    missing := "1C5 C8 CB F2 10D0-FA FD-FF 1F88-8F 98-9F A8-AF BC CC FC" },
  { names := ["Changes_When_Uppercased", "cwu"]
    parts := ["Ll"]
    extra := "1C5 C8 CB F2 345 1F88-8F 98-9F A8-AF BC CC FC 2170-7F 24D0-E9"
    missing := "138 8D AA-AB BA BE 221 34-39 55 58 5A 5D-5F 62 67 6D-6E 70 73-74 76-7C 7E-7F 81 84-86 8D-91 93 95-9C
      9F-AF 3FC 560 88 1D00-2B 6B-77 7A-7C 7E-8D 8F-9A 1E9C-9D 9F 210A E-F 13 2F 34 39 3C-3D 46-49 2C71 74 77-7B E4
      A730-31 71-78 8E 95 AF D3 D5 FA AB30-52 54-5A 60-68 1D41A-33 4E-54 56-67 82-9B B6-B9 BB BD-C3 C5-CF EA-1D503 1E-37
      52-6B 86-9F BA-D3 EE-1D607 22-3B 56-6F 8A-A5 C2-DA DC-E1 FC-1D714 16-1B 36-4E 50-55 70-88 8A-8F AA-C2 C4-C9 CB
      1DF00-9 B-1E 25-2A" },
  { names := ["XID_Continue", "xidc"]
    parts := ["ID_Continue"]
    missing := "37A 309B-9C FC5E-63 FDFA-FB FE70-7E/2" },
  { names := ["XID_Start", "xids"]
    parts := ["ID_Start"]
    missing := "37A E33 B3 309B-9C FC5E-63 FDFA-FB FE70-7E/2 FF9E-9F" },
  { names := ["ID_Continue", "idc"], parts := ["ID_Start", "Mn", "Mc", "Nd", "Pc", "Other_ID_Continue"] },
  { names := ["ID_Start", "ids"]
    parts := ["L", "Nl", "Other_ID_Start"]
    missing := "2E2F" },
  { names := ["Math"], parts := ["Sm", "Other_Math"] },
  { names := ["Default_Ignorable_Code_Point", "di"]
    parts := ["Other_Default_Ignorable_Code_Point", "Cf", "Variation_Selector"]
    without := ["Prepended_Concatenation_Mark"]
    missing := "FFF9-FB 13430-3F" },
  { names := ["Grapheme_Base", "grbase"]
    parts := ["L", "Mc", "N", "P", "S", "Zs"]
    without := ["Grapheme_Extend"] },
  { names := ["Grapheme_Extend", "grext"], parts := ["Me", "Mn", "Other_Grapheme_Extend"] },
  { names := ["Dash"]
    parts := ["Pd"]
    extra := "2053 7B 8B 2212" },
  { names := ["Emoji_Presentation", "epres"]
    parts := ["Emoji"]
    missing := "23 2A 30-39 A9 AE 203C 49 2122 39 94-99 A9-AA 2328 CF ED-EF F1-F2 F8-FA 24C2 25AA-AB B6 C0 FB-FC 2600-4
      E 11 18 1D 20 22-23 26 2A 2E-2F 38-3A 40 42 5F-60 63 65-66 68 7B 7E 92 94-97 99 9B-9C A0 A7 B0-B1 C8 CF-D3/2 E9
      F0-F1 F4 F7-F9 2702 8-9 C-D F 12-16/2 1D 21 33-34 44 47 63-64 A1 2934-35 2B05-7 3030 3D 3297 99 1F170-71 7E-7F
      1F202 37 1F321 24-2C 36 7D 96-97 99-9B 9E-9F CB-CE D4-DF F3-F7/2 1F43F 41 FD 1F549-4A 6F-70 73-79 87 8A-8D 90 A5
      A8 B1-B2 BC C2-C4 D1-D3 DC-DE E1 E3 E8 EF F3 FA 1F6CB CD-CF E0-E5 E9 F0 F3" },
  { names := ["Emoji_Component", "ecomp"]
    parts := ["Emoji_Modifier", "Regional_Indicator"]
    extra := "23 2A 30-39 200D E3 FE0F 1F9B0-B3 E0020-7F" },
  { names := ["Ideographic", "ideo"]
    parts := ["Unified_Ideograph"]
    extra := "3006-7 21-29 38-3A F900-FA0D 10 12 15-1E 20 22 25-26 2A-6D 70-D9 16FE4 17000-187F7 18800-18CD5 FF-18D08
      1B170-1B2FB 2F800-2FA1D" },
  { names := ["Hex_Digit", "hex"]
    parts := ["ASCII_Hex_Digit"]
    extra := "FF10-19 21-26 41-46" },
  { names := ["Terminal_Punctuation", "term"]
    parts := ["Sentence_Terminal"]
    extra := "2C 3A-3B 37E 87 5C3 60C 1B 703-A C F8 830-35 38 3A-3C 5E E5A-5B F08 D-12 1361 63-66 16EB-ED 17D6 DA 1802
      4-5 8 1B5D 1C3D-3F 2E41 4C 4E-4F 3001 A4FE A60D F4-F6 A9C7 AADF FE50-51 54-55 FF0C 1A-1B 64 1039F D0 10857 1091F
      10AF0-F5 10B3A-3F 99-9C 11049-4D 1123A 1144D 5A-5B 115C4-C5 11AA1-A2 11C43 71 12470-74 16B39 16E97 1DA87 89-8A" },
  { names := ["ID_Compat_Math_Continue"]
    parts := ["ID_Compat_Math_Start"]
    extra := "B2-B3 B9 2070 74-7E 80-8E" },
  { names := ["Soft_Dotted", "sd"]
    extra := "69-6A 12F 249 68 9D B2 3F3 456 58 1D62 96 A4 A8 1E2D CB 2071 2148-49 2C7C 1D422-23 56-57 8A-8B BE-BF F2-F3
      1D526-27 5A-5B 8E-8F C2-C3 F6-F7 1D62A-2B 5E-5F 92-93 1DF1A 1E04C-4D 68" },
  { names := ["ASCII_Hex_Digit", "ahex"], extra := "30-39 41-46 61-66" },
  { names := ["Bidi_Control", "bidic"], extra := "61C 200E-F 2A-2E 66-69" },
  { names := ["Bidi_Mirrored", "bidim"]
    extra := "28-29 3C 3E 5B 5D 7B 7D AB BB F3A-3D 169B-9C 2039-3A 45-46 7D-7E 8D-8E 2140 2201-4 8-D 11 15-16 1A-1D
      1F-22 24 26 2B-33 39 3B-4C 52-55 5F-60 62 64-6B 6D-8C 8F-92 98 A2-A3 A6-B8 BE-BF C9-CD D0-D1 D6-ED F0-FF 2308-B
      20-21 29-2A 2768-75 C0 C3-C6 C8-C9 CB-CD D3-D6 DC-DE E2-EF 2983-98 9B-A0 A2-AF B8 C0-C5 C9 CE-D2 D4-D5 D8-DC E1
      E3-E5 E8-E9 F4-F9 FC-FD 2A0A-1C 1E-21 24 26 29 2B-2E 34-35 3C-3E 57-58 64-65 6A-6D 6F-70 73-74 79-A3 A6-AD AF-D6
      DC DE E2-E6 EC-EE F3 F7-FB FD 2BFE 2E02-5 9-A C-D 1C-1D 20-29 55-5C 3008-11 14-1B FE59-5E 64-65 FF08-9 1C 1E 3B 3D
      5B 5D 5F-60 62-63 1D6DB 1D715 4F 89 C3" },
  { names := ["Deprecated", "dep"], extra := "149 673 F77 79 17A3-A4 206A-6F 2329-2A E0001" },
  { names := ["Diacritic", "dia"]
    extra := "5E 60 A8 AF B4 B7-B8 2B0-34E 50-57 5D-62 74-75 7A 84-85 483-87 559 91-A1 A3-BD BF C1-C2 C4 64B-52 57-58
      DF-E0 E5-E6 EA-EC 730-4A A6-B0 EB-F5 818-19 98-9F C9-D2 E3-FE 93C 4D 51-54 71 BC CD A3C 4D BC CD FD-FF B3C 4D 55
      CD C3C 4D BC CD D3B-3C 4D CA E3A 47-4C 4E BA C8-CC F18-19 35-39/2 3E-3F 82-84 86-87 C6 1037 39-3A 63-64 69-6D
      87-8D 8F 9A-9B 135D-5F 1714-15 34 C9-D3 DD 1939-3B 1A60 75-7C 7F B0-BE C1-CB 1B34 44 6B-73 AA-AB E6 F2-F3 1C36-37
      78-7D D0-E8 ED F4 F7-F9 1D2C-6A C4-CF F5-FF 1FBD BF-C1 CD-CF DD-DF ED-EF FD-FE 2CEF-F1 2E2F 302A-2F 99-9C FC A66F
      7C-7D 7F 9C-9D F0-F1 A700-21 88-8A F8-F9 A806 2C C4 E0-F1 A92B-2E 53 B3 C0 E5 AA7B-7D BF-C2 F6 AB5B-5F 69-6B EC-ED
      FB1E FE20-2F FF3E 40 70 9E-9F E3 102E0 10780-85 87-B0 B2-BA 10A38-3A 3F E5-E6 10D22-27 4E 69-6D 10EFD-FF 10F46-50
      82-85 11046 70 B9-BA 11133-34 73 C0 CA-CC 11235-36 E9-EA 1133B-3C 4D 66-6C 70-74 CE-D0 D2-D3 E1-E2 11442 46 C2-C3
      115BF-C0 1163F B6-B7 1172B 11839-3A 1193D-3E 43 E0 11A34 47 99 11C3F 11D42 44-45 97 11F41-42 5A 13447-55 1612F
      16AF0-F4 16B30-36 16D6B-6C 16F8F-9F F0-F1 1AFF0-F3 F5-FB FD-FE 1CF00-2D 30-46 1D167-69 6D-72 7B-82 85-8B AA-AD
      1E030-6D 1E130-36 1E2AE EC-EF 1E5EE-EF 1E8D0-D6 1E944-46 48-4A" },
  { names := ["Emoji"]
    extra := "23 2A 30-39 A9 AE 203C 49 2122 39 94-99 A9-AA 231A-1B 28 CF E9-F3 F8-FA 24C2 25AA-AB B6 C0 FB-FE 2600-4 E
      11 14-15 18 1D 20 22-23 26 2A 2E-2F 38-3A 40 42 48-53 5F-60 63 65-66 68 7B 7E-7F 92-97 99 9B-9C A0-A1 A7 AA-AB
      B0-B1 BD-BE C4-C5 C8 CE-CF D1 D3-D4 E9-EA F0-F5 F7-FA FD 2702 5 8-D F 12-16/2 1D 21 28 33-34 44 47 4C 4E 53-55 57
      63-64 95-97 A1 B0 BF 2934-35 2B05-7 1B-1C 50 55 3030 3D 3297 99 1F004 CF 1F170-71 7E-7F 8E 91-9A E6-FF 1F201-2 1A
      2F 32-3A 50-51 1F300-21 24-93 96-97 99-9B 9E-F0 F3-F5 F7-1F4FD FF-1F53D 49-4E 50-67 6F-70 73-7A 87 8A-8D 90 95-96
      A4-A5 A8 B1-B2 BC C2-C4 D1-D3 DC-DE E1 E3 E8 EF F3 FA-1F64F 80-C5 CB-D2 D5-D7 DC-E5 E9 EB-EC F0 F3-FC 1F7E0-EB F0
      1F90C-3A 3C-45 47-FF 1FA70-7C 80-89 8F-C6 CE-DC DF-E9 F0-F8" },
  { names := ["Emoji_Modifier", "emod"], extra := "1F3FB-FF" },
  { names := ["Emoji_Modifier_Base", "ebase"]
    extra := "261D F9 270A-D 1F385 C2-C4 C7 CA-CC 1F442-43 46-50 66-78 7C 81-83 85-87 8F 91 AA 1F574-75 7A 90 95-96
      1F645-47 4B-4F A3 B4-B6 C0 CC 1F90C F 18-1F 26 30-39 3C-3E 77 B5-B6 B8-B9 BB CD-CF D1-DD 1FAC3-C5 F0-F8" },
  { names := ["Extended_Pictographic", "extpict"]
    extra := "A9 AE 203C 49 2122 39 94-99 A9-AA 231A-1B 28 88 CF E9-F3 F8-FA 24C2 25AA-AB B6 C0 FB-FE 2600-5 7-12 14-85
      90-2705 8-12 14 16 1D 21 28 33-34 44 47 4C 4E 53-55 57 63-67 95-97 A1 B0 BF 2934-35 2B05-7 1B-1C 50 55 3030 3D
      3297 99 1F000-FF 1F10D-F 2F 6C-71 7E-7F 8E 91-9A AD-E5 1F201-F 1A 2F 32-3A 3C-3F 49-1F3FA 1F400-1F53D 46-1F64F
      80-FF 1F774-7F D5-FF 1F80C-F 48-4F 5A-5F 88-8F AE-FF 1F90C-3A 3C-45 47-1FAFF 1FC00-1FFFD" },
  { names := ["Extender", "ext"]
    extra := "B7 2D0-D1 640 7FA A71 FB B55 E46 C6 180A 43 1AA7 1C36 7B 3005 31-35 9D-9E FC-FE A015 A60C A9CF E6 AA70 DD
      F3-F4 FF70 10781-82 10D4E 6A 6F 11237 1135D D2-D3 115C6-C8 11A98 16B42-43 16FE0-E1 E3 1E13C-3D 1E5EF 1E944-46" },
  { names := ["Grapheme_Link", "grlink"]
    extra := "94D CD A4D CD B4D CD C4D CD D3B-3C 4D CA E3A BA F84 1039-3A 1714-15 34 D2 1A60 1B44 AA-AB F2-F3 2D7F A806
      2C C4 A953 C0 AAF6 ABED 10A3F 11046 70 7F B9 11133-34 C0 11235 EA 1134D CE-D0 11442 C2 115BF 1163F B6 1172B 11839
      1193D-3E E0 11A34 47 99 11C3F 11D44-45 97 11F41-42 1612F" },
  { names := ["Hyphen"], extra := "2D AD 58A 1806 2010-11 2E17 30FB FE63 FF0D 65" },
  { names := ["IDS_Binary_Operator", "idsb"], extra := "2FF0-F1 F4-FD 31EF" },
  { names := ["IDS_Trinary_Operator", "idst"], extra := "2FF2-F3" },
  { names := ["IDS_Unary_Operator", "idsu"], extra := "2FFE-FF" },
  { names := ["ID_Compat_Math_Start"]
    extra := "2202 7 1E 1D6C1 DB FB 1D715 35 4F 6F 89 A9 C3" },
  { names := ["Join_Control", "joinc"], extra := "200C-D" },
  { names := ["Logical_Order_Exception", "loe"], extra := "E40-44 C0-C4 19B5-B7 BA AAB5-B6 B9 BB-BC" },
  { names := ["Modifier_Combining_Mark", "mcm"], extra := "654-55 58 DC E3 E7-E8 8CA-CB CD-CF D3 F3" },
  { names := ["Noncharacter_Code_Point", "nchar"]
    extra := "FDD0-EF FFFE-FF 1FFFE-FF 2FFFE-FF 3FFFE-FF 4FFFE-FF 5FFFE-FF 6FFFE-FF 7FFFE-FF 8FFFE-FF 9FFFE-FF AFFFE-FF
      BFFFE-FF CFFFE-FF DFFFE-FF EFFFE-FF FFFFE-FF 10FFFE-FF" },
  { names := ["Other_Alphabetic", "oalpha"]
    extra := "345 63-6F 5B0-BD BF C1-C2 C4-C5 C7 610-1A 4B-57 59-5F 70 D6-DC E1-E4 E7-E8 ED 711 30-3F A6-B0 816-17 1B-23
      25-27 29-2C 97 D4-DF E3-E9 F0-903 3A-3B 3E-4C 4E-4F 55-57 62-63 81-83 BE-C4 C7-C8 CB-CC D7 E2-E3 A01-3 3E-42 47-48
      4B-4C 51 70-71 75 81-83 BE-C5 C7-C9 CB-CC E2-E3 FA-FC B01-3 3E-44 47-48 4B-4C 56-57 62-63 82 BE-C2 C6-C8 CA-CC D7
      C00-4 3E-44 46-48 4A-4C 55-56 62-63 81-83 BE-C4 C6-C8 CA-CC D5-D6 E2-E3 F3 D00-3 3E-44 46-48 4A-4C 57 62-63 81-83
      CF-D4 D6 D8-DF F2-F3 E31 34-3A 4D B1 B4-B9 BB-BC CD F71-83 8D-97 99-BC 102B-36 38 3B-3E 56-59 5E-60 62-64 67-6D
      71-74 82-8D 8F 9A-9D 1712-13 32-33 52-53 72-73 B6-C8 1885-86 A9 1920-2B 30-38 1A17-1B 55-5E 61-74 BF-C0 CC-CE
      1B00-4 35-43 80-82 A1-A9 AC-AD E7-F1 1C24-36 1DD3-F4 24B6-E9 2DE0-FF A674-7B 9E-9F A802 B 23-27 80-81 B4-C3 C5 FF
      A926-2A 47-52 80-83 B4-BF E5 AA29-36 43 4C-4D 7B-7D B0 B2-B4 B7-B8 BE EB-EF F5 ABE3-EA FB1E 10376-7A 10A01-3 5-6
      C-F 10D24-27 69 10EAB-AC FC 11000-2 38-45 73-74 80-82 B0-B8 C2 11100-2 27-32 45-46 80-82 B3-BF CE-CF 1122C-34 37
      3E 41 DF-E8 11300-3 3E-44 47-48 4B-4C 57 62-63 B8-C0 C2 C5 C7-CA CC-CD 11435-41 43-45 B0-C1 115AF-B5 B8-BE DC-DD
      11630-3E 40 AB-B5 1171D-2A 1182C-38 11930-35 37-38 3B-3C 40 42 D1-D7 DA-DF E4 11A01-A 35-39 3B-3E 51-5B 8A-97
      11C2F-36 38-3E 92-A7 A9-B6 11D31-36 3A 3C-3D 3F-41 43 47 8A-8E 90-91 93-96 11EF3-F6 11F00-1 3 34-3A 3E-40 1611E-2E
      16F4F 51-87 8F-92 F0-F1 1BC9E 1E000-6 8-18 1B-21 23-24 26-2A 8F 1E947 1F130-49 50-69 70-89" },
  { names := ["Other_Default_Ignorable_Code_Point", "odi"]
    extra := "34F 115F-60 17B4-B5 2065 3164 FFA0 F0-F8 E0000 2-1F 80-FF E01F0-E0FFF" },
  { names := ["Other_Grapheme_Extend", "ogrext"]
    extra := "9BE D7 B3E 57 BE D7 CC0 C2 C7-C8 CA-CB D5-D6 D3E 57 CF DF 1715 34 1B35 3B 3D 43-44 AA F2-F3 200C 302E-2F
      A953 C0 FF9E-9F 111C0 11235 1133E 4D 57 B8 C2 C5 C7-C9 CF 114B0 BD 115AF 116B6 11930 3D 11F41 16FF0-F1 1D165-66
      6D-72 E0020-7F" },
  { names := ["Other_ID_Continue", "oidc"], extra := "B7 387 1369-71 19DA 200C-D 30FB FF65" },
  { names := ["Other_ID_Start", "oids"], extra := "1885-86 2118 2E 309B-9C" },
  { names := ["Other_Lowercase", "olower"]
    extra := "AA BA 2B0-B8 C0-C1 E0-E4 345 7A 10FC 1D2C-6A 78 9B-BF 2071 7F 90-9C 2170-7F 24D0-E9 2C7C-7D A69C-9D A770
      F2-F4 F8-F9 AB5C-5F 69 10780 83-85 87-B0 B2-BA 1E030-6D" },
  { names := ["Other_Math", "omath"]
    extra := "5E 3D0-D2 D5 F0-F1 F4-F5 2016 32-34 40 61-64 7D-7E 8D-8E D0-DC E1 E5-E6 EB-EF 2102 7 A-13 15 19-1D 24
      28-29 2C-2D 2F-31 33-38 3C-3F 45-49 95-99 9C-9F A1-A2 A4-A5 A7 A9-AD B0-B1 B6-B7 BC-CD D0-D1 D3 D5-DB DD E4-E5
      2308-B B4-B5 B7 D0 E2 25A0-A1 AE-B6 BC-C0 C6-C7 CA-CB CF-D3 E2 E4 E7-EC 2605-6 40 42 60-63 6D-6E 27C5-C6 E6-EF
      2983-98 D8-DB FC-FD FE61 63 68 FF3C 3E 1D400-54 56-9C 9E-9F A2 A5-A6 A9-AC AE-B9 BB BD-C3 C5-1D505 7-A D-14 16-1C
      1E-39 3B-3E 40-44 46 4A-50 52-1D6A5 A8-C0 C2-DA DC-FA FC-1D714 16-34 36-4E 50-6E 70-88 8A-A8 AA-C2 C4-CB CE-FF
      1EE00-3 5-1F 21-22 24 27 29-32 34-37 39 3B 42 47-4B/2 4D-4F 51-52 54 57-5F/2 61-62 64 67-6A 6C-72 74-77 79-7C 7E
      80-89 8B-9B A1-A3 A5-A9 AB-BB" },
  { names := ["Other_Uppercase", "oupper"], extra := "2160-6F 24B6-CF 1F130-49 50-69 70-89" },
  { names := ["Pattern_Syntax", "patsyn"]
    extra := "21-2F 3A-40 5B-5E 60 7B-7E A1-A7 A9 AB-AC AE B0-B1 B6 BB BF D7 F7 2010-27 30-3E 41-53 55-5E 2190-245F
      2500-2775 94-2BFF 2E00-7F 3001-3 8-20 30 FD3E-3F FE45-46" },
  { names := ["Pattern_White_Space", "patws"], extra := "9-D 20 85 200E-F 28-29" },
  { names := ["Prepended_Concatenation_Mark", "pcm"], extra := "600-5 DD 70F 890-91 E2 110BD CD" },
  { names := ["Quotation_Mark", "qmark"]
    extra := "22 27 AB BB 2018-1F 39-3A 2E42 300C-F 1D-1F FE41-44 FF02 7 62-63" },
  { names := ["Radical"], extra := "2E80-99 9B-F3 2F00-D5" },
  { names := ["Regional_Indicator", "ri"], extra := "1F1E6-FF" },
  { names := ["Sentence_Terminal", "sterm"]
    extra := "21 2E 3F 589 61D-1F D4 700-2 F9 837 39 3D-3E 964-65 104A-4B 1362 67-68 166E 1735-36 D4-D5 1803 9 1944-45
      1AA8-AB 1B4E-4F 5A-5B 5E-5F 7D-7F 1C3B-3C 7E-7F 2024 3C-3D 47-49 2CF9-FB 2E2E 3C 53-54 3002 A4FF A60E-F F3 F7
      A876-77 CE-CF A92F C8-C9 AA5D-5F F0-F1 ABEB FE12 15-16 52 56-57 FF01 E 1F 61 10A56-57 10F55-59 86-89 11047-48
      BE-C1 11141-43 C5-C6 CD DE-DF 11238-39 3B-3C A9 113D4-D5 1144B-4C 115C2-C3 C9-D7 11641-42 1173C-3E 11944 46
      11A42-43 9B-9C 11C41-42 11EF7-F8 11F43-44 16A6E-6F F5 16B37-38 44 16D6E-6F 16E98 1BC9F 1DA88" },
  { names := ["Unified_Ideograph", "uideo"]
    extra := "3400-4DBF 4E00-9FFF FA0E-F 11 13-14 1F 21 23-24 27-29 20000-2A6DF 2A700-2B739 40-2B81D 20-2CEA1 B0-2EBE0
      F0-2EE5D 30000-3134A 50-323AF" },
  { names := ["Variation_Selector", "vs"], extra := "180B-D F FE00-F E0100-EF" },
  { names := ["White_Space", "space", "wspace"], extra := "9-D 20 85 A0 1680 2000-A 28-29 2F 5F 3000" }]

end GuestScript.Text
