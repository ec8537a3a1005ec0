import GuestScript.Text.NamedSet

/-!
# General categories

Every code point has one general category, with a name of two letters and a long one; the categories come in
groups with a name of one letter. A code point that is in no table has the category of unassigned ones.
-/

namespace GuestScript.Text

/-- The categories and their groups, and the sets of all, of assigned and of ASCII characters. -/
def categories : List NamedSet := [
  { names := ["C", "Other"], parts := ["Cc", "Cf", "Co", "Cn"] },
  { names := ["L", "Letter"], parts := ["Lu", "Ll", "Lt", "Lm", "Lo"] },
  { names := ["LC", "Cased_Letter"], parts := ["Lu", "Ll", "Lt"] },
  { names := ["M", "Mark", "combiningmark"], parts := ["Mn", "Mc", "Me"] },
  { names := ["N", "Number"], parts := ["Nd", "Nl", "No"] },
  { names := ["P", "Punctuation", "punct"], parts := ["Pc", "Pd", "Ps", "Pe", "Pi", "Pf", "Po"] },
  { names := ["S", "Symbol"], parts := ["Sm", "Sc", "Sk", "So"] },
  { names := ["Z", "Separator"], parts := ["Zs", "Zl", "Zp"] },
  { names := ["Assigned"]
    parts := ["Any"]
    without := ["Cn"] },
  { names := ["Cn", "Unassigned"]
    parts := ["Any"]
    without := ["Lu", "Ll", "Lt", "Lm", "Lo", "Mn", "Mc", "Me", "Nd", "Nl", "No", "Pc", "Pd", "Ps",
      "Pe", "Pi", "Pf", "Po", "Sm", "Sc", "Sk", "So", "Zs", "Zl", "Zp", "Cc", "Cf", "Co"]
    missing := "D800-DFFF" },
  { names := ["Lu", "Uppercase_Letter"]
    extra := "41-5A C0-D6 D8-DE 100-36/2 39-47/2 4A-76/2 78-79 7B 7D 81-82 84 86-87 89-8B 8E-91 93-94 96-98 9C-9D 9F-A0
      A2 A4 A6-A7 A9 AC AE-AF B1-B3 B5 B7-B8 BC C4 C7 CA CD-DB/2 DE-EE/2 F1 F4 F6-F8 FA-232/2 3A-3B 3D-3E 41 43-46
      48-4E/2 370 72 76 7F 86 88-8A 8C 8E-8F 91-A1 A3-AB CF D2-D4 D8-EE/2 F4 F7 F9-FA FD-42F 60-80/2 8A-BE/2 C0-C1
      C3-CD/2 D0-52E/2 31-56 10A0-C5 C7 CD 13A0-F5 1C89 90-BA BD-BF 1E00-94/2 9E-FE/2 1F08-F 18-1D 28-2F 38-3F 48-4D
      59-5F/2 68-6F B8-BB C8-CB D8-DB E8-EC F8-FB 2102 7 B-D 10-12 15 19-1D 24-28/2 2A-2D 30-33 3E-3F 45 83 2C00-2F 60
      62-64 67-6B/2 6D-70 72 75 7E-80 82-E2/2 EB ED F2 A640-6C/2 80-9A/2 A722-2E/2 32-6E/2 79 7B 7D-7E 80-86/2 8B 8D 90
      92 96-A8/2 AA-AE B0-B4 B6-C2/2 C4-C7 C9 CB-CC D0 D6-DC/2 F5 FF21-3A 10400-27 B0-D3 10570-7A 7C-8A 8C-92 94-95
      10C80-B2 10D50-65 118A0-BF 16E40-5F 1D400-19 34-4D 68-81 9C 9E-9F A2 A5-A6 A9-AC AE-B5 D0-E9 1D504-5 7-A D-14
      16-1C 38-39 3B-3E 40-44 46 4A-50 6C-85 A0-B9 D4-ED 1D608-21 3C-55 70-89 A8-C0 E2-FA 1D71C-34 56-6E 90-A8 CA
      1E900-21" },
  { names := ["Ll", "Lowercase_Letter"]
    extra := "61-7A B5 DF-F6 F8-FF 101-35/2 37-38 3A-46/2 48-49 4B-77/2 7A 7C 7E-80 83 85 88 8C-8D 92 95 99-9B 9E
      A1-A5/2 A8 AA-AB AD B0 B4 B6 B9-BA BD-BF C6 C9 CC-DA/2 DC-DD DF-ED/2 EF-F0 F3 F5 F9-231/2 33-39 3C 3F-40 42
      47-4D/2 4F-93 95-AF 371 73 77 7B-7D 90 AC-CE D0-D1 D5-D7 D9-ED/2 EF-F3 F5 F8 FB-FC 430-5F 61-81/2 8B-BF/2 C2-CC/2
      CE-CF D1-52F/2 60-88 10D0-FA FD-FF 13F8-FD 1C80-88 8A 1D00-2B 6B-77 79-9A 1E01-93/2 95-9D 9F-FD/2 FF-1F07 10-15
      20-27 30-37 40-45 50-57 60-67 70-7D 80-87 90-97 A0-A7 B0-B4 B6-B7 BE C2-C4 C6-C7 D0-D3 D6-D7 E0-E7 F2-F4 F6-F7
      210A E-F 13 2F 34 39 3C-3D 46-49 4E 84 2C30-5F 61 65-66 68-6C/2 71 73-74 76-7B 81-E1/2 E3-E4 EC EE F3 2D00-25 27
      2D A641-6D/2 81-9B/2 A723-2D/2 2F-31 33-6F/2 71-78 7A 7C 7F-87/2 8C 8E 91 93-95 97-A9/2 AF B5-C3/2 C8 CA CD
      D1-DB/2 F6 FA AB30-5A 60-68 70-BF FB00-6 13-17 FF41-5A 10428-4F D8-FB 10597-A1 A3-B1 B3-B9 BB-BC 10CC0-F2 10D70-85
      118C0-DF 16E60-7F 1D41A-33 4E-54 56-67 82-9B B6-B9 BB BD-C3 C5-CF EA-1D503 1E-37 52-6B 86-9F BA-D3 EE-1D607 22-3B
      56-6F 8A-A5 C2-DA DC-E1 FC-1D714 16-1B 36-4E 50-55 70-88 8A-8F AA-C2 C4-C9 CB 1DF00-9 B-1E 25-2A 1E922-43" },
  { names := ["Lt", "Titlecase_Letter"], extra := "1C5 C8 CB F2 1F88-8F 98-9F A8-AF BC CC FC" },
  { names := ["Lm", "Modifier_Letter"]
    extra := "2B0-C1 C6-D1 E0-E4 EC EE 374 7A 559 640 E5-E6 7F4-F5 FA 81A 24 28 C9 971 E46 C6 10FC 17D7 1843 1AA7
      1C78-7D 1D2C-6A 78 9B-BF 2071 7F 90-9C 2C7C-7D 2D6F 2E2F 3005 31-35 3B 9D-9E FC-FE A015 A4F8-FD A60C 7F 9C-9D
      A717-1F 70 88 F2-F4 F8-F9 A9CF E6 AA70 DD F3-F4 AB5C-5F 69 FF70 9E-9F 10780-85 87-B0 B2-BA 10D4E 6F 16B40-43
      16D40-42 6B-6C 16F93-9F E0-E1 E3 1AFF0-F3 F5-FB FD-FE 1E030-6D 1E137-3D 1E4EB 1E94B" },
  { names := ["Lo", "Other_Letter"]
    extra := "AA BA 1BB C0-C3 294 5D0-EA EF-F2 620-3F 41-4A 6E-6F 71-D3 D5 EE-EF FA-FC FF 710 12-2F 4D-A5 B1 CA-EA
      800-15 40-58 60-6A 70-87 89-8E A0-C8 904-39 3D 50 58-61 72-80 85-8C 8F-90 93-A8 AA-B0 B2 B6-B9 BD CE DC-DD DF-E1
      F0-F1 FC A05-A F-10 13-28 2A-30 32-33 35-36 38-39 59-5C 5E 72-74 85-8D 8F-91 93-A8 AA-B0 B2-B3 B5-B9 BD D0 E0-E1
      F9 B05-C F-10 13-28 2A-30 32-33 35-39 3D 5C-5D 5F-61 71 83 85-8A 8E-90 92-95 99-9A 9C 9E-9F A3-A4 A8-AA AE-B9 D0
      C05-C E-10 12-28 2A-39 3D 58-5A 5D 60-61 80 85-8C 8E-90 92-A8 AA-B3 B5-B9 BD DD-DE E0-E1 F1-F2 D04-C E-10 12-3A 3D
      4E 54-56 5F-61 7A-7F 85-96 9A-B1 B3-BB BD C0-C6 E01-30 32-33 40-45 81-82 84 86-8A 8C-A3 A5 A7-B0 B2-B3 BD C0-C4
      DC-DF F00 40-47 49-6C 88-8C 1000-2A 3F 50-55 5A-5D 61 65-66 6E-70 75-81 8E 1100-1248 4A-4D 50-56 58 5A-5D 60-88
      8A-8D 90-B0 B2-B5 B8-BE C0 C2-C5 C8-D6 D8-1310 12-15 18-5A 80-8F 1401-166C 6F-7F 81-9A A0-EA F1-F8 1700-11 1F-31
      40-51 60-6C 6E-70 80-B3 DC 1820-42 44-78 80-84 87-A8 AA B0-F5 1900-1E 50-6D 70-74 80-AB B0-C9 1A00-16 20-54
      1B05-33 45-4C 83-A0 AE-AF BA-E5 1C00-23 4D-4F 5A-77 E9-EC EE-F3 F5-F6 FA 2135-38 2D30-67 80-96 A0-A6 A8-AE B0-B6
      B8-BE C0-C6 C8-CE D0-D6 D8-DE 3006 3C 41-96 9F A1-FA FF 3105-2F 31-8E A0-BF F0-FF 3400-4DBF 4E00-A014 16-A48C
      D0-F7 A500-A60B 10-1F 2A-2B 6E A0-E5 A78F F7 FB-A801 3-5 7-A C-22 40-73 82-B3 F2-F7 FB FD-FE A90A-25 30-46 60-7C
      84-B2 E0-E4 E7-EF FA-FE AA00-28 40-42 44-4B 60-6F 71-76 7A 7E-AF B1 B5-B6 B9-BD C0 C2 DB-DC E0-EA F2 AB01-6 9-E
      11-16 20-26 28-2E C0-E2 AC00-D7A3 B0-C6 CB-FB F900-FA6D 70-D9 FB1D 1F-28 2A-36 38-3C 3E 40-41 43-44 46-B1 D3-FD3D
      50-8F 92-C7 F0-FB FE70-74 76-FC FF66-6F 71-9D A0-BE C2-C7 CA-CF D2-D7 DA-DC 10000-B D-26 28-3A 3C-3D 3F-4D 50-5D
      80-FA 10280-9C A0-D0 10300-1F 2D-40 42-49 50-75 80-9D A0-C3 C8-CF 10450-9D 10500-27 30-63 C0-F3 10600-10736 40-55
      60-67 10800-5 8 A-35 37-38 3C 3F-55 60-76 80-9E E0-F2 F4-F5 10900-15 20-39 80-B7 BE-BF 10A00 10-13 15-17 19-35
      60-7C 80-9C C0-C7 C9-E4 10B00-35 40-55 60-72 80-91 10C00-48 10D00-23 4A-4D 4F 10E80-A9 B0-B1 C2-C4 10F00-1C 27
      30-45 70-81 B0-C4 E0-F6 11003-37 71-72 75 83-AF D0-E8 11103-26 44 47 50-72 76 83-B2 C1-C4 DA DC 11200-11 13-2B
      3F-40 80-86 88 8A-8D 8F-9D 9F-A8 B0-DE 11305-C F-10 13-28 2A-30 32-33 35-39 3D 50 5D-61 80-89 8B 8E 90-B5 B7 D1 D3
      11400-34 47-4A 5F-61 80-AF C4-C5 C7 11580-AE D8-DB 11600-2F 44 80-AA B8 11700-1A 40-46 11800-2B FF-11906 9 C-13
      15-16 18-2F 3F 41 A0-A7 AA-D0 E1 E3 11A00 B-32 3A 50 5C-89 9D B0-F8 11BC0-E0 11C00-8 A-2E 40 72-8F 11D00-6 8-9
      B-30 46 60-65 67-68 6A-89 98 11EE0-F2 11F02 4-10 12-33 B0 12000-12399 12480-12543 12F90-F0 13000-1342F 41-46
      60-143FA 14400-14646 16100-1D 16800-16A38 40-5E 70-BE D0-ED 16B00-2F 63-77 7D-8F 16D43-6A 16F00-4A 50 17000-187F7
      18800-18CD5 FF-18D08 1B000-1B122 32 50-52 55 64-67 70-1B2FB 1BC00-6A 70-7C 80-88 90-99 1DF0A 1E100-2C 4E 1E290-AD
      C0-EB 1E4D0-EA 1E5D0-ED F0 1E7E0-E6 E8-EB ED-EE F0-FE 1E800-C4 1EE00-3 5-1F 21-22 24 27 29-32 34-37 39 3B 42
      47-4B/2 4D-4F 51-52 54 57-5F/2 61-62 64 67-6A 6C-72 74-77 79-7C 7E 80-89 8B-9B A1-A3 A5-A9 AB-BB 20000-2A6DF
      2A700-2B739 40-2B81D 20-2CEA1 B0-2EBE0 F0-2EE5D 2F800-2FA1D 30000-3134A 50-323AF" },
  { names := ["Mn", "Nonspacing_Mark"]
    extra := "300-6F 483-87 591-BD BF C1-C2 C4-C5 C7 610-1A 4B-5F 70 D6-DC DF-E4 E7-E8 EA-ED 711 30-4A A6-B0 EB-F3 FD
      816-19 1B-23 25-27 29-2D 59-5B 97-9F CA-E1 E3-902 3A 3C 41-48 4D 51-57 62-63 81 BC C1-C4 CD E2-E3 FE A01-2 3C
      41-42 47-48 4B-4D 51 70-71 75 81-82 BC C1-C5 C7-C8 CD E2-E3 FA-FF B01 3C 3F 41-44 4D 55-56 62-63 82 C0 CD C00 4 3C
      3E-40 46-48 4A-4D 55-56 62-63 81 BC BF C6 CC-CD E2-E3 D00-1 3B-3C 41-44 4D 62-63 81 CA D2-D4 D6 E31 34-3A 47-4E B1
      B4-BC C8-CE F18-19 35-39/2 71-7E 80-84 86-87 8D-97 99-BC C6 102D-30 32-37 39-3A 3D-3E 58-59 5E-60 71-74 82 85-86
      8D 9D 135D-5F 1712-14 32-33 52-53 72-73 B4-B5 B7-BD C6 C9-D3 DD 180B-D F 85-86 A9 1920-22 27-28 32 39-3B 1A17-18
      1B 56 58-5E 60 62 65-6C 73-7C 7F B0-BD BF-CE 1B00-3 34 36-3A 3C 42 6B-73 80-81 A2-A5 A8-A9 AB-AD E6 E8-E9 ED EF-F1
      1C2C-33 36-37 D0-D2 D4-E0 E2-E8 ED F4 F8-F9 1DC0-FF 20D0-DC E1 E5-F0 2CEF-F1 2D7F E0-FF 302A-2D 99-9A A66F 74-7D
      9E-9F F0-F1 A802 6 B 25-26 2C C4-C5 E0-F1 FF A926-2D 47-51 80-82 B3 B6-B9 BC-BD E5 AA29-2E 31-32 35-36 43 4C 7C B0
      B2-B4 B7-B8 BE-BF C1 EC-ED F6 ABE5 E8 ED FB1E FE00-F 20-2F 101FD 102E0 10376-7A 10A01-3 5-6 C-F 38-3A 3F E5-E6
      10D24-27 69-6D 10EAB-AC FC-FF 10F46-50 82-85 11001 38-46 70 73-74 7F-81 B3-B6 B9-BA C2 11100-2 27-2B 2D-34 73
      80-81 B6-BE C9-CC CF 1122F-31 34 36-37 3E 41 DF E3-EA 11300-1 3B-3C 40 66-6C 70-74 BB-C0 CE-D2/2 E1-E2 11438-3F
      42-44 46 5E B3-B8 BA BF-C0 C2-C3 115B2-B5 BC-BD BF-C0 DC-DD 11633-3A 3D 3F-40 AB AD B0-B5 B7 1171D 1F 22-25 27-2B
      1182F-37 39-3A 1193B-3C 3E 43 D4-D7 DA-DB E0 11A01-A 33-38 3B-3E 47 51-56 59-5B 8A-96 98-99 11C30-36 38-3D 3F
      92-A7 AA-B0 B2-B3 B5-B6 11D31-36 3A 3C-3D 3F-45 47 90-91 95 97 11EF3-F4 11F00-1 36-3A 40 42 5A 13440 47-55
      1611E-29 2D-2F 16AF0-F4 16B30-36 16F4F 8F-92 E4 1BC9D-9E 1CF00-2D 30-46 1D167-69 7B-82 85-8B AA-AD 1D242-44
      1DA00-36 3B-6C 75 84 9B-9F A1-AF 1E000-6 8-18 1B-21 23-24 26-2A 8F 1E130-36 1E2AE EC-EF 1E4EC-EF 1E5EE-EF 1E8D0-D6
      1E944-4A E0100-EF" },
  { names := ["Mc", "Spacing_Mark"]
    extra := "903 3B 3E-40 49-4C 4E-4F 82-83 BE-C0 C7-C8 CB-CC D7 A03 3E-40 83 BE-C0 C9 CB-CC B02-3 3E 40 47-48 4B-4C 57
      BE-BF C1-C2 C6-C8 CA-CC D7 C01-3 41-44 82-83 BE C0-C4 C7-C8 CA-CB D5-D6 F3 D02-3 3E-40 46-48 4A-4C 57 82-83 CF-D1
      D8-DF F2-F3 F3E-3F 7F 102B-2C 31 38 3B-3C 56-57 62-64 67-6D 83-84 87-8C 8F 9A-9C 1715 34 B6 BE-C5 C7-C8 1923-26
      29-2B 30-31 33-38 1A19-1A 55 57 61 63-64 6D-72 1B04 35 3B 3D-41 43-44 82 A1 A6-A7 AA E7 EA-EC EE F2-F3 1C24-2B
      34-35 E1 F7 302E-2F A823-24 27 80-81 B4-C3 A952-53 83 B4-B5 BA-BB BE-C0 AA2F-30 33-34 4D 7B 7D EB EE-EF F5 ABE3-E4
      E6-E7 E9-EA EC 11000 2 82 B0-B2 B7-B8 1112C 45-46 82 B3-B5 BF-C0 CE 1122C-2E 32-33 35 E0-E2 11302-3 3E-3F 41-44
      47-48 4B-4D 57 62-63 B8-BA C2 C5 C7-CA CC-CD CF 11435-37 40-41 45 B0-B2 B9 BB-BE C1 115AF-B1 B8-BB BE 11630-32
      3B-3C 3E AC AE-AF B6 1171E 20-21 26 1182C-2E 38 11930-35 37-38 3D 40 42 D1-D3 DC-DF E4 11A39 57-58 97 11C2F 3E A9
      B1 B4 11D8A-8E 93-94 96 11EF5-F6 11F03 34-35 3E-3F 41 1612A-2C 16F51-87 F0-F1 1D165-66 6D-72" },
  { names := ["Me", "Enclosing_Mark"], extra := "488-89 1ABE 20DD-E0 E2-E4 A670-72" },
  { names := ["Nd", "Decimal_Number", "digit"]
    extra := "30-39 660-69 F0-F9 7C0-C9 966-6F E6-EF A66-6F E6-EF B66-6F E6-EF C66-6F E6-EF D66-6F E6-EF E50-59 D0-D9
      F20-29 1040-49 90-99 17E0-E9 1810-19 1946-4F D0-D9 1A80-89 90-99 1B50-59 B0-B9 1C40-49 50-59 A620-29 A8D0-D9
      A900-9 D0-D9 F0-F9 AA50-59 ABF0-F9 FF10-19 104A0-A9 10D30-39 40-49 11066-6F F0-F9 11136-3F D0-D9 112F0-F9 11450-59
      D0-D9 11650-59 C0-C9 D0-E3 11730-39 118E0-E9 11950-59 11BF0-F9 11C50-59 11D50-59 A0-A9 11F50-59 16130-39 16A60-69
      C0-C9 16B50-59 16D70-79 1CCF0-F9 1D7CE-FF 1E140-49 1E2F0-F9 1E4F0-F9 1E5F1-FA 1E950-59 1FBF0-F9" },
  { names := ["Nl", "Letter_Number"]
    extra := "16EE-F0 2160-82 85-88 3007 21-29 38-3A A6E6-EF 10140-74 10341 4A D1-D5 12400-6E" },
  { names := ["No", "Other_Number"]
    extra := "B2-B3 B9 BC-BE 9F4-F9 B72-77 F0-F2 C78-7E D58-5E 70-78 F2A-33 1369-7C 17F0-F9 19DA 2070 74-79 80-89
      2150-5F 89 2460-9B EA-FF 2776-93 2CFD 3192-95 3220-29 48-4F 51-5F 80-89 B1-BF A830-35 10107-33 75-78 8A-8B
      102E1-FB 10320-23 10858-5F 79-7F A7-AF FB-FF 10916-1B BC-BD C0-CF D2-FF 10A40-48 7D-7E 9D-9F EB-EF 10B58-5F 78-7F
      A9-AF 10CFA-FF 10E60-7E 10F1D-26 51-54 C5-CB 11052-65 111E1-F4 1173A-3B 118EA-F2 11C5A-6C 11FC0-D4 16B5B-61
      16E80-96 1D2C0-D3 E0-F3 1D360-78 1E8C7-CF 1EC71-AB AD-AF B1-B4 1ED01-2D 2F-3D 1F100-C" },
  { names := ["Pc", "Connector_Punctuation"], extra := "5F 203F-40 54 FE33-34 4D-4F FF3F" },
  { names := ["Pd", "Dash_Punctuation"]
    extra := "2D 58A BE 1400 1806 2010-15 2E17 1A 3A-3B 40 5D 301C 30 A0 FE31-32 58 63 FF0D 10D6E 10EAD" },
  { names := ["Ps", "Open_Punctuation"]
    extra := "28 5B 7B F3A 3C 169B 201A 1E 45 7D 8D 2308 A 29 2768-74/2 C5 E6-EE/2 2983-97/2 D8 DA FC 2E22-28/2 42
      55-5B/2 3008-10/2 14-1A/2 1D FD3F FE17 35-43/2 47 59-5D/2 FF08 3B 5B 5F 62" },
  { names := ["Pe", "Close_Punctuation"]
    extra := "29 5D 7D F3B 3D 169C 2046 7E 8E 2309 B 2A 2769-75/2 C6 E7-EF/2 2984-98/2 D9 DB FD 2E23-29/2 56-5C/2
      3009-11/2 15-1B/2 1E-1F FD3E FE18 36-44/2 48 5A-5E/2 FF09 3D 5D 60 63" },
  { names := ["Pi", "Initial_Punctuation"], extra := "AB 2018 1B-1C 1F 39 2E02 4 9 C 1C 20" },
  { names := ["Pf", "Final_Punctuation"], extra := "BB 2019 1D 3A 2E03 5 A D 1D 21" },
  { names := ["Po", "Other_Punctuation"]
    extra := "21-23 25-27 2A 2C 2E-2F 3A-3B 3F-40 5C A1 A7 B6-B7 BF 37E 87 55A-5F 89 C0 C3 C6 F3-F4 609-A C-D 1B 1D-1F
      6A-6D D4 700-D F7-F9 830-3E 5E 964-65 70 FD A76 F0 C77 84 DF4 E4F 5A-5B F04-12 14 85 D0-D4 D9-DA 104A-4F FB
      1360-68 166E EB-ED 1735-36 D4-D6 D8-DA 1800-5 7-A 1944-45 1A1E-1F A0-A6 A8-AD 1B4E-4F 5A-60 7D-7F FC-FF 1C3B-3F
      7E-7F C0-C7 D3 2016-17 20-27 30-38 3B-3E 41-43 47-51 53 55-5E 2CF9-FC FE-FF 2D70 2E00-1 6-8 B E-16 18-19 1B 1E-1F
      2A-2E 30-39 3C-3F 41 43-4F 52-54 3001-3 3D FB A4FE-FF A60D-F 73 7E F2-F7 A874-77 CE-CF F8-FA FC A92E-2F 5F C1-CD
      DE-DF AA5C-5F DE-DF F0-F1 ABEB FE10-16 19 30 45-46 49-4C 50-52 54-57 5F-61 68 6A-6B FF01-3 5-7 A C E-F 1A-1B 1F-20
      3C 61 64-65 10100-2 1039F D0 1056F 10857 1091F 3F 10A50-58 7F F0-F6 10B39-3F 99-9C 10F55-59 86-89 11047-4D BB-BC
      BE-C1 11140-43 74-75 C5-C8 CD DB DD-DF 11238-3D A9 113D4-D5 D7-D8 1144B-4F 5A-5B 5D C6 115C1-D7 11641-43 60-6C B9
      1173C-3E 1183B 11944-46 E2 11A3F-46 9A-9C 9E-A2 11B00-9 E1 11C41-45 70-71 11EF7-F8 11F43-4F FF 12470-74 12FF1-F2
      16A6E-6F F5 16B37-3B 44 16D6D-6F 16E97-9A 16FE2 1BC9F 1DA87-8B 1E5FF 1E95E-5F" },
  { names := ["Sm", "Math_Symbol"]
    extra := "2B 3C-3E 7C 7E AC B1 D7 F7 3F6 606-8 2044 52 7A-7C 8A-8C 2118 40-44 4B 90-94 9A-9B A0 A3 A6 AE CE-CF D2 D4
      F4-22FF 2320-21 7C 9B-B3 DC-E1 25B7 C1 F8-FF 266F 27C0-C4 C7-E5 F0-FF 2900-82 99-D7 DC-FB FE-2AFF 2B30-44 47-4C
      FB29 FE62 64-66 FF0B 1C-1E 5C 5E E2 E9-EC 10D8E-8F 1D6C1 DB FB 1D715 35 4F 6F 89 A9 C3 1EEF0-F1" },
  { names := ["Sc", "Currency_Symbol"]
    extra := "24 A2-A5 58F 60B 7FE-FF 9F2-F3 FB AF1 BF9 E3F 17DB 20A0-C0 A838 FDFC FE69 FF04 E0-E1 E5-E6 11FDD-E0 1E2FF
      1ECB0" },
  { names := ["Sk", "Modifier_Symbol"]
    extra := "5E 60 A8 AF B4 B8 2C2-C5 D2-DF E5-EB ED EF-FF 375 84-85 888 1FBD BF-C1 CD-CF DD-DF ED-EF FD-FE 309B-9C
      A700-16 20-21 89-8A AB5B 6A-6B FBB2-C2 FF3E 40 E3 1F3FB-FF" },
  { names := ["So", "Other_Symbol"]
    extra := "A6 A9 AE B0 482 58D-8E 60E-F DE E9 FD-FE 7F6 9FA B70 F3-F8 FA C7F D4F 79 F01-3 13 15-17 1A-1F 34-38/2
      BE-C5 C7-CC CE-CF D5-D8 109E-9F 1390-99 166D 1940 DE-FF 1B61-6A 74-7C 2100-1 3-6 8-9 14 16-17 1E-23 25-29/2 2E
      3A-3B 4A 4C-4D 4F 8A-8B 95-99 9C-9F A1-A2 A4-A5 A7-AD AF-CD D0-D1 D3 D5-F3 2300-7 C-1F 22-28 2B-7B 7D-9A B4-DB
      E2-2429 40-4A 9C-E9 2500-B6 B8-C0 C2-F7 2600-6E 70-2767 94-BF 2800-FF 2B00-2F 45-46 4D-73 76-95 97-FF 2CE5-EA
      2E50-51 80-99 9B-F3 2F00-D5 F0-FF 3004 12-13 20 36-37 3E-3F 3190-91 96-9F C0-E5 EF 3200-1E 2A-47 50 60-7F 8A-B0
      C0-33FF 4DC0-FF A490-C6 A828-2B 36-37 39 AA77-79 FD40-4F CF FD-FF FFE4 E8 ED-EE FC-FD 10137-3F 79-89 8C-8E 90-9C
      A0 D0-FC 10877-78 10AC8 1173F 11FD5-DC E1-F1 16B3C-3F 45 1BC9C 1CC00-EF 1CD00-1CEB3 1CF50-C3 1D000-F5 1D100-26
      29-64 6A-6C 83-84 8C-A9 AE-EA 1D200-41 45 1D300-56 1D800-1D9FF 1DA37-3A 6D-74 76-83 85-86 1E14F 1ECAC 1ED2E
      1F000-2B 30-93 A0-AE B1-BF C1-CF D1-F5 1F10D-AD E6-1F202 10-3B 40-48 50-51 60-65 1F300-FA 1F400-1F6D7 DC-EC F0-FC
      1F700-76 7B-D9 E0-EB F0 1F800-B 10-47 50-59 60-87 90-AD B0-BB C0-C1 1F900-1FA53 60-6D 70-7C 80-89 8F-C6 CE-DC
      DF-E9 F0-F8 1FB00-92 94-EF" },
  { names := ["Zs", "Space_Separator"], extra := "20 A0 1680 2000-A 2F 5F 3000" },
  { names := ["Zl", "Line_Separator"], extra := "2028" },
  { names := ["Zp", "Paragraph_Separator"], extra := "2029" },
  { names := ["Cc", "Control", "cntrl"], extra := "0-1F 7F-9F" },
  { names := ["Cf", "Format"]
    extra := "AD 600-5 1C DD 70F 890-91 E2 180E 200B-F 2A-2E 60-64 66-6F FEFF FFF9-FB 110BD CD 13430-3F 1BCA0-A3
      1D173-7A E0001 20-7F" },
  { names := ["Co", "Private_Use"], extra := "E000-F8FF F0000-FFFFD 100000-10FFFD" },
  { names := ["Any"], extra := "0-10FFFF" },
  { names := ["ASCII"], extra := "0-7F" }]

/-- Names of the category of the code points that are no characters. -/
def surrogateNames : List String := ["Cs", "Surrogate"]

end GuestScript.Text
