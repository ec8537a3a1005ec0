import GuestScript.Text.NamedSet

/-!
# Ages of characters

The versions of the character standard in their order, with the code points that each one added. A code
point is of an age when it was there in that version.
-/

namespace GuestScript.Text

/-- The versions, and what each one added. -/
def versions : List NamedSet := [
  { names := ["V1_1", "1.1"]
    extra := "0-1F5 FA-217 50-A8 B0-DE E0-E9 300-45 60-61 74-75 7A 7E 84-8A 8C 8E-A1 A3-CE D0-D6 DA-E0/2 E2-F3 401-C
      E-4F 51-5C 5E-86 90-C4 C7-C8 CB-CC D0-EB EE-F5 F8-F9 531-56 59-5F 61-87 89 B0-B9 BB-C3 D0-EA F0-F4 60C 1B 1F 21-3A
      40-52 60-6D 70-B7 BA-BE C0-CE D0-ED F0-F9 901-3 5-39 3C-4D 50-54 58-70 81-83 85-8C 8F-90 93-A8 AA-B0 B2 B6-B9 BC
      BE-C4 C7-C8 CB-CD D7 DC-DD DF-E3 E6-FA A02 5-A F-10 13-28 2A-30 32-33 35-36 38-39 3C 3E-42 47-48 4B-4D 59-5C 5E
      66-74 81-83 85-8B 8D 8F-91 93-A8 AA-B0 B2-B3 B5-B9 BC-C5 C7-C9 CB-CD D0 E0 E6-EF B01-3 5-C F-10 13-28 2A-30 32-33
      36-39 3C-43 47-48 4B-4D 56-57 5C-5D 5F-61 66-70 82-83 85-8A 8E-90 92-95 99-9A 9C 9E-9F A3-A4 A8-AA AE-B5 B7-B9
      BE-C2 C6-C8 CA-CD D7 E7-F2 C01-3 5-C E-10 12-28 2A-33 35-39 3E-44 46-48 4A-4D 55-56 60-61 66-6F 82-83 85-8C 8E-90
      92-A8 AA-B3 B5-B9 BE-C4 C6-C8 CA-CD D5-D6 DE E0-E1 E6-EF D02-3 5-C E-10 12-28 2A-39 3E-43 46-48 4A-4D 57 60-61
      66-6F E01-3A 3F-5B 81-82 84 87-88 8A 8D 94-97 99-9F A1-A3 A5 A7 AA-AB AD-B9 BB-BD C0-C4 C6 C8-CD D0-D9 DC-DD
      10A0-C5 D0-F6 FB 1100-59 5F-A2 A8-F9 1E00-9A A0-F9 1F00-15 18-1D 20-45 48-4D 50-57 59-5D/2 5F-7D 80-B4 B6-C4 C6-D3
      D6-DB DD-EF F2-F4 F6-FE 2000-2E 30-46 6A-70 74-8E A0-AA D0-E1 2100-38 53-82 90-EA 2200-F1 2300 2-7A 2400-24 40-4A
      60-EA 2500-95 A0-EF 2600-13 1A-6F 2701-4 6-9 C-27 29-4B 4D 4F-52 56 58-5E 61-67 76-94 98-AF B1-BE 3000-37 3F 41-94
      99-9E A1-FE 3105-2C 31-8E 90-9F 3200-1C 20-43 60-7B 7F-B0 C0-CB D0-FE 3300-76 7B-DD E0-FE 4E00-9FA5 E000-FA2D
      FB00-6 13-17 1E-36 38-3C 3E 40-41 43-44 46-B1 D3-FD3F 50-8F 92-C7 F0-FB FE20-23 30-44 49-52 54-66 68-6B 70-72 74
      76-FC FF FF01-5E 61-BE C2-C7 CA-CF D2-D7 DA-DC E0-E6 E8-EE FD-FF" },
  { names := ["V2_0", "2.0"]
    extra := "591-A1 A3-AF C4 F00-47 49-69 71-8B 90-95 97 99-AD B1-B7 B9 1E9B 20AB AC00-D7A3 1FFFE-FF 2FFFE-FF 3FFFE-FF
      4FFFE-FF 5FFFE-FF 6FFFE-FF 7FFFE-FF 8FFFE-FF 9FFFE-FF AFFFE-FF BFFFE-FF CFFFE-FF DFFFE-FF EFFFE-10FFFF" },
  { names := ["V2_1", "2.1"], extra := "20AC FFFC" },
  { names := ["V3_0", "3.0"]
    extra := "1F6-F9 218-1F 22-33 A9-AD DF EA-EE 346-4E 62 D7 DB-E1/2 400 D 50 5D 88-89 8C-8F EC-ED 58A 653-55 B8-B9 BF
      CF FA-FE 700-D F-2C 30-4A 80-B0 D82-83 85-96 9A-B1 B3-BB BD C0-C6 CA CF-D4 D6 D8-DF F2-F4 F6A 96 AE-B0 B8 BA-BC
      BE-CC CF 1000-21 23-27 29-2A 2C-32 36-39 40-59 1200-6 8-46 48 4A-4D 50-56 58 5A-5D 60-86 88 8A-8D 90-AE B0 B2-B5
      B8-BE C0 C2-C5 C8-CE D0-D6 D8-EE F0-130E 10 12-15 18-1E 20-46 48-5A 61-7C A0-F4 1401-1676 80-9C A0-F0 1780-DC
      E0-E9 1800-E 10-19 20-77 80-A9 202F 48-4D AD-AF E2-E3 2139-3A 83 EB-F3 2301 7B 7D-9A 2425-26 25F0-F7 2619 70-71
      2800-FF 2E80-99 9B-F3 2F00-D5 F0-FB 3038-3A 3E 31A0-B7 3400-4DB5 A000-A48C 90-A1 A4-B3 B5-C0 C2-C4 C6 FB1D
      FFF9-FB" },
  { names := ["V3_1", "3.1"]
    extra := "3F4-F5 FDD0-EF 10300-1E 20-23 30-4A 10400-25 28-4D 1D000-F5 1D100-26 2A-DD 1D400-54 56-9C 9E-9F A2 A5-A6
      A9-AC AE-B9 BB BD-C0 C2-C3 C5-1D505 7-A D-14 16-1C 1E-39 3B-3E 40-44 46 4A-50 52-1D6A3 A8-1D7C9 CE-FF 20000-2A6D6
      2F800-2FA1D E0001 20-7F" },
  { names := ["V3_2", "3.2"]
    extra := "220 34F 63-6F D8-D9 F6 48A-8B C5-C6 C9-CA CD-CE 500-F 66E-6F 7B1 10F7-F8 1700-C E-14 20-36 40-53 60-6C
      6E-70 72-73 2047 4E-52 57 5F-63 71 B0-B1 E4-EA 213D-4B F4-FF 22F2-FF 237C 9B-CE 24EB-FE 2596-9F F8-FF 2616-17
      72-7D 80-89 2768-75 D0-EB F0-FF 2900-2AFF 303B-3D 95-96 9F-A0 FF 31F0-FF 3251-5F B1-BF A4A2-A3 B4 C1 C5 FA30-6A
      FDFC FE00-F 45-46 73 FF5F-60" },
  { names := ["V4_0", "4.0"]
    extra := "221 34-36 AE-AF EF-FF 350-57 5D-5F F7-FB 600-3 D-15 56-58 EE-EF FF 72D-2F 4D-4F 904 BD A01 3 8C E1-E3 F1
      B35 71 F3-FA CBC-BD 17DD F0-F9 1900-1C 20-2B 30-3B 40 44-6D 70-74 E0-FF 1D00-6B 2053-54 213B 23CF-D0 24FF 2614-15
      8A-91 A0-A1 2B00-D 321D-1E 50 7C-7D CC-CF 3377-7A DE-DF FF 4DC0-FF FDFD FE47-48 10000-B D-26 28-3A 3C-3D 3F-4D
      50-5D 80-FA 10100-2 7-33 37-3F 10380-9D 9F 10426-27 4E-9D A0-A9 10800-5 8 A-35 37-38 3C 3F 1D300-56 1D4C1
      E0100-EF" },
  { names := ["V4_1", "4.1"]
    extra := "237-41 358-5C FC-FF 4F6-F7 5A2 C5-C7 60B 1E 59-5E 750-6D 97D CE BB6 E6 FD0-D1 10F9-FA FC 1207 47 87 AF CF
      EF 130F 1F 47 5F-60 80-99 1980-A9 B0-C9 D0-D9 DE-DF 1A00-1B 1E-1F 1D6C-C3 2055-56 58-5E 90-94 B2-B5 EB 213C 4C
      23D1-DB 2618 7E-7F 92-9C A2-B1 27C0-C6 2B0E-13 2C00-2E 30-5E 80-EA F9-2D25 30-65 6F 80-96 A0-A6 A8-AE B0-B6 B8-BE
      C0-C6 C8-CE D0-D6 D8-DE 2E00-17 1C-1D 31C0-CF 327E 9FA6-BB A700-16 A800-2B FA70-D9 FE10-19 10140-8A 103A0-C3 C8-D5
      10A00-3 5-6 C-13 15-17 19-33 38-3A 3F-47 50-58 1D200-45 1D6A4-A5" },
  { names := ["V5_0", "5.0"]
    extra := "242-4F 37B-7D 4CF FA-FF 510-13 BA 7C0-FA 97B-7C 7E-7F CE2-E3 F1-F2 1B00-4B 50-7C 1DC4-CA FE-FF 20EC-EF
      214D-4E 84 23DC-E7 26B2 27C7-CA 2B14-1A 20-23 2C60-6C 74-77 A717-1A 20-21 A840-77 10900-19 1F 12000-1236E 12400-62
      70-73 1D360-71 1D7CA-CB" },
  { names := ["V5_1", "5.1"]
    extra := "370-73 76-77 CF 487 514-23 606-A 16-1A 3B-3F 76E-7F 971-72 A51 75 B44 62-63 D0 C3D 58-59 62-63 78-7F D3D
      44 62-63 70-75 79-7F F6B-6C CE D2-D4 1022 28 2B 33-35 3A-3F 5A-99 9E-9F 18AA 1B80-AA AE-B9 1C00-37 3B-49 4D-7F
      1DCB-E6 1E9C-9F FA-FF 2064 F0 214F 85-88 269D B3-BC C0-C3 27CC EC-EF 2B1B-1F 24-4C 50-54 2C6D-6F 71-73 78-7D
      2DE0-FF 2E18-1B 1E-30 312D D0-E3 9FBC-C3 A500-A62B 40-5F 62-73 7C-97 A71B-1F 22-8C FB-FF A880-C4 CE-D9 A900-53 5F
      AA00-36 40-4D 50-59 5C-5F FE24-26 10190-9B D0-FD 10280-9C A0-D0 10920-39 3F 1D129 1F000-2B 30-93" },
  { names := ["V5_2", "5.2"]
    extra := "524-25 800-2D 30-3E 900 4E 55 79-7A FB FD5-D8 109A-9D 115A-5E A3-A7 FA-FF 1400 1677-7F 18B0-F5 19AA-AB DA
      1A20-5E 60-7C 7F-89 90-99 A0-AD 1CD0-F2 1DFD 20B6-B8 2150-52 89 23E8 269E-9F BD-BF C4-CD CF-E1 E3 E8-FF 2757
      2B55-59 2C70 7E-7F EB-F1 2E31 3244-4F 9FC4-CB A4D0-FF A6A0-F7 A830-39 E0-FB A960-7C 80-CD CF-D9 DE-DF AA60-7B
      80-C2 DB-DF ABC0-ED F0-F9 D7B0-C6 CB-FB FA6B-6D 10840-55 57-5F 1091A-1B 10A60-7F 10B00-35 39-55 58-72 78-7F
      10C00-48 10E60-7E 11080-C1 13000-1342E 1F100-A 10-2E 31 3D 3F 42 46 4A-4E 57 5F 79 7B-7C 7F 8A-8D 90 1F200 10-31
      40-48 2A700-2B734" },
  { names := ["V6_0", "6.0"]
    extra := "526-27 620 5F 840-5B 5E 93A-3B 4F 56-57 73-77 B72-77 D29 3A 4E F8C-8F D9-DA 135D-5E 1BC0-F3 FC-FF 1DFC
      2095-9C B9 23E9-F3 26CE E2 E4-E7 2705 A-B 28 4C 4E 53-55 5F-60 95-97 B0 BF CE-CF 2D70 7F 31B8-BA A660-61 A78D-8E
      90-91 A0-A9 FA AB01-6 9-E 11-16 20-26 28-2E FBB2-C1 11000-4D 52-6F 16800-16A38 1B000-1 1F0A0-AE B1-BE C1-CF D1-DF
      1F130 32-3C 3E 40-41 43-45 47-49 4F-56 58-5E 60-69 70-78 7A 7D-7E 80-89 8E-8F 91-9A E6-FF 1F201-2 32-3A 50-51
      1F300-20 30-35 37-7C 80-93 A0-C4 C6-CA E0-F0 1F400-3E 40 42-F7 F9-FC 1F500-3D 50-67 FB-FF 1F601-10 12-14 16-1A/2
      1C-1E 20-25 28-2B 2D 30-33 35-40 45-4F 80-C5 1F700-73 2B740-2B81D" },
  { names := ["V6_1", "6.1"]
    extra := "58F 604 8A0 A2-AC E4-FE AF0 EDE-DF 10C7 CD FD-FF 1BAB-AD BA-BF 1CC0-C7 F3-F6 27CB CD 2CF2-F3 2D27 2D 66-67
      2E32-3B 9FCC A674-7B 9F A792-93 AA F8-F9 AAE0-F6 FA2E-2F 10980-B7 BE-BF 110D0-E8 F0-F9 11100-34 36-43 80-C8 D0-D9
      11680-B7 C0-C9 16F00-44 50-7E 8F-9F 1EE00-3 5-1F 21-22 24 27 29-32 34-37 39 3B 42 47-4B/2 4D-4F 51-52 54 57-5F/2
      61-62 64 67-6A 6C-72 74-77 79-7C 7E 80-89 8B-9B A1-A3 A5-A9 AB-BB F0-F1 1F16A-6B 1F540-43 1F600 11 15-1B/2 1F
      26-27 2C 2E-2F 34" },
  { names := ["V6_2", "6.2"], extra := "20BA" },
  { names := ["V6_3", "6.3"], extra := "61C 2066-69" },
  { names := ["V7_0", "7.0"]
    extra := "37F 528-2F 8D-8E 605 8A1 AD-B2 FF 978 80 C00 34 81 D01 E6-EF 16F1-F8 191D-1E 1AB0-BE 1CF8-F9 1DE7-F5
      20BB-BD 23F4-FA 2700 2B4D-4F 5A-73 76-95 98-B9 BD-C8 CA-D1 2E3C-42 A698-9D A794-9F AB-AD B0-B1 F7 A9E0-FE AA7C-7F
      AB30-5F 64-65 FE27-2D 1018B-8C A0 102E0-FB 1031F 50-7A 10500-27 30-63 6F 10600-10736 40-55 60-67 10860-9E A7-AF
      10A80-9F C0-E6 EB-F6 10B80-91 99-9C A9-AF 1107F 11150-76 CD DA E1-F4 11200-11 13-3D B0-EA F0-F9 11301-3 5-C F-10
      13-28 2A-30 32-33 35-39 3C-44 47-48 4B-4D 57 5D-63 66-6C 70-74 11480-C7 D0-D9 11580-B5 B8-C9 11600-44 50-59
      118A0-F2 FF 11AC0-F8 1236F-98 12463-6E 74 16A40-5E 60-69 6E-6F D0-ED F0-F5 16B00-45 50-59 5B-61 63-77 7D-8F
      1BC00-6A 70-7C 80-88 90-99 9C-A3 1E800-C4 C7-D6 1F0BF E0-F5 1F10B-C 1F321-2C 36 7D 94-9F C5 CB-CE D4-DF F1-F7
      1F43F 41 F8 FD-FE 1F53E-3F 44-4A 68-79 7B-A3 A5-FA 1F641-42 50-7F C6-CF E0-EC F0-F3 1F780-D4 1F800-B 10-47 50-59
      60-87 90-AD" },
  { names := ["V8_0", "8.0"]
    extra := "8B3-B4 E3 AF9 C5A D5F 13F5 F8-FD 20BE 218A-8B 2BEC-EF 9FCD-D5 A69E A78F B2-B7 A8FC-FD AB60-63 70-BF
      FE2E-2F 108E0-F2 F4-F5 FB-FF 109BC-BD C0-CF D2-FF 10C80-B2 C0-F2 FA-FF 111C9-CC DB-DF 11280-86 88 8A-8D 8F-9D
      9F-A9 11300 50 115CA-DD 11700-19 1D-2B 30-3F 12399 12480-12543 14400-14646 1D1DE-E8 1D800-1DA8B 9B-9F A1-AF
      1F32D-2F 7E-7F CF-D3 F8-FF 1F4FF 1F54B-4F 1F643-44 D0 1F910-18 80-84 C0 2B820-2CEA1" },
  { names := ["V9_0", "9.0"]
    extra := "8B6-BD D4-E2 C80 D4F 54-56 58-5E 76-78 1C80-88 1DFB 23FB-FE 2E43-44 A7AE A8C5 1018D-8E 104B0-D3 D8-FB
      1123E 11400-59 5B 5D 11660-6C 11C00-8 A-36 38-45 50-6C 70-8F 92-A7 A9-B6 16FE0 17000-187EC 18800-18AF2 1E000-6
      8-18 1B-21 23-24 26-2A 1E900-4A 50-59 5E-5F 1F19B-AC 1F23B 1F57A A4 1F6D1-D2 F4-F6 1F919-1E 20-27 30 33-3E 40-4B
      50-5E 85-91" },
  { names := ["V10_0", "10.0"]
    extra := "860-6A 9FC-FD AFA-FF D00 3B-3C 1CF7 1DF6-F9 20BF 23FF 2BD2 2E45-49 312E 9FD6-EA 1032D-2F 11A00-47 50-83
      86-9C 9E-A2 11D00-6 8-9 B-36 3A 3C-3D 3F-47 50-59 16FE1 1B002-1B11E 70-1B2FB 1F260-65 1F6D3-D4 F7-F8 1F900-B 1F
      28-2F 31-32 4C 5F-6B 92-97 D0-E6 2CEB0-2EBE0" },
  { names := ["V11_0", "11.0"]
    extra := "560 88 EF 7FD-FF 8D3 9FE A76 C04 84 1878 1C90-BA BD-BF 2BBA-BC D3-EB F0-FE 2E4A-4E 312F 9FEB-EF A7AF B8-B9
      A8FE-FF 10A34-35 48 10D00-27 30-39 10F00-27 30-59 110CD 11144-46 1133B 1145E 1171A 11800-3B 11A9D 11D60-65 67-68
      6A-8E 90-91 93-98 A0-A9 11EE0-F8 16E40-9A 187ED-F1 1D2E0-F3 1D372-78 1EC71-B4 1F12F 1F6F9 1F7D5-D8 1F94D-4F 6C-70
      73-76 7A 7C-7F 98-A2 B0-B9 C1-C2 E7-FF 1FA60-6D" },
  { names := ["V12_0", "12.0"]
    extra := "C77 E86 89 8C 8E-93 98 A0 A8-A9 AC BA 1CFA 2BC9 FF 2E4F A7BA-BF C2-C6 AB66-67 10FE0-F6 1145F 116B8
      119A0-A7 AA-D7 DA-E4 11A84-85 11FC0-F1 FF 13430-38 16F45-4A 4F 7F-87 E2-E3 187F2-F7 1B150-52 64-67 1E100-2C 30-3D
      40-49 4E-4F 1E2C0-F9 FF 1E94B 1ED01-3D 1F16C 1F6D5 FA 1F7E0-EB 1F90D-F 3F 71 7B A5-AA AE-AF BA-BF C3-CA CD-CF
      1FA00-53 70-73 78-7A 80-82 90-95" },
  { names := ["V12_1", "12.1"], extra := "32FF" },
  { names := ["V13_0", "13.0"]
    extra := "8BE-C7 B55 D04 81 1ABF-C0 2B97 2E50-52 31BB-BF 4DB6-BF 9FF0-FC A7C7-CA F5-F6 A82C AB68-6B 1019C 10E80-A9
      AB-AD B0-B1 10FB0-CB 11147 CE-CF 1145A 60-61 11900-6 9 C-13 15-16 18-35 37-38 3B-46 50-59 11FB0 16FE4 F0-F1
      18AF3-18CD5 18D00-8 1F10D-F 6D-6F AD 1F6D6-D7 FB-FC 1F8B0-B1 1F90C 72 77-78 A3-A4 AB-AD CB 1FA74 83-86 96-A8 B0-B6
      C0-C2 D0-D6 1FB00-92 94-CA F0-F9 2A6D7-DD 30000-3134A" },
  { names := ["V14_0", "14.0"]
    extra := "61D 870-8E 90-91 98-9F B5 C8-D2 C3C 5D DD 170D 15 1F 180F 1AC1-CE 1B4C 7D-7E 1DFA 20C0 2C2F 5F 2E53-5D
      9FFD-FF A7C0-C1 D0-D1 D3 D5-D9 F2-F4 FBC2 FD40-4F CF FE-FF 10570-7A 7C-8A 8C-92 94-95 97-A1 A3-B1 B3-B9 BB-BC
      10780-85 87-B0 B2-BA 10F70-89 11070-75 C2 116B9 11740-46 11AB0-BF 12F90-F2 16A70-BE C0-C9 1AFF0-F3 F5-FB FD-FE
      1B11F-22 1CF00-2D 30-46 50-C3 1D1E9-EA 1DF00-1E 1E290-AE 1E7E0-E6 E8-EB ED-EE F0-FE 1F6DD-DF 1F7F0 1F979 CC
      1FA7B-7C A9-AC B7-BA C3-C5 D7-D9 E0-E7 F0-F6 2A6DE-DF 2B735-38" },
  { names := ["V15_0", "15.0"]
    extra := "CF3 ECE 10EFD-FF 1123F-41 11B00-9 11F00-10 12-3A 3E-59 1342F 39-55 1B132 55 1D2C0-D3 1DF25-2A 1E030-6D 8F
      1E4D0-F9 1F6DC 1F774-76 7B-7F D9 1FA75-77 87-88 AD-AF BB-BD BF CE-CF DA-DB E8 F7-F8 2B739 31350-323AF" },
  { names := ["V15_1", "15.1"], extra := "2FFC-FF 31EF 2EBF0-2EE5D" },
  { names := ["V16_0", "16.0"]
    extra := "897 1B4E-4F 7F 1C89-8A 2427-29 31E4-E5 A7CB-CD DA-DC 105C0-F3 10D40-65 69-85 8E-8F 10EC2-C4 FC 11380-89 8B
      8E 90-B5 B7-C0 C2 C5 C7-CA CC-D5 D7-D8 E1-E2 116D0-E3 11BC0-E1 F0-F9 11F5A 13460-143FA 16100-39 16D40-79 18CFF
      1CC00-F9 1CD00-1CEB3 1E5D0-FA FF 1F8B2-BB C0-C1 1FA89 8F BE C6 DC DF E9 1FBCB-EF" }]

/-- The code points that a version has, by its loose name. -/
def age? (name : String) : Option Ranges :=
  (versions.findIdx? fun v => isNamed name v.names).map fun i =>
    NamedSet.join ((versions.take (i + 1)).map fun v => Ranges.ofText v.extra)

end GuestScript.Text
