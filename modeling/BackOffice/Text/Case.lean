import BackOffice.Text.Span
import BackOffice.Text.Category

/-!
# Upper and lower case

Lower-casing of whole texts, where a capital sigma at the end of a word has a form of its own, and
equality of single characters up to case. The two are different relations: lower-casing may depend
on the neighbours and may give two characters, equality up to case never looks beyond one.
-/
namespace BackOffice.Text

/-- Simple lower-case forms. -/
def lowerTable : List Shift := Shift.list "
   41-5A>61 C0-D6>E0 D8-DE>F8 100-12E/2>101 130>69 132-136/2>133 139-147/2>13A 14A-176/2>14B 178>FF
   179-17D/2>17A 181>253 182-184/2>183 186>254 187>188 189-18A>256 18B>18C 18E>1DD 18F>259 190>25B
   191>192 193>260 194>263 196>269 197>268 198>199 19C>26F 19D>272 19F>275 1A0-1A4/2>1A1 1A6>280
   1A7>1A8 1A9>283 1AC>1AD 1AE>288 1AF>1B0 1B1-1B2>28A 1B3-1B5/2>1B4 1B7>292 1B8>1B9 1BC>1BD
   1C4>1C6 1C5>1C6 1C7>1C9 1C8>1C9 1CA>1CC 1CB-1DB/2>1CC 1DE-1EE/2>1DF 1F1>1F3 1F2-1F4/2>1F3
   1F6>195 1F7>1BF 1F8-21E/2>1F9 220>19E 222-232/2>223 23A>2C65 23B>23C 23D>19A 23E>2C66 241>242
   243>180 244>289 245>28C 246-24E/2>247 370-372/2>371 376>377 37F>3F3 386>3AC 388-38A>3AD 38C>3CC
   38E-38F>3CD 391-3A1>3B1 3A3-3AB>3C3 3CF>3D7 3D8-3EE/2>3D9 3F4>3B8 3F7>3F8 3F9>3F2 3FA>3FB
   3FD-3FF>37B 400-40F>450 410-42F>430 460-480/2>461 48A-4BE/2>48B 4C0>4CF 4C1-4CD/2>4C2
   4D0-52E/2>4D1 531-556>561 10A0-10C5>2D00 10C7>2D27 10CD>2D2D 13A0-13EF>AB70 13F0-13F5>13F8
   1C90-1CBA>10D0 1CBD-1CBF>10FD 1E00-1E94/2>1E01 1E9E>DF 1EA0-1EFE/2>1EA1 1F08-1F0F>1F00
   1F18-1F1D>1F10 1F28-1F2F>1F20 1F38-1F3F>1F30 1F48-1F4D>1F40 1F59-1F5F/2>1F51 1F68-1F6F>1F60
   1F88-1F8F>1F80 1F98-1F9F>1F90 1FA8-1FAF>1FA0 1FB8-1FB9>1FB0 1FBA-1FBB>1F70 1FBC>1FB3
   1FC8-1FCB>1F72 1FCC>1FC3 1FD8-1FD9>1FD0 1FDA-1FDB>1F76 1FE8-1FE9>1FE0 1FEA-1FEB>1F7A 1FEC>1FE5
   1FF8-1FF9>1F78 1FFA-1FFB>1F7C 1FFC>1FF3 2126>3C9 212A>6B 212B>E5 2132>214E 2160-216F>2170
   2183>2184 24B6-24CF>24D0 2C00-2C2F>2C30 2C60>2C61 2C62>26B 2C63>1D7D 2C64>27D 2C67-2C6B/2>2C68
   2C6D>251 2C6E>271 2C6F>250 2C70>252 2C72>2C73 2C75>2C76 2C7E-2C7F>23F 2C80-2CE2/2>2C81
   2CEB-2CED/2>2CEC 2CF2>2CF3 A640-A66C/2>A641 A680-A69A/2>A681 A722-A72E/2>A723 A732-A76E/2>A733
   A779-A77B/2>A77A A77D>1D79 A77E-A786/2>A77F A78B>A78C A78D>265 A790-A792/2>A791 A796-A7A8/2>A797
   A7AA>266 A7AB>25C A7AC>261 A7AD>26C A7AE>26A A7B0>29E A7B1>287 A7B2>29D A7B3>AB53
   A7B4-A7C2/2>A7B5 A7C4>A794 A7C5>282 A7C6>1D8E A7C7-A7C9/2>A7C8 A7D0>A7D1 A7D6-A7D8/2>A7D7
   A7F5>A7F6 FF21-FF3A>FF41 10400-10427>10428 104B0-104D3>104D8 10570-1057A>10597 1057C-1058A>105A3
   1058C-10592>105B3 10594-10595>105BB 10C80-10CB2>10CC0 118A0-118BF>118C0 16E40-16E5F>16E60
   1E900-1E921>1E922"

/-- Simple case folding: characters that differ by case alone have one image. -/
def foldTable : List Shift := Shift.list "
   41-5A>61 B5>3BC C0-D6>E0 D8-DE>F8 100-12E/2>101 132-136/2>133 139-147/2>13A 14A-176/2>14B 178>FF
   179-17D/2>17A 17F>73 181>253 182-184/2>183 186>254 187>188 189-18A>256 18B>18C 18E>1DD 18F>259
   190>25B 191>192 193>260 194>263 196>269 197>268 198>199 19C>26F 19D>272 19F>275 1A0-1A4/2>1A1
   1A6>280 1A7>1A8 1A9>283 1AC>1AD 1AE>288 1AF>1B0 1B1-1B2>28A 1B3-1B5/2>1B4 1B7>292 1B8>1B9
   1BC>1BD 1C4>1C6 1C5>1C6 1C7>1C9 1C8>1C9 1CA>1CC 1CB-1DB/2>1CC 1DE-1EE/2>1DF 1F1>1F3
   1F2-1F4/2>1F3 1F6>195 1F7>1BF 1F8-21E/2>1F9 220>19E 222-232/2>223 23A>2C65 23B>23C 23D>19A
   23E>2C66 241>242 243>180 244>289 245>28C 246-24E/2>247 345>3B9 370-372/2>371 376>377 37F>3F3
   386>3AC 388-38A>3AD 38C>3CC 38E-38F>3CD 391-3A1>3B1 3A3-3AB>3C3 3C2>3C3 3CF>3D7 3D0>3B2 3D1>3B8
   3D5>3C6 3D6>3C0 3D8-3EE/2>3D9 3F0>3BA 3F1>3C1 3F4>3B8 3F5>3B5 3F7>3F8 3F9>3F2 3FA>3FB
   3FD-3FF>37B 400-40F>450 410-42F>430 460-480/2>461 48A-4BE/2>48B 4C0>4CF 4C1-4CD/2>4C2
   4D0-52E/2>4D1 531-556>561 10A0-10C5>2D00 10C7>2D27 10CD>2D2D 13F8-13FD>13F0 1C80>432 1C81>434
   1C82>43E 1C83-1C84>441 1C85>442 1C86>44A 1C87>463 1C88>A64B 1C90-1CBA>10D0 1CBD-1CBF>10FD
   1E00-1E94/2>1E01 1E9B>1E61 1E9E>DF 1EA0-1EFE/2>1EA1 1F08-1F0F>1F00 1F18-1F1D>1F10 1F28-1F2F>1F20
   1F38-1F3F>1F30 1F48-1F4D>1F40 1F59-1F5F/2>1F51 1F68-1F6F>1F60 1F88-1F8F>1F80 1F98-1F9F>1F90
   1FA8-1FAF>1FA0 1FB8-1FB9>1FB0 1FBA-1FBB>1F70 1FBC>1FB3 1FBE>3B9 1FC8-1FCB>1F72 1FCC>1FC3
   1FD8-1FD9>1FD0 1FDA-1FDB>1F76 1FE8-1FE9>1FE0 1FEA-1FEB>1F7A 1FEC>1FE5 1FF8-1FF9>1F78
   1FFA-1FFB>1F7C 1FFC>1FF3 2126>3C9 212A>6B 212B>E5 2132>214E 2160-216F>2170 2183>2184
   24B6-24CF>24D0 2C00-2C2F>2C30 2C60>2C61 2C62>26B 2C63>1D7D 2C64>27D 2C67-2C6B/2>2C68 2C6D>251
   2C6E>271 2C6F>250 2C70>252 2C72>2C73 2C75>2C76 2C7E-2C7F>23F 2C80-2CE2/2>2C81 2CEB-2CED/2>2CEC
   2CF2>2CF3 A640-A66C/2>A641 A680-A69A/2>A681 A722-A72E/2>A723 A732-A76E/2>A733 A779-A77B/2>A77A
   A77D>1D79 A77E-A786/2>A77F A78B>A78C A78D>265 A790-A792/2>A791 A796-A7A8/2>A797 A7AA>266
   A7AB>25C A7AC>261 A7AD>26C A7AE>26A A7B0>29E A7B1>287 A7B2>29D A7B3>AB53 A7B4-A7C2/2>A7B5
   A7C4>A794 A7C5>282 A7C6>1D8E A7C7-A7C9/2>A7C8 A7D0>A7D1 A7D6-A7D8/2>A7D7 A7F5>A7F6
   AB70-ABBF>13A0 FF21-FF3A>FF41 10400-10427>10428 104B0-104D3>104D8 10570-1057A>10597
   1057C-1058A>105A3 1058C-10592>105B3 10594-10595>105BB 10C80-10CB2>10CC0 118A0-118BF>118C0
   16E40-16E5F>16E60 1E900-1E921>1E922"

/-- Small letters outside the category of small letters. -/
def otherLowercase : List Span := Span.list "
   1DAF 107A3 1DA1 2094 1E03D 1D5E 24D6 1D49 1D9F 1E033 1E054 1D78 10793 1E05C 1D34 1E065 1DA6 1D53 1D63 24DF 1E057 1D65 10784 2178 1DB8 24D2 1078A 107AC 1D69 10797 1E05B 10798 2E0 1E066 2176 2097 1DB6 107B2 24D9 24D4 1079E 2099 1D36 1D9C 2B6 24DB 217E 217C 217B AB69 2091 1D60 1DA9 24E7 1E03E 1E034 1DAB 1DA5 1E056 1D3F 1D5C 107AE 10788 1D38 1079A 1E060 2E1 1E068 1E039 A770 1D51 A7F8 AB5D 24E0 1E043 207F 1D2C 1DB2 1DB4 1E04F 1E046 1D57 2172 2174 10787 107AB 1D4F 1E04E 1D67 A69D 1D47 1D41 1D5A 1D58 2171 2B8 1DA3 1E040 1DB1 1078C 1DBD 1E036 1D45 1E051 24E9 107B7 1DBF 2B0 107B3 1079F 2093 1E06B A7F3 1D3B 107A7 1D2F 2E4 24E5 A69C 1E042 1078B 2B5 2B1 24E3 1D4B 1E038 1E052 1E049 1D3D 2C7D 1E061 107B4 1078F 107A0 1DAD 1D4C 1E05E 24D0 2B3 1E06A 107AF 1079B 10783 1DBA 1079C 107B0 345 24DD 1D42 1D55 AB5E 2C0 1E04B 1D30 1D32 209B 1E04D 1D48 1E03C 1E045 1D40 1DA8 1DAA 1E044 2B4 1E05D 2095 10789 1E03A BA 24E8 107A9 24D7 2092 AB5F 1E032 1E03B 217F 1D9B 1E06C 107A4 1E05F 24D8 24DA 1D52 1E064 1E06D A7F2 1D35 2098 2096 10794 24D3 1DA7 1D2D 217D 1E04A 2C7C 107B5 1078E 107A1 1E069 1D9D 1DB7 1E03F 1E062 2177 107A5 10FC 1D62 1D64 1E05A 1078D 1E063 107A6 107B6 1D54 1E04C 1E035 1079D 24E6 A7F9 1E067 2090 1E041 AB5C 1D61 1D4A 1D5D 1E037 1E031 AA 1D3E 217A 1DA0 1D9E 2C1 107AA 1E030 209C 1D33 24E1 24DE 1D56 10792 1D66 A7F4 10791 1D31 2179 1D39 107B8 1DB9 1E047 24D1 10780 107AD 1DAE 10796 1D6A 10799 2E3 1DA2 37A 1D3C 1D3A 1D5F 2170 2071 1E058 2B2 1E059 24E4 24E2 1E050 1DB0 10795 1DBC 1DBE 1D4D 1D59 1DAC 2E2 1E055 2B7 10785 1D2E 1DA4 1D5B 1D44 1D46 1D68 1D43 107A2 107BA 2175 1DB5 24D5 107A8 2173 209A 1D37 1D50 1D4E 1DBB 1E048 24DC 1E053 1DB3 10790 107B9"

/-- Capitals outside the category of capitals. -/
def otherUppercase : List Span := Span.list "
   1F188 1F178 2161 24C6 1F182 1F17E 24CB 1F174 1F162 1F146 1F15E 24BA 1F156 24C3 2160 1F138 1F150 24C7 24CF 1F165 1F132 216E 24B8 1F15F 1F15C 1F159 1F13C 2169 2165 1F142 1F179 1F189 2167 1F183 1F17F 24BE 24CA 216B 1F13A 1F147 1F175 1F130 24CD 24BF 24C5 1F157 1F139 2164 1F164 1F151 1F144 1F133 216A 1F15D 1F180 1F13D 216F 1F176 1F143 1F145 1F140 24BD 24C2 1F148 216C 24B9 1F170 1F173 1F177 216D 1F17D 1F17A 1F136 1F181 1F154 1F187 1F184 24B6 1F141 1F13E 24BC 1F13B 1F15A 1F172 1F160 1F17C 1F134 24C1 1F137 1F152 1F186 1F155 1F167 24C4 1F131 1F149 24B7 24CE 2162 1F171 1F17B 2168 2163 1F185 1F168 1F158 24C8 1F13F 24C0 2166 1F15B 1F161 24CC 24BB 24C9 1F163 1F135 1F166 1F153 1F169"

/-- Punctuation inside words, which case looks through. -/
def midWord : List Span := Span.list "
   27 2E 3A B7 387 55F 5F4 2018 2019 2024 2027 FE13 FE52 FE55 FF07 FF0E FF1A"

def isLowercase (c : Char) : Bool :=
  Category.lowercaseLetter.has c || Span.anyHas otherLowercase c.toNat

def isUppercase (c : Char) : Bool :=
  Category.uppercaseLetter.has c || Span.anyHas otherUppercase c.toNat

/-- Letters that have case at all. -/
def isCased (c : Char) : Bool :=
  isLowercase c || isUppercase c || Category.titlecaseLetter.has c

/-- Characters that case looks through, such as marks and apostrophes. -/
def isCaseIgnorable (c : Char) : Bool :=
  [Category.nonspacingMark, .enclosingMark, .format, .modifierLetter, .modifierSymbol].any (·.has c) ||
    Span.anyHas midWord c.toNat

def lowerChar (c : Char) : Char :=
  if c.toNat < 0x80 then c.toLower else Shift.apply lowerTable c

def capitalSigma : Char := '\u03A3'

/-- A capital sigma ends a word if a cased letter stands before it and none after it, whatever
ignorable characters stand between. -/
def endsWord (before after : List Char) : Bool :=
  let cased (cs : List Char) :=
    match cs.dropWhile isCaseIgnorable with
    | c :: _ => isCased c
    | [] => false
  cased before && !cased after

/-- Lower-cases what follows `before`, which is kept in reverse. -/
def lowerFrom (before : List Char) : List Char → List Char
  | [] => []
  | c :: after =>
    let image :=
      if c = '\u0130' then ['i', '\u0307']
      else if c = capitalSigma ∧ endsWord before after then ['\u03C2']
      else [lowerChar c]
    image ++ lowerFrom (c :: before) after

def lowercase (cs : List Char) : List Char := lowerFrom [] cs

def foldChar (c : Char) : Char :=
  if c.toNat < 0x80 then c.toLower else Shift.apply foldTable c

/-- Equality of characters up to case. -/
def sameUpToCase (c d : Char) : Bool := foldChar c == foldChar d

end BackOffice.Text
