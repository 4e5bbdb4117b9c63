import BackOffice.Text.Category
import BackOffice.Text.Case
import BackOffice.Text.Blank

/-!
# Named properties of characters

The properties that a pattern may name: general categories and their groups, scripts, and a few
properties that are true or false of a character. Names are compared without case, blanks, hyphens
and underscores.
-/
namespace BackOffice.Text.Property

/-- Marks and symbols that count as alphabetic although they are neither letters nor letter
numbers. -/
def otherAlphabetic : List Span := Span.list "
   657 1C36 11728 DD2 106D CC7 11C31 826 AA29 1B01 17C3 11A04 106C A9BA 1A6A FBA 11300 1DEB 11C9D
   11D8A 116B1 A675 1B37 1F150 CF3 650 F97 11440 114C1 1F153 730 A8C0 AAB0 11635 11CAB 119D2 1071
   1733 24DC 11D95 119DC 1DE7 FAD 2DF4 AAEE D41 11935 114B1 1F189 102D 11A52 A926 11D36 A8B7 2DE7
   103B 11039 73D A42 732 16F75 114B5 111B7 10A06 B03 6E2 5BB 945 1C34 1E08F 11A35 1F161 8F3 1089
   11C35 A92A 11C96 7AF 11145 1E00A A9B8 A679 24E7 1A68 F96 11042 1BAD 16F73 114B7 731 11D40 614
   D43 FAF 5BC 11F40 112E3 9C0 DDA FAE 1F130 6E1 D42 8E4 102C 1143E C43 114BB 1064 1BAC 11833 65D
   5B0 FB3 A69F 24E8 C3E 10377 8F4 1B03 1F147 17C5 A67B D47 CC6 17C4 1B02 C3F 1112D 106B 7B0 659
   1F160 1E014 1C35 CC8 94B 8F2 108A BBE 11131 108B 1A69 EB9 DD1 16F6F 11933 947 11D93 EB4 73E AAB8
   11436 24BE 1F188 1938 110B3 114BF 2DFC 108F 1134B 1B38 73F EB5 11CB5 1103A 946 10D26 102E AA2F
   1B41 1BE9 11CA3 F75 B3E 1171D 11C3C 11A06 F8F 8FE 1ACC 1F17D 24D2 1BE8 11A09 A8C2 10A0C A9BC 6D9
   1BED 11233 11302 111B9 1924 11633 981 119DE 1182D AAEC 1F17A 1E010 2DE9 24C5 AAB2 A8B9 10A03
   119D4 1A74 1163B 1DED D81 111BD 2DE3 B41 A8B4 1752 ABE4 1F167 A8BD 11EF5 11000 C63 119D6 81F
   1F164 2DED 1A72 11637 16F52 1F13E 1F141 11F03 AA2B 1A56 A4C A9B6 1A61 A824 11721 11C9F AC4 A802
   81B 9C8 A01 1BEF 16F85 1C32 5C5 8FC 11C2F 1ACE 93B A75 2DEF B42 6DA 115DC 982 A8BF 1F163 A982
   C83 110B1 A8FF 24C7 1143C 24C6 BCB F95 111BF 16F6D 1F15B 110B5 983 11040 11074 6DB 11F34 1DEC
   2DE5 1A55 109D 16F7B 16FF1 C44 24CB 102B BC6 F90 1C31 F91 BC7 A950 11938 1133F 8DA 1ACD 1E004
   1BE7 11723 1BF0 A02 1930 1F172 10A0E 1112B C46 711 2DFA 1103C 1F136 A881 10D24 1F183 1A62 B57
   17BC 11343 D63 9C7 8F1 1A63 1085 1B42 AA31 1BEE 8FD 11CA5 F76 11438 16F66 114B9 11A8F 10A01 941
   CBE 1BA4 1193C D82 11F3A B40 11835 1753 FA6 1163D F7E 11631 1DEE 1E028 11D8D C62 1A67 112E5 963
   AAF5 1A73 16F5C 1E021 1A5C 16F69 5B3 1062 613 A981 D44 5BF FB0 24D9 1F131 9BF DD8-DD9 9BE 1C2C
   1122E 8E3 1F143 11EF3 612 116AE 110B6 11A59 1063 24B6 16F5F 1F148 64D ECD 1929 D01 16F91 A94B
   AA34 FB7 1E008 9C3 1B04 17C6 617 823 7A7 956 8E7 A94F C40 11340 11A36 11181 DDD 1E00C A929 65A
   1067 11102 1E00F B47 1F168 AA7D AC8 16F80 11A03 1DF3 24C1 116B2 1C27 11082 A51 1712 108C E36 CE3
   CC3 115BD 1E015 119DB 16F65 DDF 11830 948 1F17F 11836 24BD 16F57 1937 1936 24BC A3F BC1 11A94
   1B3B 1C2A EB6 11A3C 112E6 11F37 11CAC ABE9 C4B 16F5B 11D3D 119D1 E35 653 FB8 11101 1171E A827
   1E016 11C3B CC4 B62-B63 825 957 16F76 24DF FB9 1C28 11C93 1DF4 1122D 64F 111BA 1134C 9D7 C4C
   ABE7 11CB6 1163E 11A92 2DE0 903 115B8 11F39 24DA-24DB 1DE8 2DEA 829 A8BA 611 11D33 16F55 1F17E
   1772 64E 1B3C 1928 DDE A70 111CF 2DF1 103C A41 16F61 ABE3 1F142 1935 1F171 24BB 16F6B 11A8A 192A
   1A5B 1B3A A40 1F135 1C2B 11638 1F132 11F3F 16F51 AC9 AA2C B48 1E00B 16F7E 11CA0 A823 2DFF 1E009
   11348 A949 11CB2 11725 115B4 2DF9 11D90 82B 11930 619 24E1 16F59 11D3F 11A57 24C8 1E003 8F9 AA32
   8DD 11445 114BC 16F63 1F15F 11CA6 1F162 7A9 1921 6DC 1A1A A8C5 11230 A9BF 955 16F86 1E026 738
   8D8 24CF 116AC 11A38 10378 5B5 1F15C 111B4 F92 6E8 BC8 1112E 8D9 1F154 A9B5 11128 93E 11A96 1033
   1056 1BA7 A94D 1F187 FA9 17BB 17BA AC1 1A64 116B4 AE3 F81 F9D 11C9B 16F70 11F00 11CAE 1BA3 1E029
   1AC0 AAB7 17BF 11D43 FA5 F7C 11A5B F7D 1082 FA4 11234 1A18 16F82 1BA2 1182E 11080 AAEB 1F184
   115B1 1A70 1927 F9E 670 1BEA 24D0 8D7 11C99 11727 11C32 5B4 D4A 1034 24D1 1F179 11640 A676 82A
   16F78 11363 C00 1923 618 AA4D 115AF 16F4F 1A6F 24E0 11045 2DF3 24D5 11A90 115BA 1193B 114B2 7A8
   11A51 1E02A 11241 1922 1ABF 94F 11D35 24E2 8FA 1103F AC7 115B2 82C FB1E 11CB0 61A F7B 11D31 FA3
   7AA 1A19 2DF7 1BA1 1143B 11A55 11A8C 5B6 6E7 10EAB 1F13D A4B 11C95 AC3 737 AC2 17B9 112E0 81C
   16F7C 11C39 1E027 D48 345 1F185 110C2 24E3 1F182 A9E5 1DF2 D02 11D41 F7A 1C26 1163A 11EF4 FA2
   7AB 1F157 11D96 119D7 94C 11443 108D 1713 1F176 AAED CC2 1732 A8C3 DCF A9BD 1058 8D4 24CD 11303
   949 10A05 111B8 5B7 1DEA A69E 1B80 2DE8 17B8 AA2E A8B8 DD3 EB7 11CA2 C4A 1059 1886 11146 1B82
   11C36 8D6 FB1 1F15D 103E 11001 A67A D4B 1F15A A47 17B6 11720 11A08 A9B7 ABF CD5 11636 1073 2DEC
   C01 119E4 B02 AA2A A8BC F78 1F13A 1143F 17C7 11C9E C41 111BC 11CB4 65B 11043 FA0 114B6 94E 2DE2
   24CC 1057 10A0F 1112A 8D5 115DD 2DFB 5B8 103D 1F159 11729 10D25 1B81 1E000 A9B9 A48 AC0 1A5A
   11942 1074 110B4 24E9 116B0 1F165 5B9 FB2 D46 24E4 114B8 16FF0 C42 AA36 D03 112E8 16F74 11041
   65C 11CAA 7AD 7AC 2DF5 11038 B01 1133E 11D8C 11838 1143D 17C8 11A53 24E5 BCC 5BD C02 E34 F79
   1B39 11630 1103D 1F156 11D94 110B8 11934 AAEF 11435 16F6C 1F181 1E024 FA1 1920 114C0 1A1B C03
   11439 1B35 11D8B 11342 1885 11834 24CE 11C97 902 EB8 1DE9 94A D4C ABE 11A3E 112E4 17B7 1072 A880
   11132 A8B6 93F A71 1032 8DE 24D7 5C1 119DD DD4 2DE6 A983 11C30 105E 1BEC 111B6 24BA 1A65 1934
   AE2 F9C 192B 64B 1163C 119D3 11F35 A674 16F7A B82 11A05 FB5 821 11EF6 11CA4 AA30 1F140 1083 A951
   114B0 BD7 CCC B3F A927 1E00E 11722 AA7B 1F17C F82 11A01 16F8F ACC 1C33 24C9 A678 8F8 11301 A9BB
   DF2 11C9C 11C34 11A8E 11441 16F67 1F146 81E 114B4 1060 1F149 2DE4 11634 A8C1 DD6 C56 11A0A 1C2F
   111BE 1C2E F93 110B0 F71 610 1932 1E011 2DEE 24B8 9CC 1B3D 16F5D 1773 A8BE FB4 11D8E 1E01E 820
   1931 11C3D A947 114BA 1F173 24CA 5C7 1F137 11940 11232 8DF BCA 1F134 24D6 5C2 F94 1182C 11437
   110B2 9CB 105F 10376 1F170 736 1F145 81D 16F72 A8B5 11073 1112C A3E C55 11D47 1103B 1B3F 11937
   1A66 114BE 1BEB AAB3 F73 ABE5 10A02 24D8 1E01B 112E2 119D5 1C2D 119DF F72 11932 1E006 940 24B9
   D83 1933 16F53 1B3E 64C 11632 11832 16F6E 8F0 1084 11130 10A0D F83 1B43 1A6E FB6 ACB A825 822
   F77 1F151 2DFD 11A07 1E018 16F84 A80B DF3 1037A 11344 10D27 C47 7A6 8E6 9E3 F8D DDC A94C 1171F
   1E947 1A58 109A 1E013 B56 11A3B 16F92 1E001 16F87 16F7F 1A59 1F169 9C2 11182 5BA 1F158 616 1F13F
   11231 CBF 111BB 1F13C 6D7 16F6A 65F 24B7 115BE D00 2DE1 1F166 7AE 2DEB 1A5D 16F60 1DEF 5B2 A8BB
   1F138 962 11081 24C3 24E6 1F174 11A97 B43 111CE 8E9 BC0 1F180 C82 16F58 1182F 827 AA33 1F17B
   11A93 11F38 16F62 1F178 FBB ABEA 11CA7 1122C 1123E 11F3E 11639 C04 1B36 109C 651 1E01C 816 AA2D
   E37 11F01 CE2 11CA1 901 11A5A EBB 116AD 24DD 11100 900 2DFE 16F83 A81 24C0 9C4 1BF1 A03 FBC C81
   11347 1F177 E4D 11A91 CC0 ABE8 115B3 1DF1 65E 11726 6D6 1C25 11CB1 BBF AA4C 1C24 11237 16F56
   1DF0 110B7 11831 CC1 24C2 DD0 16F79 C48 BC2 9E2 24DE EBC 109B 1A57 1C29 24BF 2DF2 652 11341
   11C38 6ED A928 11C98 93A 1E01D 1E002 11D34 AA7C 1A5E 16F7D 1E005 817 11A02 615 F8E 9C1 DDB 1E012
   8FF 8E5 1172A A94A CD6 2DF6 5B1 6D8 B44 11A8D 8E8 119DA 1F175 11837 11A54 11044 1F139 11C94 24C4
   1F13B 112E7 E31 111B3 16F81 11A37 11180 D57 A980 112E1 116AB 655 11C33 AFC 18A9 1F133 1F186
   11127 739 16F90 17C1 115BC 116AF 1068 A677 1E01F 8DC AA35 F99 16F5E 11CA9 1F144 AC5 734 E3A 735
   1BA9 16F68 A94E 114B3 11A95 FAB 5C4 6E4 1038 102F 11D3C D3F 1F15E 1B40 73B 1E017 11357 1103E F74
   11CAD 1A71 11F36 115BB EB1 1036 943 24D3 1122F 1F152 17BE 11A58 11362 E38 AAB4 1143A 1F155 A952
   16F64 1087 1925 AFA F80 1A6D A82 B4B 8F5 1BA6 1A6C 106A 11A3D FA8 116B3 16F5A 24D4 11D91 1031
   11931 115B0 2DF0 F9A 11D3A 73C 11C3A 16F54 733 17BD D62 1BA8 114BD AA43 F9B 11A8B 11444 6E3 FAA
   115B9 D3E ABE6 11CAF 1030 944 10EAC A9BE B4C 11C9A 1BA5 1A17 CCA 1035 1088 116B5 FA7 654 10379
   F7F 1926 F9F 1112F CCB 17C0 A826 11724 A9B4 1069 A948 1086 11129 656 AFB 1E023 1E020 A83 8F6
   1B00 8F7 17C2 11002 11A39 16F77 111B5 1A6B 11C92 112DF 11C3E 73A 16F71 1C30 FAC 11A56 942 11D32
   8FB 1BC9E 8DB 1E00D D40 11CB3 2DF8 E39 115B5 AABE"

def latin : List Span := Span.list "
   41-5A 61-7A AA BA C0-D6 D8-F6 F8-2B8 2E0-2E4 1D00-1D25 1D2C-1D5C 1D62-1D65 1D6B-1D77 1D79-1DBE
   1E00-1EFF 2071 207F 2090-209C 212A-212B 2132 214E 2160-2188 2C60-2C7F A722-A787 A78B-A7CA
   A7D0-A7D1 A7D3 A7D5-A7D9 A7F2-A7FF AB30-AB5A AB5C-AB64 AB66-AB69 FB00-FB06 FF21-FF3A FF41-FF5A
   10780-10785 10787-107B0 107B2-107BA 1DF00-1DF1E 1DF25-1DF2A"

def greek : List Span := Span.list "
   370-373 375-377 37A-37D 37F 384 386 388-38A 38C 38E-3A1 3A3-3E1 3F0-3FF 1D26-1D2A 1D5D-1D61
   1D66-1D6A 1DBF 1F00-1F15 1F18-1F1D 1F20-1F45 1F48-1F4D 1F50-1F57 1F59-1F5D/2 1F5F-1F7D 1F80-1FB4
   1FB6-1FC4 1FC6-1FD3 1FD6-1FDB 1FDD-1FEF 1FF2-1FF4 1FF6-1FFE 2126 AB65 10140-1018E 101A0
   1D200-1D245"

def cyrillic : List Span := Span.list "
   400-484 487-52F 1C80-1C88 1D2B 1D78 2DE0-2DFF A640-A69F FE2E-FE2F 1E030-1E06D 1E08F"

def armenian : List Span := Span.list "
   531-556 559-58A 58D-58F FB13-FB17"

def hebrew : List Span := Span.list "
   591-5C7 5D0-5EA 5EF-5F4 FB1D-FB36 FB38-FB3C FB3E FB40-FB41 FB43-FB44 FB46-FB4F"

def arabic : List Span := Span.list "
   600-604 606-60B 60D-61A 61C-61E 620-63F 641-64A 656-66F 671-6DC 6DE-6FF 750-77F 870-88E 890-891
   898-8E1 8E3-8FF FB50-FBC2 FBD3-FD3D FD40-FD8F FD92-FDC7 FDCF FDF0-FDFF FE70-FE74 FE76-FEFC
   10E60-10E7E 10EFD-10EFF 1EE00-1EE03 1EE05-1EE1F 1EE21-1EE22 1EE24 1EE27 1EE29-1EE32 1EE34-1EE37
   1EE39 1EE3B 1EE42 1EE47-1EE4B/2 1EE4D-1EE4F 1EE51-1EE52 1EE54 1EE57-1EE5F/2 1EE61-1EE62 1EE64
   1EE67-1EE6A 1EE6C-1EE72 1EE74-1EE77 1EE79-1EE7C 1EE7E 1EE80-1EE89 1EE8B-1EE9B 1EEA1-1EEA3
   1EEA5-1EEA9 1EEAB-1EEBB 1EEF0-1EEF1"

def syriac : List Span := Span.list "
   700-70D 70F-74A 74D-74F 860-86A"

def thaana : List Span := Span.list "
   780-7B1"

def devanagari : List Span := Span.list "
   900-950 955-963 966-97F A8E0-A8FF 11B00-11B09"

def bengali : List Span := Span.list "
   980-983 985-98C 98F-990 993-9A8 9AA-9B0 9B2 9B6-9B9 9BC-9C4 9C7-9C8 9CB-9CE 9D7 9DC-9DD 9DF-9E3
   9E6-9FE"

def gurmukhi : List Span := Span.list "
   A01-A03 A05-A0A A0F-A10 A13-A28 A2A-A30 A32-A33 A35-A36 A38-A39 A3C A3E-A42 A47-A48 A4B-A4D A51
   A59-A5C A5E A66-A76"

def gujarati : List Span := Span.list "
   A81-A83 A85-A8D A8F-A91 A93-AA8 AAA-AB0 AB2-AB3 AB5-AB9 ABC-AC5 AC7-AC9 ACB-ACD AD0 AE0-AE3
   AE6-AF1 AF9-AFF"

def oriya : List Span := Span.list "
   B01-B03 B05-B0C B0F-B10 B13-B28 B2A-B30 B32-B33 B35-B39 B3C-B44 B47-B48 B4B-B4D B55-B57 B5C-B5D
   B5F-B63 B66-B77"

def tamil : List Span := Span.list "
   B82-B83 B85-B8A B8E-B90 B92-B95 B99-B9A B9C B9E-B9F BA3-BA4 BA8-BAA BAE-BB9 BBE-BC2 BC6-BC8
   BCA-BCD BD0 BD7 BE6-BFA 11FC0-11FF1 11FFF"

def telugu : List Span := Span.list "
   C00-C0C C0E-C10 C12-C28 C2A-C39 C3C-C44 C46-C48 C4A-C4D C55-C56 C58-C5A C5D C60-C63 C66-C6F
   C77-C7F"

def kannada : List Span := Span.list "
   C80-C8C C8E-C90 C92-CA8 CAA-CB3 CB5-CB9 CBC-CC4 CC6-CC8 CCA-CCD CD5-CD6 CDD-CDE CE0-CE3 CE6-CEF
   CF1-CF3"

def malayalam : List Span := Span.list "
   D00-D0C D0E-D10 D12-D44 D46-D48 D4A-D4F D54-D63 D66-D7F"

def sinhala : List Span := Span.list "
   D81-D83 D85-D96 D9A-DB1 DB3-DBB DBD DC0-DC6 DCA DCF-DD4 DD6 DD8-DDF DE6-DEF DF2-DF4 111E1-111F4"

def thai : List Span := Span.list "
   E01-E3A E40-E5B"

def lao : List Span := Span.list "
   E81-E82 E84 E86-E8A E8C-EA3 EA5 EA7-EBD EC0-EC4 EC6 EC8-ECE ED0-ED9 EDC-EDF"

def tibetan : List Span := Span.list "
   F00-F47 F49-F6C F71-F97 F99-FBC FBE-FCC FCE-FD4 FD9-FDA"

def myanmar : List Span := Span.list "
   1000-109F A9E0-A9FE AA60-AA7F"

def georgian : List Span := Span.list "
   10A0-10C5 10C7 10CD 10D0-10FA 10FC-10FF 1C90-1CBA 1CBD-1CBF 2D00-2D25 2D27 2D2D"

def hangul : List Span := Span.list "
   1100-11FF 302E-302F 3131-318E 3200-321E 3260-327E A960-A97C AC00-D7A3 D7B0-D7C6 D7CB-D7FB
   FFA0-FFBE FFC2-FFC7 FFCA-FFCF FFD2-FFD7 FFDA-FFDC"

def ethiopic : List Span := Span.list "
   1200-1248 124A-124D 1250-1256 1258 125A-125D 1260-1288 128A-128D 1290-12B0 12B2-12B5 12B8-12BE
   12C0 12C2-12C5 12C8-12D6 12D8-1310 1312-1315 1318-135A 135D-137C 1380-1399 2D80-2D96 2DA0-2DA6
   2DA8-2DAE 2DB0-2DB6 2DB8-2DBE 2DC0-2DC6 2DC8-2DCE 2DD0-2DD6 2DD8-2DDE AB01-AB06 AB09-AB0E
   AB11-AB16 AB20-AB26 AB28-AB2E 1E7E0-1E7E6 1E7E8-1E7EB 1E7ED-1E7EE 1E7F0-1E7FE"

def cherokee : List Span := Span.list "
   13A0-13F5 13F8-13FD AB70-ABBF"

def khmer : List Span := Span.list "
   1780-17DD 17E0-17E9 17F0-17F9 19E0-19FF"

def mongolian : List Span := Span.list "
   1800-1801 1804 1806-1819 1820-1878 1880-18AA 11660-1166C"

def hiragana : List Span := Span.list "
   3041-3096 309D-309F 1B001-1B11F 1B132 1B150-1B152 1F200"

def katakana : List Span := Span.list "
   30A1-30FA 30FD-30FF 31F0-31FF 32D0-32FE 3300-3357 FF66-FF6F FF71-FF9D 1AFF0-1AFF3 1AFF5-1AFFB
   1AFFD-1AFFE 1B000 1B120-1B122 1B155 1B164-1B167"

def bopomofo : List Span := Span.list "
   2EA-2EB 3105-312F 31A0-31BF"

def han : List Span := Span.list "
   2E80-2E99 2E9B-2EF3 2F00-2FD5 3005 3007 3021-3029 3038-303B 3400-4DBF 4E00-9FFF F900-FA6D
   FA70-FAD9 16FE2-16FE3 16FF0-16FF1 20000-2A6DF 2A700-2B739 2B740-2B81D 2B820-2CEA1 2CEB0-2EBE0
   2F800-2FA1D 30000-3134A 31350-323AF"

def yi : List Span := Span.list "
   A000-A48C A490-A4C6"

def coptic : List Span := Span.list "
   3E2-3EF 2C80-2CF3 2CF9-2CFF"

def common : List Span := Span.list "
   0-40 5B-60 7B-A9 AB-B9 BB-BF D7 F7 2B9-2DF 2E5-2E9 2EC-2FF 374 37E 385 387 605 60C 61B 61F 640
   6DD 8E2 964-965 E3F FD5-FD8 10FB 16EB-16ED 1735-1736 1802-1803 1805 1CD3 1CE1 1CE9-1CEC
   1CEE-1CF3 1CF5-1CF7 1CFA 2000-200B 200E-2064 2066-2070 2074-207E 2080-208E 20A0-20C0 2100-2125
   2127-2129 212C-2131 2133-214D 214F-215F 2189-218B 2190-2426 2440-244A 2460-27FF 2900-2B73
   2B76-2B95 2B97-2BFF 2E00-2E5D 2FF0-2FFB 3000-3004 3006 3008-3020 3030-3037 303C-303F 309B-309C
   30A0 30FB-30FC 3190-319F 31C0-31E3 3220-325F 327F-32CF 32FF 3358-33FF 4DC0-4DFF A700-A721
   A788-A78A A830-A839 A92E A9CF AB5B AB6A-AB6B FD3E-FD3F FE10-FE19 FE30-FE52 FE54-FE66 FE68-FE6B
   FEFF FF01-FF20 FF3B-FF40 FF5B-FF65 FF70 FF9E-FF9F FFE0-FFE6 FFE8-FFEE FFF9-FFFD 10100-10102
   10107-10133 10137-1013F 10190-1019C 101D0-101FC 102E1-102FB 1BCA0-1BCA3 1CF50-1CFC3 1D000-1D0F5
   1D100-1D126 1D129-1D166 1D16A-1D17A 1D183-1D184 1D18C-1D1A9 1D1AE-1D1EA 1D2C0-1D2D3 1D2E0-1D2F3
   1D300-1D356 1D360-1D378 1D400-1D454 1D456-1D49C 1D49E-1D49F 1D4A2 1D4A5-1D4A6 1D4A9-1D4AC
   1D4AE-1D4B9 1D4BB 1D4BD-1D4C3 1D4C5-1D505 1D507-1D50A 1D50D-1D514 1D516-1D51C 1D51E-1D539
   1D53B-1D53E 1D540-1D544 1D546 1D54A-1D550 1D552-1D6A5 1D6A8-1D7CB 1D7CE-1D7FF 1EC71-1ECB4
   1ED01-1ED3D 1F000-1F02B 1F030-1F093 1F0A0-1F0AE 1F0B1-1F0BF 1F0C1-1F0CF 1F0D1-1F0F5 1F100-1F1AD
   1F1E6-1F1FF 1F201-1F202 1F210-1F23B 1F240-1F248 1F250-1F251 1F260-1F265 1F300-1F6D7 1F6DC-1F6EC
   1F6F0-1F6FC 1F700-1F776 1F77B-1F7D9 1F7E0-1F7EB 1F7F0 1F800-1F80B 1F810-1F847 1F850-1F859
   1F860-1F887 1F890-1F8AD 1F8B0-1F8B1 1F900-1FA53 1FA60-1FA6D 1FA70-1FA7C 1FA80-1FA88 1FA90-1FABD
   1FABF-1FAC5 1FACE-1FADB 1FAE0-1FAE8 1FAF0-1FAF8 1FB00-1FB92 1FB94-1FBCA 1FBF0-1FBF9 E0001
   E0020-E007F"

def inherited : List Span := Span.list "
   300-36F 485-486 64B-655 670 951-954 1AB0-1ACE 1CD0-1CD2 1CD4-1CE0 1CE2-1CE8 1CED 1CF4 1CF8-1CF9
   1DC0-1DFF 200C-200D 20D0-20F0 302A-302D 3099-309A FE00-FE0F FE20-FE2D 101FD 102E0 1133B
   1CF00-1CF2D 1CF30-1CF46 1D167-1D169 1D17B-1D182 1D185-1D18B 1D1AA-1D1AD E0100-E01EF"

/-- Scripts under their full and their four-letter names. -/
def scripts : List (List String × List Span) :=
  [(["latn", "latin"], latin), (["grek", "greek"], greek), 
    (["cyrl", "cyrillic"], cyrillic), (["armn", "armenian"], armenian), 
    (["hebr", "hebrew"], hebrew), (["arab", "arabic"], arabic), 
    (["syrc", "syriac"], syriac), (["thaa", "thaana"], thaana), 
    (["deva", "devanagari"], devanagari), (["beng", "bengali"], bengali), 
    (["guru", "gurmukhi"], gurmukhi), (["gujr", "gujarati"], gujarati), 
    (["orya", "oriya"], oriya), (["taml", "tamil"], tamil), 
    (["telu", "telugu"], telugu), (["knda", "kannada"], kannada), 
    (["mlym", "malayalam"], malayalam), (["sinh", "sinhala"], sinhala), 
    (["thai", "thai"], thai), (["laoo", "lao"], lao), 
    (["tibt", "tibetan"], tibetan), (["mymr", "myanmar"], myanmar), 
    (["geor", "georgian"], georgian), (["hang", "hangul"], hangul), 
    (["ethi", "ethiopic"], ethiopic), (["cher", "cherokee"], cherokee), 
    (["khmr", "khmer"], khmer), (["mong", "mongolian"], mongolian), 
    (["hira", "hiragana"], hiragana), (["kana", "katakana"], katakana), 
    (["bopo", "bopomofo"], bopomofo), (["hani", "han"], han), 
    (["yiii", "yi"], yi), (["copt", "coptic", "qaac"], coptic), 
    (["zyyy", "common"], common), (["zinh", "inherited", "qaai"], inherited)]

def ofCategories (ks : List Category) : List Span := ks.flatMap Category.spans

def letters : List Category :=
  [.uppercaseLetter, .lowercaseLetter, .titlecaseLetter, .modifierLetter, .otherLetter]

def marks : List Category := [.nonspacingMark, .spacingMark, .enclosingMark]

/-- Groups of categories and single categories under their names; the names of a row mean the same. -/
def categories : List (List String × List Category) :=
  [(["l", "letter"], letters),
    (["lc", "casedletter"], [.uppercaseLetter, .lowercaseLetter, .titlecaseLetter]),
    (["lu", "uppercaseletter"], [.uppercaseLetter]),
    (["ll", "lowercaseletter"], [.lowercaseLetter]),
    (["lt", "titlecaseletter"], [.titlecaseLetter]),
    (["lm", "modifierletter"], [.modifierLetter]),
    (["lo", "otherletter"], [.otherLetter]),
    (["m", "mark", "combiningmark"], marks),
    (["mn", "nonspacingmark"], [.nonspacingMark]),
    (["mc", "spacingmark"], [.spacingMark]),
    (["me", "enclosingmark"], [.enclosingMark]),
    (["n", "number"], [.decimalNumber, .letterNumber, .otherNumber]),
    (["nd", "decimalnumber", "digit"], [.decimalNumber]),
    (["nl", "letternumber"], [.letterNumber]),
    (["no", "othernumber"], [.otherNumber]),
    (["p", "punctuation", "punct"], [.connectorPunctuation, .dashPunctuation, .openPunctuation,
      .closePunctuation, .initialPunctuation, .finalPunctuation, .otherPunctuation]),
    (["pc", "connectorpunctuation"], [.connectorPunctuation]),
    (["pd", "dashpunctuation"], [.dashPunctuation]),
    (["ps", "openpunctuation"], [.openPunctuation]),
    (["pe", "closepunctuation"], [.closePunctuation]),
    (["pi", "initialpunctuation"], [.initialPunctuation]),
    (["pf", "finalpunctuation"], [.finalPunctuation]),
    (["po", "otherpunctuation"], [.otherPunctuation]),
    (["s", "symbol"], [.mathSymbol, .currencySymbol, .modifierSymbol, .otherSymbol]),
    (["sm", "mathsymbol"], [.mathSymbol]),
    (["sc", "currencysymbol"], [.currencySymbol]),
    (["sk", "modifiersymbol"], [.modifierSymbol]),
    (["so", "othersymbol"], [.otherSymbol]),
    (["z", "separator"], [.spaceSeparator, .lineSeparator, .paragraphSeparator]),
    (["zs", "spaceseparator"], [.spaceSeparator]),
    (["zl", "lineseparator"], [.lineSeparator]),
    (["zp", "paragraphseparator"], [.paragraphSeparator]),
    (["cc", "control", "cntrl"], [.control]),
    (["cf", "format"], [.format]),
    (["co", "privateuse"], [.privateUse])]

def everything : List Span := [⟨0, 0x10FFFF, 1⟩]

def ascii : List Span := [⟨0, 0x7F, 1⟩]

def blank : List Span := blankSpans.map fun (first, last) => ⟨first, last, 1⟩

def alphabetic : List Span := ofCategories (.letterNumber :: letters) ++ otherAlphabetic

def lowercase : List Span := ofCategories [.lowercaseLetter] ++ otherLowercase

def uppercase : List Span := ofCategories [.uppercaseLetter] ++ otherUppercase

def cased : List Span := lowercase ++ uppercase ++ ofCategories [.titlecaseLetter]

def caseIgnorable : List Span :=
  ofCategories [.nonspacingMark, .enclosingMark, .format, .modifierLetter, .modifierSymbol] ++ midWord

/-- Characters of words: alphabetic ones, marks, digits, connectors and the two joiners. -/
def word : List Span :=
  alphabetic ++ ofCategories (marks ++ [.decimalNumber, .connectorPunctuation]) ++
    [⟨0x200C, 0x200D, 1⟩]

/-- Properties that hold of a character or do not. -/
def truths : List (List String × List Span) :=
  [(["alphabetic", "alpha"], alphabetic), (["lowercase", "lower"], lowercase),
    (["uppercase", "upper"], uppercase), (["whitespace", "wspace", "space"], blank),
    (["cased"], cased), (["caseignorable", "ci"], caseIgnorable),
    (["joincontrol", "joinc"], [⟨0x200C, 0x200D, 1⟩]),
    (["asciihexdigit", "ahex"], [⟨0x30, 0x39, 1⟩, ⟨0x41, 0x46, 1⟩, ⟨0x61, 0x66, 1⟩])]

def row? {α : Type} (rows : List (List String × α)) (name : String) : Option α :=
  (rows.find? (·.1.contains name)).map (·.2)

/-- The form in which names are compared. -/
def normalName (cs : List Char) : String :=
  let plain := (cs.filter fun c => c != ' ' && c != '_' && c != '-' && c.toNat < 0x80).map Char.toLower
  String.ofList <|
    match plain with
    | 'i' :: 's' :: rest => if rest = ['c'] then plain else rest
    | _ => plain

def category? (name : String) : Option (List Span) :=
  if name = "any" then some everything
  else if name = "ascii" then some ascii
  else (row? categories name).map ofCategories

/-- The characters that a lone name stands for. -/
def ofName? (name : String) : Option (List Span) :=
  (if name = "cf" ∨ name = "sc" ∨ name = "lc" then none else row? truths name).or
    ((category? name).or (row? scripts name))

/-- The characters with the given value of a property that has several. -/
def ofValue? (property value : String) : Option (List Span) :=
  if property = "gc" ∨ property = "generalcategory" then category? value
  else if property = "sc" ∨ property = "script" then row? scripts value
  else none

end BackOffice.Text.Property
