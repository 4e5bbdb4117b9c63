import BackOffice.Internet.Punycode
import BackOffice.Text.Property

/-!
# Domain names in ASCII

A name of any characters is brought to ASCII label by label: characters are mapped to small letters
and plain forms, forbidden ones make the name invalid, and a label that still is not ASCII is
encoded in Punycode after `xn--`. Symbols, hyphens anywhere, empty labels and labels of any length
are left to the users of the name. Of the characters that stand for others, only dots, spaces and
full-width forms are resolved; a conversion with the whole table may take the place of this one.
-/
namespace BackOffice.Internet.DomainName

open BackOffice.Text

/-- Characters that a name drops. -/
def ignored : List Span := Span.list "AD 34F 115F-1160 17B4-17B5 180B-180F 200B 2060 2064 3164
   FE00-FE0F FEFF FFA0 E0100-E01EF"

/-- Characters that stand for a dot between labels. -/
def isDot (c : Char) : Bool := c == '.' || c == '\u3002' || c == '\uFF0E' || c == '\uFF61'

/-- The form that a character takes in a name: full-width forms become plain and capitals small.
The sharp s and the final sigma stay, since they differ from their folded forms in a name. -/
def mapped (c : Char) : List Char :=
  if isDot c then ['.']
  else if Span.anyHas ignored c.toNat then []
  else if c = '\u00DF' ∨ c = '\u03C2' then [c]
  else if c = '\u0130' then ['i', '\u0307']
  else if 0xFF01 ≤ c.toNat ∧ c.toNat ≤ 0xFF5E then
    [(Char.ofNat (c.toNat - 0xFEE0)).toLower]
  else if c = '\u00A0' ∨ c = '\u3000' then [' ']
  else [foldChar c]

def forbiddenKinds : List Category :=
  [.spaceSeparator, .lineSeparator, .paragraphSeparator, .control, .format, .privateUse]

def isJoiner (c : Char) : Bool := c == '\u200C' || c == '\u200D'

/-- Signs that drop a vowel; a joiner may stand after one. -/
def vowelKillers : List Span := Span.list "94D 9CD A4D ACD B4D BCD C4D CCD D3B-D3C D4D DCA E3A
   EBA F84 1039-103A 1714-1715 1734 17D2 1A60 1B44 1BAA-1BAB 1BF2-1BF3 2D7F A806 A82C A8C4 A953
   A9C0 AAF6 ABED 10A3F 11046 11070 1107F 110B9 11133-11134 111C0 11235 112EA 1134D 11442 114C2
   115BF 1163F 116B6 1172B 11839 1193D-1193E 119E0 11A34 11A47 11A99 11C3F 11D44-11D45 11D97
   11F41-11F42"

/-- Whether a character other than a joiner may stand in a label. -/
def isAllowed (c : Char) : Bool :=
  if c.toNat < 0x80 then true
  else
    Category.named.any (fun (_, k) => k.has c && !forbiddenKinds.contains k) &&
      !(c.toNat == 0xFFFC || c.toNat == 0xFFFD)

/-- A joiner may only follow a sign that drops a vowel. -/
def joinersStand : Option Char → List Char → Bool
  | _, [] => true
  | before, c :: cs =>
    (!isJoiner c || (before.any fun b => Span.anyHas vowelKillers b.toNat)) && joinersStand (some c) cs

/-- A mapped label may not begin with a mark, and all its characters must be allowed. -/
def isLabel (label : List Char) : Bool :=
  (label.all fun c => isAllowed c || isJoiner c) && joinersStand none label &&
    match label with
    | c :: _ => !(Property.marks.any (·.has c))
    | [] => true

def isAscii (cs : List Char) : Bool := cs.all fun c => c.toNat < 0x80

/-- A label that claims to be encoded must decode to a mapped label that needed it. -/
def encodedLabel? (label : List Char) : Option (List Char) :=
  match Punycode.decode? (label.drop 4) with
  | some plain =>
    if !isAscii plain && isLabel plain && plain.flatMap mapped == plain then some label else none
  | none => none

def asciiLabel? (label : List Char) : Option (List Char) :=
  if label.take 4 = "xn--".toList then encodedLabel? label
  else if !isLabel label then none
  else if isAscii label then some label
  else some ("xn--".toList ++ Punycode.encode label)

/-- The labels between the dots. -/
def labels (cs : List Char) : List (List Char) :=
  cs.foldr
    (fun c rows =>
      match rows with
      | row :: rest => if c = '.' then [] :: row :: rest else (c :: row) :: rest
      | [] => [[c]])
    [[]]

def ofLabels (rows : List (List Char)) : List Char := ['.'].intercalate rows

/-- The conversion of names to ASCII, which goes by a table of all characters with another form. -/
class Conversion where
  /-- The ASCII form of a name, if it has one. -/
  toAscii? : List Char → Option (List Char)

/-- Where no conversion is given, names are converted label by label. -/
instance Conversion.byLabels : Conversion where
  toAscii? cs := ((labels (cs.flatMap mapped)).mapM asciiLabel?).map ofLabels

end BackOffice.Internet.DomainName
