/-!
# White space

The twenty-five characters that count as white space, and what it means for text to be blank.
-/
namespace BackOffice.Text

/-- Spans of code points of white space. -/
def blankSpans : List (Nat × Nat) :=
  [(0x9, 0xD), (0x20, 0x20), (0x85, 0x85), (0xA0, 0xA0), (0x1680, 0x1680), (0x2000, 0x200A),
    (0x2028, 0x2029), (0x202F, 0x202F), (0x205F, 0x205F), (0x3000, 0x3000)]

def isBlankChar (c : Char) : Bool :=
  blankSpans.any fun (first, last) => first ≤ c.toNat && c.toNat ≤ last

/-- Text without the white space it begins with. -/
def dropBlanks (cs : List Char) : List Char := cs.dropWhile isBlankChar

/-- Nothing but white space. -/
def isBlank (s : String) : Bool := s.toList.all isBlankChar

end BackOffice.Text
