import BackOffice.Text.Property

/-!
# Sets of characters

What a single place of a pattern may hold: spans of code points, set operations on them, and the
closure of a set under equality up to case.
-/
namespace BackOffice.Pattern

open BackOffice.Text

inductive CharSet where
  | spans (list : List Span)
  | compl (a : CharSet)
  | union (a b : CharSet)
  | inter (a b : CharSet)
  | diff (a b : CharSet)
  | symDiff (a b : CharSet)
  | upToCase (a : CharSet)

/-- The characters equal to `c` up to case. -/
def caseVariants (c : Char) : List Char :=
  let image := foldChar c
  let row (s : Shift) : List Char :=
    if s.image ≤ image.toNat then
      let n := s.span.first + (image.toNat - s.image)
      if s.span.has n then [Char.ofNat n] else []
    else []
  c :: image :: foldTable.flatMap row

namespace CharSet

def empty : CharSet := spans []

def single (c : Char) : CharSet := spans [⟨c.toNat, c.toNat, 1⟩]

def between (first last : Char) : CharSet := spans [⟨first.toNat, last.toNat, 1⟩]

def any : CharSet := spans Property.everything

def has : CharSet → Char → Bool
  | spans list, c => Span.anyHas list c.toNat
  | compl a, c => !a.has c
  | union a b, c => a.has c || b.has c
  | inter a b, c => a.has c && b.has c
  | diff a b, c => a.has c && !b.has c
  | symDiff a b, c => a.has c != b.has c
  | upToCase a, c => (caseVariants c).any a.has

def digit : CharSet := spans Category.decimalNumber.spans

def blank : CharSet := spans Property.blank

def word : CharSet := spans Property.word

def asciiDigit : CharSet := between '0' '9'

def asciiBlank : CharSet := spans [⟨0x9, 0xD, 1⟩, ⟨0x20, 0x20, 1⟩]

def asciiWord : CharSet :=
  spans [⟨0x30, 0x39, 1⟩, ⟨0x41, 0x5A, 1⟩, ⟨0x5F, 0x5F, 1⟩, ⟨0x61, 0x7A, 1⟩]

def unassigned : CharSet := compl (spans (Property.ofCategories (Category.named.map (·.2))))

/-- The set that a lone property name stands for. -/
def ofName? (name : String) : Option CharSet :=
  if name = "cn" ∨ name = "unassigned" then some unassigned
  else if name = "assigned" then some (compl unassigned)
  else if name = "c" ∨ name = "other" then
    some (union unassigned (spans (Property.ofCategories [.control, .format, .privateUse])))
  else (Property.ofName? name).map spans

/-- The named sets of ASCII characters that may stand in brackets. -/
def ofAsciiName? (name : String) : Option CharSet :=
  match name with
  | "alnum" => some (spans [⟨0x30, 0x39, 1⟩, ⟨0x41, 0x5A, 1⟩, ⟨0x61, 0x7A, 1⟩])
  | "alpha" => some (spans [⟨0x41, 0x5A, 1⟩, ⟨0x61, 0x7A, 1⟩])
  | "ascii" => some (spans Property.ascii)
  | "blank" => some (spans [⟨0x9, 0x9, 1⟩, ⟨0x20, 0x20, 1⟩])
  | "cntrl" => some (spans [⟨0, 0x1F, 1⟩, ⟨0x7F, 0x7F, 1⟩])
  | "digit" => some asciiDigit
  | "graph" => some (spans [⟨0x21, 0x7E, 1⟩])
  | "lower" => some (between 'a' 'z')
  | "print" => some (spans [⟨0x20, 0x7E, 1⟩])
  | "punct" => some (spans [⟨0x21, 0x2F, 1⟩, ⟨0x3A, 0x40, 1⟩, ⟨0x5B, 0x60, 1⟩, ⟨0x7B, 0x7E, 1⟩])
  | "space" => some asciiBlank
  | "upper" => some (between 'A' 'Z')
  | "word" => some asciiWord
  | "xdigit" => some (spans [⟨0x30, 0x39, 1⟩, ⟨0x41, 0x46, 1⟩, ⟨0x61, 0x66, 1⟩])
  | _ => none

end CharSet

end BackOffice.Pattern
