import BackOffice.Number.Numeral

/-!
# Spans of code points

Properties of characters are kept as spans of code points, and maps between characters as spans
with the image of their first member. Long tables have a compact written form: `41-5A` is a span,
`100-136/2` one whose members step by two, `41-5A>61` one with an image, all in hexadecimal.
-/
namespace BackOffice.Text

structure Span where
  first : Nat
  last : Nat
  step : Nat
deriving DecidableEq

namespace Span

def has (s : Span) (n : Nat) : Bool :=
  s.first ≤ n && n ≤ s.last && (n - s.first) % s.step == 0

def anyHas (spans : List Span) (n : Nat) : Bool := spans.any (·.has n)

def hex (cs : List Char) : Nat := (Numeral.ofHex? cs).getD 0

/-- One span from its written form. -/
def ofChars (cs : List Char) : Span :=
  let (bounds, step) := cs.span (· != '/')
  let (first, last) := bounds.span (· != '-')
  ⟨hex first, hex (if last.isEmpty then first else last.drop 1), if step.isEmpty then 1 else 2⟩

/-- The words of a text, parted by blanks and line ends. -/
def words (s : String) : List (List Char) :=
  let isGap (c : Char) : Bool := c == ' ' || c == '\n'
  (s.toList.splitBy fun a b => isGap a == isGap b).filter fun word => !word.any isGap

def list (s : String) : List Span := (words s).map ofChars

end Span

/-- A span whose members move together: the first one to `image`. -/
structure Shift where
  span : Span
  image : Nat
deriving DecidableEq

namespace Shift

def ofChars (cs : List Char) : Shift :=
  let (span, image) := cs.span (· != '>')
  ⟨Span.ofChars span, Span.hex (image.drop 1)⟩

def list (s : String) : List Shift := (Span.words s).map ofChars

/-- The image of a character; itself if no span holds it. -/
def apply (table : List Shift) (c : Char) : Char :=
  match table.find? (·.span.has c.toNat) with
  | some s => Char.ofNat (s.image + (c.toNat - s.span.first))
  | none => c

end Shift

end BackOffice.Text
