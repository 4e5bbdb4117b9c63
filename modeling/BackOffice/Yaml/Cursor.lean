import BackOffice.Number.Numeral

/-!
# Places in a YAML text

What remains of a text and where it stands: the number of characters before it, the line, and the
column. Lines may end in a line feed, a carriage return or both, and in three further characters.
-/
namespace BackOffice.Yaml

def isBreak (c : Char) : Bool :=
  c == '\n' || c == '\r' || c == '\u0085' || c == '\u2028' || c == '\u2029'

def isSpace (c : Char) : Bool := c == ' ' || c == '\t'

/-- A gap: a space, a line end or the end of the text. -/
def startsGap : List Char → Bool
  | [] => true
  | c :: _ => isSpace c || isBreak c

/-- Characters that a text may hold as they are. -/
def isPrintable (c : Char) : Bool :=
  let n := c.toNat
  n == 0x9 || n == 0xA || n == 0xD || (0x20 ≤ n && n ≤ 0x7E) || n == 0x85 ||
    (0xA0 ≤ n && n ≤ 0xFFFD) || 0x10000 ≤ n

structure Cursor where
  rest : List Char
  index : Nat
  line : Nat
  column : Nat

namespace Cursor

def ofText (cs : List Char) : Cursor := ⟨cs, 0, 0, 0⟩

def head? (p : Cursor) : Option Char := p.rest.head?

def headIs (p : Cursor) (c : Char) : Bool := p.rest.head? == some c

/-- Passes characters that are no line ends. -/
def skip (p : Cursor) (n : Nat) : Cursor :=
  ⟨p.rest.drop n, p.index + n, p.line, p.column + n⟩

/-- What a line end counts as in a scalar. -/
def breakText : List Char → List Char
  | c :: _ => if c = '\u2028' ∨ c = '\u2029' then [c] else ['\n']
  | [] => []

/-- Passes one line end. -/
def skipLine (p : Cursor) : Cursor :=
  match p.rest with
  | '\r' :: '\n' :: rest => ⟨rest, p.index + 2, p.line + 1, 0⟩
  | _ :: rest => ⟨rest, p.index + 1, p.line + 1, 0⟩
  | [] => p

/-- A line of `---` or `...` that parts documents. -/
def atDocumentMark (p : Cursor) : Bool :=
  p.column == 0 && (p.rest.take 3 == ['-', '-', '-'] || p.rest.take 3 == ['.', '.', '.']) &&
    startsGap (p.rest.drop 3)

/-- Passes spaces, and tabs where they are allowed. -/
def skipSpaces (tabs : Bool) (p : Cursor) : Cursor :=
  p.skip (p.rest.takeWhile fun c => c == ' ' || (tabs && c == '\t')).length

/-- Passes what is left of a line. -/
def skipToBreak (p : Cursor) : Cursor := p.skip (p.rest.takeWhile (!isBreak ·)).length

end Cursor

end BackOffice.Yaml
