import BackOffice.Internet.Address

/-!
# Electronic mail addresses

The part before the last `@` has at most 64 characters of a fixed set. The part behind has at most
255 and is a name of plain labels, an address in square brackets at its end, or a name that has
such an ASCII form.
-/
namespace BackOffice.Internet.Email

/-- A digit, or what is a letter of ASCII up to case: the long s and the sign for kelvin are. -/
def isWordChar (c : Char) : Bool := (Text.foldChar c).isAlphanum

def isLocalChar (c : Char) : Bool :=
  isWordChar c || ".!#$%&'*+/=?^_\x60\x7b|\x7d~-".toList.contains c

def isPlainLabel (label : List Char) : Bool :=
  let atEdge (c : Option Char) : Bool := c.any isWordChar
  label.length ≤ 63 && label.all (fun c => isWordChar c || c == '-') &&
    atEdge label.head? && atEdge label.getLast?

def isPlainName (cs : List Char) : Bool := (DomainName.labels cs).all isPlainLabel

/-- Whether the text closes with a bracketed address. -/
def endsInLiteral (cs : List Char) : Bool :=
  match cs.reverse with
  | ']' :: back =>
    let inner := back.takeWhile fun c => Numeral.isHexDigit c || c == ':' || c == '.'
    (back.drop inner.length).head? == some '[' && Address.isAddress inner.reverse
  | _ => false

def isDomain (cs : List Char) : Bool := isPlainName cs || endsInLiteral cs

def isValid [DomainName.Conversion] (s : String) : Bool :=
  let cs := s.toList
  let behind := (cs.reverse.takeWhile (· != '@')).reverse
  let before := (cs.take (cs.length - behind.length)).dropLast
  cs.contains '@' && before.length ≤ 64 && behind.length ≤ 255 &&
    !before.isEmpty && before.all isLocalChar &&
    (isDomain behind || (DomainName.Conversion.toAscii? behind).any isDomain)

end BackOffice.Internet.Email
