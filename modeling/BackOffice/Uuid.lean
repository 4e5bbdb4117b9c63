import BackOffice.Number.Numeral

/-!
# Identifiers of 128 bits

An identifier is written as thirty-two hexadecimal digits in lower case, grouped `8-4-4-4-12`. It is
read also without hyphens, in braces, or after `urn:uuid:`, and the case of letters does not matter.
Identifiers are ordered as numbers, which is the order of their written forms.
-/
namespace BackOffice

structure Uuid where
  bits : BitVec 128
deriving DecidableEq

namespace Uuid

/-- The key of a record that has no identifier yet. -/
def nil : Uuid := ⟨0⟩

def compare (a b : Uuid) : Ordering := Ord.compare a.bits.toNat b.bits.toNat

def ofNat (n : Nat) : Uuid := ⟨BitVec.ofNat 128 n⟩

def hyphenated (hex : List Char) : List Char :=
  hex.take 8 ++ '-' :: ((hex.drop 8).take 4 ++ '-' :: ((hex.drop 12).take 4 ++ '-' ::
    ((hex.drop 16).take 4 ++ '-' :: hex.drop 20)))

def text (u : Uuid) : String :=
  String.ofList (hyphenated (Numeral.hexPadded 32 u.bits.toNat))

def ofHex? (hex : List Char) : Option Uuid :=
  if hex.length = 32 then (Numeral.ofHex? hex).map ofNat else none

/-- The digits of a form whose hyphens stand exactly where they are written. -/
def withoutHyphens? (cs : List Char) : Option (List Char) :=
  let hex := cs.filter (· != '-')
  if cs.length = 36 ∧ hyphenated hex = cs then some hex else none

def ofHyphenated? (cs : List Char) : Option Uuid :=
  (withoutHyphens? cs).bind ofHex?

def urnLead : List Char := "urn:uuid:".toList

def ofChars? (cs : List Char) : Option Uuid :=
  match cs with
  | '\x7b' :: inner =>
    match inner.getLast? with
    | some '\x7d' => ofHyphenated? inner.dropLast
    | _ => none
  | _ =>
    if (cs.take urnLead.length).map Char.toLower = urnLead then
      ofHyphenated? (cs.drop urnLead.length)
    else if cs.length = 32 then ofHex? cs
    else ofHyphenated? cs

def ofText? (s : String) : Option Uuid := ofChars? s.toList

end Uuid

end BackOffice
