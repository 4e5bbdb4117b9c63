import BackOffice.Number.Numeral

/-!
# Percent-encoded text

A percent sign and two hexadecimal digits stand for a byte; the bytes of a whole text are read as
UTF-8. Bytes that are not UTF-8 make a text unreadable, or are replaced by U+FFFD where a reader is
lenient.
-/
namespace BackOffice.Text.Percent

def bytesOf (c : Char) : List UInt8 := c.toString.toUTF8.toList

/-- The bytes of a text, with the encoded ones resolved. A percent sign without two digits behind
it stands for itself. -/
def bytes : List Char → List UInt8
  | [] => []
  | '%' :: cs =>
    match cs with
    | a :: b :: rest =>
      match Numeral.hexDigit? a, Numeral.hexDigit? b with
      | some x, some y => UInt8.ofNat (x * 16 + y) :: bytes rest
      | _, _ => bytesOf '%' ++ bytes (a :: b :: rest)
    | [a] => bytesOf '%' ++ bytes [a]
    | [] => bytesOf '%'
  | c :: cs => bytesOf c ++ bytes cs

def ofUtf8? (bs : List UInt8) : Option String := String.fromUTF8? ⟨bs.toArray⟩

def decodeText? (s : String) : Option String := ofUtf8? (bytes s.toList)

/-- Whether a byte may follow a lead byte directly, and the bytes still to come after it. -/
def secondRange (lead : UInt8) : Option (UInt8 × UInt8 × Nat) :=
  if 0xC2 ≤ lead ∧ lead ≤ 0xDF then some (0x80, 0xBF, 0)
  else if lead = 0xE0 then some (0xA0, 0xBF, 1)
  else if lead = 0xED then some (0x80, 0x9F, 1)
  else if 0xE1 ≤ lead ∧ lead ≤ 0xEF then some (0x80, 0xBF, 1)
  else if lead = 0xF0 then some (0x90, 0xBF, 2)
  else if lead = 0xF4 then some (0x80, 0x8F, 2)
  else if 0xF1 ≤ lead ∧ lead ≤ 0xF3 then some (0x80, 0xBF, 2)
  else none

def isContinuation (b : UInt8) : Bool := 0x80 ≤ b && b ≤ 0xBF

/-- How many bytes after a lead byte belong to it, and whether they complete a character. -/
def tailLength (lead : UInt8) (bs : List UInt8) : Nat × Bool :=
  match secondRange lead, bs with
  | some (low, high, more), b :: bs =>
    if low ≤ b ∧ b ≤ high then
      let run := ((bs.take more).takeWhile isContinuation).length
      (1 + run, run == more)
    else (0, false)
  | _, _ => (0, false)

/-- Reads bytes as UTF-8; each longest stretch that begins no character becomes one U+FFFD. -/
def lenient : Nat → List UInt8 → List Char
  | 0, _ => []
  | _ + 1, [] => []
  | fuel + 1, b :: bs =>
    if b < 0x80 then Char.ofNat b.toNat :: lenient fuel bs
    else
      let (count, whole) := tailLength b bs
      let char := if whole then (ofUtf8? (b :: bs.take count)).getD "\uFFFD" else "\uFFFD"
      char.toList ++ lenient fuel (bs.drop count)

def decodeLenient (s : String) : String :=
  let bs := bytes s.toList
  String.ofList (lenient (bs.length + 1) bs)

end BackOffice.Text.Percent
