/-!
# Whole numbers as text

Reading and writing whole numbers in base ten and base sixteen, over lists of characters, and the
two readers of machine words the texts of a back office use: an unsigned word may carry a plus sign, a
signed one either sign, and leading zeros never matter.
-/

namespace BackOffice.Numeral

-- Powers are those of numbers themselves, also where numbers are known to be a monoid. It is so in
-- every module that computes with powers, and an exponent that is a numeral has its type there.
attribute [local instance (high)] instPowNat

def digit? (c : Char) : Option Nat :=
  if '0' ≤ c ∧ c ≤ '9' then some (c.toNat - '0'.toNat) else none

def hexDigit? (c : Char) : Option Nat :=
  if '0' ≤ c ∧ c ≤ '9' then some (c.toNat - '0'.toNat)
  else if 'a' ≤ c ∧ c ≤ 'f' then some (c.toNat - 'a'.toNat + 10)
  else if 'A' ≤ c ∧ c ≤ 'F' then some (c.toNat - 'A'.toNat + 10)
  else none

def isDigit (c : Char) : Bool := (digit? c).isSome

def isHexDigit (c : Char) : Bool := (hexDigit? c).isSome

/-- The number that digits of the given base continue from `acc`, if all of them are digits. -/
def continued? (base : Nat) (value? : Char → Option Nat) : Nat → List Char → Option Nat
  | acc, [] => some acc
  | acc, c :: cs =>
    match value? c with
    | some d => continued? base value? (acc * base + d) cs
    | none => none

/-- A non-empty run of decimal digits. -/
def ofDigits? : List Char → Option Nat
  | [] => none
  | cs => continued? 10 digit? 0 cs

/-- A non-empty run of hexadecimal digits. -/
def ofHex? : List Char → Option Nat
  | [] => none
  | cs => continued? 16 hexDigit? 0 cs

def digitChar (d : Nat) : Char := Char.ofNat ('0'.toNat + d)

def hexChar (d : Nat) : Char :=
  if d < 10 then digitChar d else Char.ofNat ('a'.toNat + (d - 10))

/-- The decimal digits of a number, without leading zeros. -/
def digits (n : Nat) : List Char :=
  if n < 10 then [digitChar n] else digits (n / 10) ++ [digitChar (n % 10)]
termination_by n
decreasing_by omega

/-- The last `width` decimal digits of a number, leading zeros included. -/
def padded : Nat → Nat → List Char
  | 0, _ => []
  | width + 1, n => padded width (n / 10) ++ [digitChar (n % 10)]

/-- The last `width` hexadecimal digits of a number, in lower case. -/
def hexPadded : Nat → Nat → List Char
  | 0, _ => []
  | width + 1, n => hexPadded width (n / 16) ++ [hexChar (n % 16)]

def text (n : Nat) : String := String.ofList (digits n)

def signedText (n : Int) : String :=
  if n < 0 then String.ofList ('-' :: digits n.natAbs) else text n.natAbs

def unsigned? : List Char → Option Nat
  | '+' :: cs => ofDigits? cs
  | cs => ofDigits? cs

def signed? : List Char → Option Int
  | '-' :: cs => (ofDigits? cs).map fun n => -(n : Int)
  | cs => (unsigned? cs).map fun n => (n : Int)

/-- An unsigned 64-bit word. -/
def word? (s : String) : Option UInt64 :=
  match unsigned? s.toList with
  | some n => if n < 2 ^ (64 : Nat) then some (UInt64.ofNat n) else none
  | none => none

/-- A signed 64-bit word. -/
def signedWord? (s : String) : Option Int64 :=
  match signed? s.toList with
  | some n => if -2 ^ (63 : Nat) ≤ n ∧ n < 2 ^ (63 : Nat) then some (Int64.ofInt n) else none
  | none => none

end BackOffice.Numeral
