import BackOffice.Number.Numeral

/-!
# Double-precision numbers

A number is its 64-bit pattern. The magnitude of a pattern is the pattern without its sign, and a
finite magnitude stands for a natural number of units of `2 ^ -1074`; all rounding is done in exact
natural arithmetic on that scale and goes to the nearest pattern, a half to the even one.

Two orders matter: the total order on patterns, in which a number differs from itself never and
`-0` stands below `0`, and the equality of arithmetic, for which the zeros agree and no NaN does.
-/
namespace BackOffice

attribute [local instance (high)] instPowNat

structure Binary64 where
  bits : UInt64
deriving DecidableEq

namespace Binary64

def negative (x : Binary64) : Bool := 2 ^ (63 : Nat) ≤ x.bits.toNat

def magnitude (x : Binary64) : Nat := x.bits.toNat % 2 ^ (63 : Nat)

/-- The magnitude of the infinities: finite ones lie below it, those of NaN above. -/
def infiniteMagnitude : Nat := 2047 * 2 ^ (52 : Nat)

def ofMagnitude (negative : Bool) (magnitude : Nat) : Binary64 :=
  ⟨UInt64.ofNat (magnitude + if negative then 2 ^ (63 : Nat) else 0)⟩

def zero : Binary64 := ofMagnitude false 0

def infinity : Binary64 := ofMagnitude false infiniteMagnitude

def nan : Binary64 := ofMagnitude false (infiniteMagnitude + 2 ^ (51 : Nat))

def neg (x : Binary64) : Binary64 := ofMagnitude (!x.negative) x.magnitude

def isNaN (x : Binary64) : Bool := infiniteMagnitude < x.magnitude

def isFinite (x : Binary64) : Bool := x.magnitude < infiniteMagnitude

/-- Finite magnitudes are told in units of two to the power of minus this. -/
def unitExponent : Nat := 1074

/-- The value of a finite magnitude in units of `2 ^ -1074`. -/
def scaled (magnitude : Nat) : Nat :=
  let exponent := magnitude / 2 ^ (52 : Nat)
  let fraction := magnitude % 2 ^ (52 : Nat)
  if exponent = 0 then fraction else (2 ^ (52 : Nat) + fraction) * 2 ^ (exponent - 1)

/-- Place of a pattern in the total order: patterns with a sign stand below the others, in reverse. -/
def totalKey (x : Binary64) : Int :=
  if x.negative then (2 ^ (63 : Nat) - 1 : Int) - x.bits.toNat else x.bits.toNat

def totalCompare (x y : Binary64) : Ordering := compare x.totalKey y.totalKey

/-- Equality of arithmetic. -/
def agrees (x y : Binary64) : Bool :=
  !x.isNaN && !y.isNaN && (x == y || (x.magnitude == 0 && y.magnitude == 0))

/-! ## Rounding -/

/-- The integer nearest to `num / den`, a half going to the even neighbour. -/
def nearestEven (num den : Nat) : Nat :=
  let q := num / den
  let r := num % den
  if 2 * r < den then q else if den < 2 * r then q + 1 else if q % 2 = 0 then q else q + 1

/-- The magnitude nearest to `num / den`, at most infinite. -/
def roundRatio (num den : Nat) : Nat :=
  let units := num * 2 ^ unitExponent
  let shift := (units / den).log2 - 52
  min (shift * 2 ^ (52 : Nat) + nearestEven units (den * 2 ^ shift)) infiniteMagnitude

def ofNat (n : Nat) : Binary64 := ofMagnitude false (roundRatio n 1)

def ofInt (n : Int) : Binary64 := ofMagnitude (n < 0) (roundRatio n.natAbs 1)

/-- The magnitude nearest to `significand * 10 ^ exponent`. Exponents that can only give zero or
infinity are answered without building the power. -/
def roundDecimal (significand : Nat) (exponent : Int) : Nat :=
  let size := ((Numeral.digits significand).length : Int) + exponent
  if significand = 0 ∨ size < -330 then 0
  else if 310 < size then infiniteMagnitude
  else if 0 ≤ exponent then roundRatio (significand * 10 ^ exponent.toNat) 1
  else roundRatio significand (10 ^ (-exponent).toNat)

/-- Product of two finite numbers. -/
def mul (x y : Binary64) : Binary64 :=
  ofMagnitude (x.negative != y.negative)
    (roundRatio (scaled x.magnitude * scaled y.magnitude) (2 ^ (2 * unitExponent)))

/-- Quotient of two finite numbers, the second not zero. -/
def div (x y : Binary64) : Binary64 :=
  ofMagnitude (x.negative != y.negative) (roundRatio (scaled x.magnitude) (scaled y.magnitude))

/-! ## Shortest decimal form -/

/-- The number `0.d₁d₂… × 10 ^ point`. -/
structure Decimal where
  digits : List Char
  point : Int

/-- Decimal position of the leading digit: `10 ^ (point - 1) ≤ value < 10 ^ point` for the value
`halves * 2 ^ -1075`. -/
def leadingPoint (halves : Nat) : Int :=
  if 2 ^ (unitExponent + 1) ≤ halves then (Numeral.digits (halves / 2 ^ (unitExponent + 1))).length
  else 1 - (Numeral.digits ((2 ^ (unitExponent + 1) - 1) / halves)).length

/-- A decimal of `places` digits that rounds to the given magnitude: of the two neighbours of the
value on that grid those that round to it, the nearer first and the upper one on a tie. -/
def onGrid? (magnitude : Nat) (places : Nat) : Option (Nat × Int) :=
  let low := scaled (magnitude - 1) + scaled magnitude
  let value := 2 * scaled magnitude
  let high := scaled magnitude + scaled (magnitude + 1)
  let power := leadingPoint value - places
  let unit := 2 ^ (unitExponent + 1) * 10 ^ power.toNat
  let scale := 10 ^ (-power).toNat
  let inside (c : Nat) : Bool :=
    if magnitude % 2 = 0 then low * scale ≤ c * unit && c * unit ≤ high * scale
    else low * scale < c * unit && c * unit < high * scale
  let below := value * scale / unit
  let upperNearer := unit ≤ 2 * (value * scale % unit)
  match inside below, inside (below + 1) with
  | true, true => some (if upperNearer then below + 1 else below, power)
  | true, false => some (below, power)
  | false, true => some (below + 1, power)
  | false, false => none

def withoutTrailingZeros (ds : List Char) : List Char :=
  (ds.reverse.dropWhile (· == '0')).reverse

/-- The fewest digits that read back as the given finite, non-zero magnitude. Seventeen always do. -/
def shortest (magnitude : Nat) : Decimal :=
  match (List.range 17).findSome? fun n => onGrid? magnitude (n + 1) with
  | some (significand, power) =>
    let ds := Numeral.digits significand
    ⟨withoutTrailingZeros ds, ds.length + power⟩
  | none => ⟨['0'], 1⟩

def zeros (n : Nat) : List Char := List.replicate n '0'

/-- All digits written out, without exponent and with a point only where it is needed. -/
def Decimal.positional (d : Decimal) : List Char :=
  if d.point ≤ 0 then '0' :: '.' :: zeros (-d.point).toNat ++ d.digits
  else
    let whole := d.point.toNat
    if d.digits.length ≤ whole then d.digits ++ zeros (whole - d.digits.length)
    else d.digits.take whole ++ '.' :: d.digits.drop whole

/-- Positional between `10 ^ -5` and `10 ^ 16`, else with an exponent; a whole number written
positionally ends in `.0`. -/
def Decimal.compact (d : Decimal) : List Char :=
  if -5 < d.point ∧ d.point ≤ 16 then
    let body := d.positional
    if d.digits.length ≤ d.point then body ++ ['.', '0'] else body
  else
    let power := (Numeral.signedText (d.point - 1)).toList
    match d.digits with
    | [only] => only :: 'e' :: power
    | lead :: rest => lead :: '.' :: rest ++ 'e' :: power
    | [] => []

/-- The text of a number on the wire: never an exponent. -/
def text (x : Binary64) : String :=
  if x.isNaN then "NaN"
  else
    let body :=
      if x.magnitude = infiniteMagnitude then "inf".toList
      else if x.magnitude = 0 then ['0']
      else (shortest x.magnitude).positional
    String.ofList (if x.negative then '-' :: body else body)

/-- The text of a finite number in a JSON document: always with a point or an exponent. -/
def compactText (x : Binary64) : String :=
  let body := if x.magnitude = 0 then "0.0".toList else (shortest x.magnitude).compact
  String.ofList (if x.negative then '-' :: body else body)

/-! ## Reading -/

/-- Digits up to the first other character, and what follows. -/
def spanDigits (cs : List Char) : List Char × List Char := cs.span Numeral.isDigit

/-- The exponent that may close a decimal: nothing, or `e`, an optional sign and digits. -/
def closingExponent? : List Char → Option Int
  | [] => some 0
  | c :: cs => if c = 'e' ∨ c = 'E' then Numeral.signed? cs else none

/-- Digits with an optional point among or around them, then an optional exponent. -/
def decimalMagnitude? (cs : List Char) : Option Nat :=
  let (whole, rest) := spanDigits cs
  let (fraction, rest) :=
    match rest with
    | '.' :: rest => spanDigits rest
    | _ => ([], rest)
  match Numeral.ofDigits? (whole ++ fraction), closingExponent? rest with
  | some significand, some exponent =>
    some (roundDecimal significand (exponent - (fraction.length : Int)))
  | _, _ => none

def isWord (word : String) (cs : List Char) : Bool := cs.map Char.toLower == word.toList

def unsignedMagnitude? (cs : List Char) : Option Nat :=
  if isWord "nan" cs then some nan.magnitude
  else if isWord "inf" cs || isWord "infinity" cs then some infiniteMagnitude
  else decimalMagnitude? cs

/-- Reads an optional sign and a decimal, an infinity or a NaN, the words in any case. -/
def ofText? (s : String) : Option Binary64 :=
  match s.toList with
  | '-' :: cs => (unsignedMagnitude? cs).map (ofMagnitude true)
  | '+' :: cs => (unsignedMagnitude? cs).map (ofMagnitude false)
  | cs => (unsignedMagnitude? cs).map (ofMagnitude false)

end Binary64

end BackOffice
