import BackOffice.Number.Numeral
import BackOffice.Text.Blank

/-!
# Instants

A moment of time as its date and time of day at the meridian, down to the nanosecond. Any second may
be followed by a leap second, which is kept as further nanoseconds of the one before it and shown as
the next; after the last second of a minute a clock shows a sixty-first. Offsets are whole minutes
and are resolved when a text is read, so the order of instants is the order of their fields.

Two readers exist. `ofText?` takes the form in which instants travel: four digits of year, two of
everything else, no blanks. `ofLooseText?` takes what stored documents may hold: fewer digits,
signed years, blanks between the parts, and `UTC` for the meridian.
-/
namespace BackOffice

attribute [local instance (high)] instPowNat

namespace Civil

def isLeap (year : Int) : Bool := year % 4 == 0 && (year % 100 != 0 || year % 400 == 0)

def daysIn (year : Int) (month : Nat) : Nat :=
  match month with
  | 2 => if isLeap year then 29 else 28
  | 4 | 6 | 9 | 11 => 30
  | _ => 31

def IsDate (year : Int) (month day : Nat) : Prop :=
  -262143 ≤ year ∧ year ≤ 262142 ∧ 1 ≤ month ∧ month ≤ 12 ∧ 1 ≤ day ∧ day ≤ daysIn year month

/-- From a whole second of nanoseconds on, the second is over and a leap second runs. -/
def IsTime (hour minute second nanos : Nat) : Prop :=
  hour < 24 ∧ minute < 60 ∧ second < 60 ∧ nanos < 2 * 10 ^ (9 : Nat)

/-- What a clock may show. It has a second of sixty, but no nanoseconds beyond a second. -/
def IsShown (hour minute second nanos : Nat) : Prop :=
  hour < 24 ∧ minute < 60 ∧ second ≤ 60 ∧ nanos < 10 ^ (9 : Nat)

instance (year : Int) (month day : Nat) : Decidable (IsDate year month day) :=
  inferInstanceAs (Decidable (_ ∧ _))

instance (hour minute second nanos : Nat) : Decidable (IsTime hour minute second nanos) :=
  inferInstanceAs (Decidable (_ ∧ _))

instance (hour minute second nanos : Nat) : Decidable (IsShown hour minute second nanos) :=
  inferInstanceAs (Decidable (_ ∧ _))

def nextDay (year : Int) (month day : Nat) : Int × Nat × Nat :=
  if day < daysIn year month then (year, month, day + 1)
  else if month < 12 then (year, month + 1, 1)
  else (year + 1, 1, 1)

def previousDay (year : Int) (month day : Nat) : Int × Nat × Nat :=
  if 1 < day then (year, month, day - 1)
  else if 1 < month then (year, month - 1, daysIn year (month - 1))
  else (year - 1, 12, 31)

end Civil

structure Instant where
  year : Int
  month : Nat
  day : Nat
  hour : Nat
  minute : Nat
  second : Nat
  nanos : Nat
  isDate : Civil.IsDate year month day
  isTime : Civil.IsTime hour minute second nanos
deriving DecidableEq

namespace Instant

/-- One number per instant, in the order of time. -/
def orderKey (t : Instant) : Int :=
  (((((t.year * 16 + t.month) * 32 + t.day) * 32 + t.hour) * 64 + t.minute) * 64 + t.second) *
    2 ^ (31 : Nat) + t.nanos

def compare (a b : Instant) : Ordering := Ord.compare a.orderKey b.orderKey

def ofFields? (year : Int) (month day hour minute second nanos : Nat) : Option Instant :=
  if date : Civil.IsDate year month day then
    if time : Civil.IsTime hour minute second nanos then
      some ⟨year, month, day, hour, minute, second, nanos, date, time⟩
    else none
  else none

/-- The instant that shows the given fields at an offset of less than a day, in minutes. -/
def ofLocal? (year : Int) (month day hour minute second nanos : Nat) (offset : Int) :
    Option Instant :=
  if Civil.IsDate year month day ∧ Civil.IsShown hour minute second nanos then
    let minutes : Int := hour * 60 + minute - offset
    let time := minutes.fmod 1440
    let (year, month, day) :=
      if minutes < 0 then Civil.previousDay year month day
      else if minutes < 1440 then (year, month, day)
      else Civil.nextDay year month day
    -- The sixty-first second of a minute is the leap second after the sixtieth.
    if second = 60 then
      ofFields? year month day (time.toNat / 60) (time.toNat % 60) 59 (nanos + 10 ^ (9 : Nat))
    else ofFields? year month day (time.toNat / 60) (time.toNat % 60) second nanos
  else none

/-! ## Writing -/

def shownSecond (t : Instant) : Nat := t.second + t.nanos / 10 ^ (9 : Nat)

def shownNanos (t : Instant) : Nat := t.nanos % 10 ^ (9 : Nat)

def yearText (year : Int) : List Char :=
  if 0 ≤ year ∧ year ≤ 9999 then Numeral.padded 4 year.toNat
  else
    let ds := Numeral.digits year.natAbs
    (if year < 0 then '-' else '+') :: List.replicate (4 - ds.length) '0' ++ ds

/-- No fraction, or as many thousands as it takes. -/
def fractionText (nanos : Nat) : List Char :=
  if nanos = 0 then []
  else if nanos % 10 ^ (6 : Nat) = 0 then '.' :: Numeral.padded 3 (nanos / 10 ^ (6 : Nat))
  else if nanos % 10 ^ (3 : Nat) = 0 then '.' :: Numeral.padded 6 (nanos / 10 ^ (3 : Nat))
  else '.' :: Numeral.padded 9 nanos

def chars (t : Instant) (offset : List Char) : List Char :=
  yearText t.year ++ '-' :: Numeral.padded 2 t.month ++ '-' :: Numeral.padded 2 t.day ++
    'T' :: Numeral.padded 2 t.hour ++ ':' :: Numeral.padded 2 t.minute ++
    ':' :: Numeral.padded 2 t.shownSecond ++ fractionText t.shownNanos ++ offset

/-- The form that travels in parameters. -/
def text (t : Instant) : String := String.ofList (t.chars "+00:00".toList)

/-- The form kept in documents. -/
def documentText (t : Instant) : String := String.ofList (t.chars ['Z'])

/-! ## Reading -/

/-- A number of `least` to `most` digits, and what follows. -/
def number? (least most : Nat) (cs : List Char) : Option (Nat × List Char) :=
  let ds := (cs.take most).takeWhile Numeral.isDigit
  if least ≤ ds.length then (Numeral.ofDigits? ds).map fun n => (n, cs.drop ds.length) else none

def expect? (c : Char) : List Char → Option (List Char)
  | d :: cs => if c = d then some cs else none
  | [] => none

/-- Digits after a point, cut off after nine. -/
def fraction? : List Char → Option (Nat × List Char)
  | '.' :: cs =>
    (number? 1 9 cs).map fun (n, rest) =>
      (n * 10 ^ (9 - (cs.length - rest.length)), rest.dropWhile Numeral.isDigit)
  | cs => some (0, cs)

def separator? : List Char → Option (List Char)
  | c :: cs => if c = 't' ∨ c = 'T' ∨ c = ' ' then some cs else none
  | [] => none

/-- `Z`, or a sign, two digits of hours, what `between` skips and two digits of minutes. -/
def offset? (between : List Char → Option (List Char)) : List Char → Option (Int × List Char)
  | [] => none
  | c :: cs =>
    if c = 'Z' ∨ c = 'z' then some (0, cs)
    else if c = '+' ∨ c = '-' ∨ c = '\u2212' then do
      let (hours, cs) ← number? 2 2 cs
      let cs ← between cs
      let (minutes, cs) ← number? 2 2 cs
      if minutes < 60 ∧ hours < 24 then
        let total : Int := hours * 60 + minutes
        some (if c = '+' then total else -total, cs)
      else none
    else none

def ofText? (s : String) : Option Instant := do
  let (year, cs) ← number? 4 4 s.toList
  let (month, cs) ← number? 2 2 (← expect? '-' cs)
  let (day, cs) ← number? 2 2 (← expect? '-' cs)
  let (hour, cs) ← number? 2 2 (← separator? cs)
  let (minute, cs) ← number? 2 2 (← expect? ':' cs)
  let (second, cs) ← number? 2 2 (← expect? ':' cs)
  let (nanos, cs) ← fraction? cs
  let (offset, cs) ← offset? (expect? ':') cs
  if cs.isEmpty then ofLocal? year month day hour minute second nanos offset else none

/-- A year of at most four digits, or a signed one of any length. -/
def looseYear? (cs : List Char) : Option (Int × List Char) :=
  match cs with
  | '-' :: cs => (number? 1 cs.length cs).map fun (n, rest) => (-(n : Int), rest)
  | '+' :: cs => (number? 1 cs.length cs).map fun (n, rest) => ((n : Int), rest)
  | cs => (number? 1 4 cs).map fun (n, rest) => ((n : Int), rest)

def looseNumber? (cs : List Char) : Option (Nat × List Char) :=
  number? 1 2 (Text.dropBlanks cs)

def looseExpect? (c : Char) (cs : List Char) : Option (List Char) :=
  expect? c (Text.dropBlanks cs)

def looseOffset? (cs : List Char) : Option (Int × List Char) :=
  if (cs.take 3).map Char.toLower = "utc".toList then some (0, cs.drop 3)
  else offset? (fun cs => some (cs.dropWhile fun c => c == ':' || Text.isBlankChar c)) cs

def ofLooseText? (s : String) : Option Instant := do
  let (year, cs) ← looseYear? (Text.dropBlanks s.toList)
  let (month, cs) ← looseNumber? (← looseExpect? '-' cs)
  let (day, cs) ← looseNumber? (← looseExpect? '-' cs)
  let (hour, cs) ← looseNumber? (← separator? cs)
  let (minute, cs) ← looseNumber? (← looseExpect? ':' cs)
  let (second, cs) ← looseNumber? (← looseExpect? ':' cs)
  let (nanos, cs) ← fraction? cs
  let (offset, cs) ← looseOffset? (Text.dropBlanks cs)
  if (Text.dropBlanks cs).isEmpty then ofLocal? year month day hour minute second nanos offset
  else none

end Instant

end BackOffice
