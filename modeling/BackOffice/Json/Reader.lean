import BackOffice.Json

/-!
# Reading JSON

A recursive reader over characters. It nests at most 127 deep. Where a text breaks off or goes
wrong, the reader hands over what it had read up to there, because a consumer that looks at the
values as they come may have found a fault of its own before.

A number with a point or an exponent is scaled in double precision: its digits are taken as a
64-bit word as long as they fit, later ones only shift the point, and the word is then multiplied or
divided by a power of ten. The result may differ in the last place from the nearest number.
-/
namespace BackOffice.Json

attribute [local instance (high)] instPowNat

/-- How reading went on: a value and the rest, or a fault with what came before it, if anything. -/
inductive Reading where
  | done (value : Json) (rest : List Char)
  | broken (before : Option Json)

def skipSpace (cs : List Char) : List Char :=
  cs.dropWhile fun c => c == ' ' || c == '\n' || c == '\t' || c == '\r'

/-! ## Strings -/

def unit? : List Char → Option (Nat × List Char)
  | a :: b :: c :: d :: rest => (Numeral.ofHex? [a, b, c, d]).map fun n => (n, rest)
  | _ => none

/-- The character of a `\u` escape, whose two halves stand in a row beyond the first plane. -/
def escapedUnit? (cs : List Char) : Option (Char × List Char) := do
  let (high, rest) ← unit? cs
  if high < 0xD800 ∨ 0xDFFF < high then some (Char.ofNat high, rest)
  else if 0xDBFF < high then none
  else
    match rest with
    | '\\' :: 'u' :: rest =>
      let (low, rest) ← unit? rest
      if 0xDC00 ≤ low ∧ low ≤ 0xDFFF then
        some (Char.ofNat (0x10000 + (high - 0xD800) * 0x400 + (low - 0xDC00)), rest)
      else none
    | _ => none

def simpleEscape? (c : Char) : Option Char :=
  match c with
  | '"' => some '"'
  | '\\' => some '\\'
  | '/' => some '/'
  | 'b' => some '\x08'
  | 'f' => some '\x0c'
  | 'n' => some '\n'
  | 'r' => some '\r'
  | 't' => some '\t'
  | _ => none

/-- The characters of a string after its opening quote, collected in reverse. -/
def readString : Nat → List Char → List Char → Option (String × List Char)
  | 0, _, _ => none
  | _ + 1, _, [] => none
  | fuel + 1, acc, c :: cs =>
    if c = '"' then some (String.ofList acc.reverse, cs)
    else if c = '\\' then
      match cs with
      | 'u' :: rest =>
        match escapedUnit? rest with
        | some (d, rest) => readString fuel (d :: acc) rest
        | none => none
      | e :: rest =>
        match simpleEscape? e with
        | some d => readString fuel (d :: acc) rest
        | none => none
      | [] => none
    else if c.toNat < 0x20 then none
    else readString fuel (c :: acc) cs

/-! ## Numbers -/

/-- A word that grows by digits as long as it stays below `2 ^ 64`, and the number of the digits
that went in. -/
def growWord : Nat → Nat → List Char → Nat × Nat × List Char
  | word, count, [] => (word, count, [])
  | word, count, c :: cs =>
    match Numeral.digit? c with
    | some d => if word * 10 + d < 2 ^ (64 : Nat) then growWord (word * 10 + d) (count + 1) cs
      else (word, count, c :: cs)
    | none => (word, count, c :: cs)

def pow10 (n : Nat) : Binary64 := Binary64.ofNat (10 ^ n)

/-- Division by a power of ten, in steps of at most 308. -/
def shiftDown : Nat → Binary64 → Nat → Binary64
  | 0, x, _ => x
  | fuel + 1, x, n =>
    if n ≤ 308 then x.div (pow10 n)
    else if x.magnitude = 0 then x
    else shiftDown fuel (x.div (pow10 308)) (n - 308)

/-- The word times a power of ten; none if that is too large. -/
def scaleWord? (word : Nat) (exponent : Int) : Option Binary64 :=
  let x := Binary64.ofNat word
  if exponent < 0 then some (shiftDown 8 x (min exponent.natAbs 2000))
  else if 308 < exponent then if word = 0 then some x else none
  else
    let y := x.mul (pow10 exponent.toNat)
    if y.isFinite then some y else none

def withSign (negative : Bool) (x : Binary64) : Binary64 := if negative then x.neg else x

/-- The exponent after `e`, as a signed number, and what follows. -/
def exponent? (cs : List Char) : Option (Int × List Char) :=
  let (negative, cs) :=
    match cs with
    | '+' :: cs => (false, cs)
    | '-' :: cs => (true, cs)
    | cs => (false, cs)
  let (ds, rest) := cs.span Numeral.isDigit
  (Numeral.ofDigits? ds).map fun n => (if negative then -(n : Int) else n, rest)

/-- What may follow the digits of a word: an exponent. -/
def closeFloat? (negative : Bool) (word : Nat) (power : Int) (cs : List Char) :
    Option (Json × List Char) :=
  match cs with
  | c :: rest =>
    if c = 'e' ∨ c = 'E' then do
      let (n, rest) ← exponent? rest
      let x ← scaleWord? word (power + n)
      some (float (withSign negative x), rest)
    else (scaleWord? word power).map fun x => (float (withSign negative x), cs)
  | [] => (scaleWord? word power).map fun x => (float (withSign negative x), cs)

/-- What may follow the whole part: a point with digits, an exponent, or nothing. -/
def closeNumber? (negative : Bool) (word : Nat) (power : Nat) (cs : List Char) :
    Option (Json × List Char) :=
  match cs with
  | '.' :: rest =>
    let (word, count, rest) := growWord word 0 rest
    let (surplus, rest) := rest.span Numeral.isDigit
    if count = 0 ∧ surplus.isEmpty then none
    else closeFloat? negative word ((power : Int) - count) rest
  | _ => closeFloat? negative word power cs

/-- Whether a whole part is all there is. -/
def endsWhole : List Char → Bool
  | c :: _ => c != '.' && c != 'e' && c != 'E'
  | [] => true

def wholeNumber (negative : Bool) (word : Nat) : Json :=
  if !negative then int word
  else if word = 0 ∨ 2 ^ (63 : Nat) < word then float (Binary64.ofNat word).neg
  else int (-(word : Int))

def readNumber? (negative : Bool) (cs : List Char) : Option (Json × List Char) :=
  match cs with
  | '0' :: d :: rest =>
    if Numeral.isDigit d then none
    else if endsWhole (d :: rest) then some (wholeNumber negative 0, d :: rest)
    else closeNumber? negative 0 0 (d :: rest)
  | _ =>
    let (word, count, rest) := growWord 0 0 cs
    let (surplus, rest) := rest.span Numeral.isDigit
    if count = 0 then none
    else if surplus.isEmpty && endsWhole rest then some (wholeNumber negative word, rest)
    else closeNumber? negative word surplus.length rest

/-! ## Values -/

def literal (cs : List Char) (word : String) (value : Json) : Reading :=
  if cs.take word.length = word.toList then .done value (cs.drop word.length) else .broken none

def ofScalar (scalar : Option (Json × List Char)) : Reading :=
  match scalar with
  | some (value, rest) => .done value rest
  | none => .broken none

mutual

/-- A value and what follows it, at most `depth` deep. -/
def readValue : Nat → Nat → List Char → Reading
  | 0, _, _ => .broken none
  | fuel + 1, depth, cs =>
    match skipSpace cs with
    | [] => .broken none
    | c :: rest =>
      if c = '"' then
        ofScalar ((readString (rest.length + 1) [] rest).map fun (s, rest) => (str s, rest))
      else if c = '-' then ofScalar (readNumber? true rest)
      else if Numeral.isDigit c then ofScalar (readNumber? false (c :: rest))
      else if c = 't' then literal (c :: rest) "true" (bool true)
      else if c = 'f' then literal (c :: rest) "false" (bool false)
      else if c = 'n' then literal (c :: rest) "null" null
      else if c = '[' then
        match depth with
        | 0 => .broken none
        | depth + 1 =>
          match skipSpace rest with
          | ']' :: rest => .done (arr []) rest
          | rest => readItems fuel depth [] rest
      else if c = '\x7b' then
        match depth with
        | 0 => .broken none
        | depth + 1 =>
          match skipSpace rest with
          | '\x7d' :: rest => .done (obj []) rest
          | rest => readFields fuel depth [] rest
      else .broken none

/-- The items of an array, collected in reverse. A broken item that is an object is dropped. -/
def readItems : Nat → Nat → List Json → List Char → Reading
  | 0, _, acc, _ => .broken (some (arr acc.reverse))
  | fuel + 1, depth, acc, cs =>
    match readValue fuel depth cs with
    | .broken (some (obj _)) | .broken none => .broken (some (arr acc.reverse))
    | .broken (some item) => .broken (some (arr (item :: acc).reverse))
    | .done item rest =>
      match skipSpace rest with
      | ',' :: rest => readItems fuel depth (item :: acc) rest
      | ']' :: rest => .done (arr (item :: acc).reverse) rest
      | _ => .broken (some (arr (item :: acc).reverse))

/-- The fields of an object, collected in reverse. -/
def readFields : Nat → Nat → List (String × Json) → List Char → Reading
  | 0, _, acc, _ => .broken (some (obj acc.reverse))
  | fuel + 1, depth, acc, cs =>
    match skipSpace cs with
    | '"' :: rest =>
      match readString (rest.length + 1) [] rest with
      | none => .broken (some (obj acc.reverse))
      | some (key, rest) =>
        match skipSpace rest with
        | ':' :: rest =>
          match readValue fuel depth rest with
          | .broken none => .broken (some (obj acc.reverse))
          | .broken (some value) => .broken (some (obj ((key, value) :: acc).reverse))
          | .done value rest =>
            match skipSpace rest with
            | ',' :: rest => readFields fuel depth ((key, value) :: acc) rest
            | '\x7d' :: rest => .done (obj ((key, value) :: acc).reverse) rest
            | _ => .broken (some (obj ((key, value) :: acc).reverse))
        | _ => .broken (some (obj acc.reverse))
    | _ => .broken (some (obj acc.reverse))

end

/-- Reads one value and what follows it. -/
def readOne (s : String) : Reading := readValue (2 * s.length + 2) 127 s.toList

/-- Reads a text that is one value and nothing else. -/
def ofText? (s : String) : Option Json :=
  match readOne s with
  | .done value rest => if (skipSpace rest).isEmpty then some value else none
  | .broken _ => none

end BackOffice.Json
