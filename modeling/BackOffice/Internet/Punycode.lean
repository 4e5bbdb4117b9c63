import BackOffice.Number.Numeral

/-!
# Punycode

The encoding of a label of any characters in ASCII letters, digits and hyphens: the ASCII characters
first, then one number of variable length for each of the others, in order of code point, saying how
far its place is from that of the one before.
-/
namespace BackOffice.Internet.Punycode

def digitChar (d : Nat) : Char :=
  if d < 26 then Char.ofNat ('a'.toNat + d) else Char.ofNat ('0'.toNat + (d - 26))

def digit? (c : Char) : Option Nat :=
  if 'a' ≤ c ∧ c ≤ 'z' then some (c.toNat - 'a'.toNat)
  else if 'A' ≤ c ∧ c ≤ 'Z' then some (c.toNat - 'A'.toNat)
  else if '0' ≤ c ∧ c ≤ '9' then some (c.toNat - '0'.toNat + 26)
  else none

/-- The weight below which a digit at the given place closes a number. -/
def threshold (bias place : Nat) : Nat :=
  if place ≤ bias + 1 then 1 else if bias + 26 ≤ place then 26 else place - bias

def reduce (delta k : Nat) : Nat :=
  if 455 < delta then reduce (delta / 35) (k + 36) else k + 36 * delta / (delta + 38)
termination_by delta

/-- The bias after a number was written or read. -/
def adapt (delta count : Nat) (isFirst : Bool) : Nat :=
  let delta := if isFirst then delta / 700 else delta / 2
  reduce (delta + delta / count) 0

/-- One number of variable length. -/
def encodeNumber (bias place n : Nat) : List Char :=
  let t := threshold bias place
  if n < t then [digitChar n]
  else digitChar (t + (n - t) % (36 - t)) :: encodeNumber bias (place + 36) ((n - t) / (36 - t))
termination_by n
decreasing_by
  have ht : 1 ≤ threshold bias place := by
    unfold threshold; split
    · omega
    · split <;> omega
  have : (n - threshold bias place) / (36 - threshold bias place) ≤ n - threshold bias place :=
    Nat.div_le_self _ _
  simp only [t] at *
  omega

structure Encoder where
  delta : Nat
  bias : Nat
  done : Nat
  basic : Nat
  output : List Char

/-- Passes over the label for the code point `n`, writing a number where it stands. -/
def encodePass (n : Nat) (e : Encoder) (label : List Nat) : Encoder :=
  label.foldl
    (fun e c =>
      if c < n then { e with delta := e.delta + 1 }
      else if c = n then
        { e with
          delta := 0
          bias := adapt e.delta (e.done + 1) (e.done == e.basic)
          done := e.done + 1
          output := e.output ++ encodeNumber e.bias 36 e.delta }
      else e)
    e

def encodeFrom : Encoder → Nat → List Nat → List Nat → Encoder
  | e, _, [], _ => e
  | e, n, m :: later, label =>
    let e := { e with delta := e.delta + (m - n) * (e.done + 1) }
    let e := encodePass m e label
    encodeFrom { e with delta := e.delta + 1 } (m + 1) later label

/-- The encoded label, without its lead `xn--`. -/
def encode (label : List Char) : List Char :=
  let points := label.map Char.toNat
  let basic := label.filter fun c => c.toNat < 128
  let others := (points.filter (128 ≤ ·)).eraseDups.mergeSort (· ≤ ·)
  let lead := if basic.isEmpty then [] else basic ++ ['-']
  let start : Encoder := ⟨0, 72, basic.length, basic.length, lead⟩
  (encodeFrom start 128 others points).output

/-- One number of variable length, what follows it, and the place it moves to. -/
def decodeNumber? (bias : Nat) : Nat → Nat → Nat → List Char → Option (Nat × List Char)
  | _, _, _, [] => none
  | place, weight, total, c :: cs =>
    match digit? c with
    | none => none
    | some d =>
      let total := total + d * weight
      let t := threshold bias place
      if d < t then some (total, cs) else decodeNumber? bias (place + 36) (weight * (36 - t)) total cs

def decodeFrom? : Nat → Nat → Nat → Nat → List Char → List Char → Option (List Char)
  | 0, _, _, _, _, _ => none
  | _ + 1, _, _, _, output, [] => some output
  | fuel + 1, n, i, bias, output, cs =>
    match decodeNumber? bias 36 1 i cs with
    | none => none
    | some (total, rest) =>
      let size := output.length + 1
      let n := n + total / size
      let place := total % size
      if n.isValidChar then
        decodeFrom? fuel n (place + 1) (adapt (total - i) size (i == 0))
          (output.take place ++ Char.ofNat n :: output.drop place) rest
      else none

/-- The label that a text without its lead `xn--` encodes. -/
def decode? (cs : List Char) : Option (List Char) :=
  let tail := (cs.reverse.takeWhile (· != '-')).reverse
  let lead := (cs.take (cs.length - tail.length)).dropLast
  if lead.all fun c => c.toNat < 128 then decodeFrom? (tail.length + 1) 128 0 72 lead tail else none

end BackOffice.Internet.Punycode
