import BackOffice.Internet.DomainName

/-!
# Network addresses as text

The dotted form of four bytes, the form of eight groups of hexadecimal digits where one run of zero
groups may be left out, and the looser numbers that the host of a web address may consist of.
-/
namespace BackOffice.Internet.Address

attribute [local instance (high)] instPowNat

/-- A byte in decimal, without leading zeros. -/
def isByte (cs : List Char) : Bool :=
  match Numeral.ofDigits? cs with
  | some n => cs.length ≤ 3 && n < 256 && (cs.length == 1 || cs.head? != some '0')
  | none => false

def isDotted (cs : List Char) : Bool :=
  let parts := DomainName.labels cs
  parts.length == 4 && parts.all isByte

/-- The groups between colons. -/
def groups (cs : List Char) : List (List Char) :=
  cs.foldr
    (fun c rows =>
      match rows with
      | row :: rest => if c = ':' then [] :: row :: rest else (c :: row) :: rest
      | [] => [[c]])
    [[]]

def isGroup (cs : List Char) : Bool :=
  !cs.isEmpty && cs.length ≤ 4 && cs.all Numeral.isHexDigit

/-- How many groups a row of groups stands for; its last may be a dotted address if it ends the
whole, and counts for two. -/
def rowSize? (endsWhole : Bool) : List (List Char) → Option Nat
  | [] => some 0
  | [last] =>
    if isGroup last then some 1 else if endsWhole && isDotted last then some 2 else none
  | g :: rest => if isGroup g then (rowSize? endsWhole rest).map (· + 1) else none

/-- Parts a row of groups at its first gap, which is an empty group. -/
def splitGap (rows : List (List Char)) : List (List Char) × List (List Char) :=
  (rows.takeWhile (!·.isEmpty), (rows.dropWhile (!·.isEmpty)).drop 1)

/-- Eight groups, or fewer around `::`. -/
def isGrouped (cs : List Char) : Bool :=
  match cs with
  | ':' :: ':' :: rest => afterGap 0 rest
  | ':' :: _ => false
  | _ =>
    let (front, back) := splitGap (groups cs)
    if (groups cs).all (!·.isEmpty) then rowSize? true front == some 8
    else
      match rowSize? false front with
      | some n => afterGap n (ofGroups back)
      | none => false
where
  ofGroups (rows : List (List Char)) : List Char := [':'].intercalate rows
  /-- What may stand after a gap that has `n` groups before it. -/
  afterGap (n : Nat) (rest : List Char) : Bool :=
    if rest.isEmpty then n < 8
    else
      match rowSize? true (groups rest) with
      | some m => n + m < 8
      | none => false

def isAddress (cs : List Char) : Bool := isDotted cs || isGrouped cs

/-! ## Numbers in hosts -/

/-- A number in octal after a zero, in hexadecimal after `0x`, else in decimal. -/
def looseNumber? (cs : List Char) : Option Nat :=
  match cs with
  | [] => none
  | ['0'] => some 0
  | '0' :: x :: rest =>
    if x = 'x' ∨ x = 'X' then if rest.isEmpty then some 0 else Numeral.ofHex? rest
    else Numeral.continued? 8
      (fun c => (Numeral.digit? c).bind fun d => if d < 8 then some d else none) 0 (x :: rest)
  | cs => Numeral.ofDigits? cs

/-- The labels of a host, without the empty one after a closing dot. -/
def hostLabels (cs : List Char) : List (List Char) :=
  let rows := DomainName.labels cs
  if rows.getLast? = some [] ∧ 1 < rows.length then rows.dropLast else rows

/-- A host whose last label is a number can only be an address. -/
def endsInNumber (cs : List Char) : Bool :=
  match (hostLabels cs).getLast? with
  | some last =>
    (!last.isEmpty && last.all Numeral.isDigit) ||
      ((last.take 2 == ['0', 'x'] || last.take 2 == ['0', 'X']) && (looseNumber? last).isSome)
  | none => false

/-- At most four numbers, all but the last of them bytes and the last one filling what is left. -/
def isLooseDotted (cs : List Char) : Bool :=
  let rows := hostLabels cs
  match rows.mapM looseNumber? with
  | some ns =>
    rows.length ≤ 4 && ns.dropLast.all (· < 256) &&
      match ns.getLast? with
      | some n => n < 256 ^ (5 - ns.length)
      | none => false
  | none => false

end BackOffice.Internet.Address
