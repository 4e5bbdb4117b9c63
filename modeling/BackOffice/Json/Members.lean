import BackOffice.Json

/-!
# Records in JSON

How values of a fixed shape are laid out in a document: an object with a member for each name, or an
array of the members in order. Unknown members are ignored, a member may be missing at the end of an
array, and none may stand twice. A name out of a fixed list is a string, or an object with that name
as its only key and null as its value.
-/
namespace BackOffice.Json

attribute [local instance (high)] instPowNat

def memberCount (fields : List (String × Json)) (name : String) : Nat :=
  (fields.filter (·.1 == name)).length

/-- The members of the given names, in that order, each with its value if it is there. -/
def members? (names : List String) : Json → Option (List (Option Json))
  | obj fields =>
    if names.all fun name => memberCount fields name ≤ 1 then
      some (names.map fun name => (fields.find? (·.1 == name)).map (·.2))
    else none
  | arr items =>
    if items.length ≤ names.length then
      some ((items.map some) ++ List.replicate (names.length - items.length) none)
    else none
  | _ => none

def str? : Json → Option String
  | str s => some s
  | _ => none

def bool? : Json → Option Bool
  | bool b => some b
  | _ => none

/-- An unsigned 64-bit word. -/
def word? : Json → Option UInt64
  | int n => if 0 ≤ n ∧ n < 2 ^ (64 : Nat) then some (UInt64.ofNat n.toNat) else none
  | _ => none

/-- A signed 64-bit word. -/
def signedWord? : Json → Option Int64
  | int n => if -2 ^ (63 : Nat) ≤ n ∧ n < 2 ^ (63 : Nat) then some (Int64.ofInt n) else none
  | _ => none

/-- A number of either kind in double precision. -/
def float? : Json → Option Binary64
  | float x => some x
  | int n => some (Binary64.ofInt n)
  | _ => none

def items? : Json → Option (List Json)
  | arr items => some items
  | _ => none

/-- A member that may be missing and takes a default then. -/
def orDefault {α : Type} (read? : Json → Option α) (default : α) : Option Json → Option α
  | some j => read? j
  | none => some default

/-- A member that may be missing or null. -/
def optional? {α : Type} (read? : Json → Option α) : Option Json → Option (Option α)
  | none | some null => some none
  | some j => (read? j).map some

/-- One name out of several. -/
def unitName? : Json → Option String
  | str s => some s
  | obj [(s, null)] => some s
  | _ => none

end BackOffice.Json
