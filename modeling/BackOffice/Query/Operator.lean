/-!
# The vocabulary of searches

Operators of clauses, the two ways in which clauses join, and the two directions of sorting, each
with the token by which it is known in parameters and documents.
-/
namespace BackOffice.Query

inductive Operator where
  | equals
  | differs
  | oneOf
  | noneOf
  | between
  | less
  | atMost
  | greater
  | atLeast
  | like
deriving DecidableEq

namespace Operator

def all : List Operator :=
  [equals, differs, oneOf, noneOf, between, less, atMost, greater, atLeast, like]

def token : Operator → String
  | equals => "eq"
  | differs => "ne"
  | oneOf => "in"
  | noneOf => "ni"
  | between => "btw"
  | less => "lt"
  | atMost => "lte"
  | greater => "gt"
  | atLeast => "gte"
  | like => "like"

def ofToken? (s : String) : Option Operator := all.find? (·.token == s)

/-- How many values an operator takes: two bounds, or at least one value. -/
def takes (op : Operator) (count : Nat) : Bool :=
  match op with
  | between => count == 2
  | _ => 1 ≤ count

def arityText : Operator → String
  | between => "exactly 2"
  | _ => "at least 1"

end Operator

inductive Join where
  | all
  | any
deriving DecidableEq

namespace Join

def token : Join → String
  | all => "AND"
  | any => "OR"

def ofToken? (s : String) : Option Join := [all, any].find? (·.token == s)

end Join

inductive Direction where
  | ascending
  | descending
deriving DecidableEq

namespace Direction

def token : Direction → String
  | ascending => "asc"
  | descending => "desc"

def ofToken? (s : String) : Option Direction := [ascending, descending].find? (·.token == s)

/-- An order as it is seen in this direction. -/
def apply (d : Direction) (o : Ordering) : Ordering :=
  match d with
  | ascending => o
  | descending => o.swap

end Direction

end BackOffice.Query
