import BackOffice.Field.Value

/-!
# The order of values

Values of one kind compare as their kind does, and whole numbers with numbers in double precision
once they are converted. Values of other kinds compare by a fixed rank of the kinds, in which
nothing comes first.
-/
namespace BackOffice.Field.Value

def rank : Value → Nat
  | null => 0
  | bool _ => 1
  | int _ | float _ => 2
  | instant _ => 3
  | uuid _ => 4
  | text _ => 5

/-- A whole number in double precision. -/
def asFloat (n : Int64) : Binary64 := Binary64.ofInt n.toInt

def compare : Value → Value → Ordering
  | text a, text b => Ord.compare a b
  | int a, int b => Ord.compare a.toInt b.toInt
  | float a, float b => a.totalCompare b
  | int a, float b => (asFloat a).totalCompare b
  | float a, int b => a.totalCompare (asFloat b)
  | bool a, bool b => Ord.compare a b
  | uuid a, uuid b => a.compare b
  | instant a, instant b => a.compare b
  | a, b => Ord.compare a.rank b.rank

/-- Not after, in the order of values. -/
def notAfter (a b : Value) : Bool := compare a b != .gt

end BackOffice.Field.Value
