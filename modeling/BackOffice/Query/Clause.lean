import BackOffice.Field.Order
import BackOffice.Field.Retyping
import BackOffice.Query.Fault
import BackOffice.Query.Like

/-!
# Clauses

A clause compares one field of a record with the values it names. Before it does, values that came
as text are given the kind of the field. Of a record without the field only the operators that deny
something are true.
-/
namespace BackOffice.Query

open BackOffice.Field BackOffice.Pattern

structure Clause where
  name : String
  operator : Operator
  values : List Value
deriving DecidableEq

namespace Clause

/-- A clause with as many values as its operator takes. -/
def make (name : String) (operator : Operator) (values : List Value) : Except Fault Clause :=
  if operator.takes values.length then .ok ⟨name, operator, values⟩
  else .error (.arity operator values.length)

def equals (name : String) (value : Value) : Clause := ⟨name, .equals, [value]⟩

def like (name pattern : String) : Clause := ⟨name, .like, [.text pattern]⟩

/-- The clause has as many values as its operator takes. -/
def WellFormed (c : Clause) : Prop := c.operator.takes c.values.length = true

/-- How the field compares with the value at a place, if there is one. -/
def against (field : Value) (values : List Value) (i : Nat) : Option Ordering :=
  values[i]?.map field.compare

/-- Whether the clause is true of a field with a value, given values of the field's kind. -/
def holds [Engine] (op : Operator) (field : Value) (values : List Value) : Bool :=
  let isEqual (v : Value) : Bool := field.compare v == .eq
  match op with
  | .equals | .oneOf => values.any isEqual
  | .differs | .noneOf => !values.any isEqual
  | .between => (against field values 0).any (·.isGE) && (against field values 1).any (·.isLE)
  | .less => (against field values 0).any (· == .lt)
  | .atMost => (against field values 0).any (·.isLE)
  | .greater => (against field values 0).any (· == .gt)
  | .atLeast => (against field values 0).any (·.isGE)
  | .like => values.any fun v => isLike v.wire field.wire

/-- Whether the clause is true of a field, which the record may lack. -/
def accepts [Engine] (c : Clause) (field : Option Value) : Bool :=
  match field with
  | some v => holds c.operator v (c.values.map (·.retyped v))
  | none => c.operator == .differs || c.operator == .noneOf

end Clause

end BackOffice.Query
