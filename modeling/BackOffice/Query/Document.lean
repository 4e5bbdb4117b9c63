import BackOffice.Query.Criteria
import BackOffice.Json.Members

/-!
# Criteria in JSON documents

Every member must be there. The number of values of a clause is not checked, so a document can hold
clauses that `Clause.make` would refuse.
-/
namespace BackOffice.Query

open BackOffice.Field

def Clause.toJson (c : Clause) : Json :=
  .obj [("name", .str c.name), ("operator", .str c.operator.token),
    ("values", .arr (c.values.map Value.toJson))]

def Clause.ofJson? (j : Json) : Option Clause :=
  match j.members? ["name", "operator", "values"] with
  | some [some name, some operator, some values] => do
    let operator ← operator.unitName?.bind Operator.ofToken?
    let values ← (← values.items?).mapM Value.ofJson?
    some ⟨← name.str?, operator, values⟩
  | _ => none

def Sorting.toJson (s : Sorting) : Json :=
  .obj [("name", .str s.name), ("direction", .str s.direction.token)]

def Sorting.ofJson? (j : Json) : Option Sorting :=
  match j.members? ["name", "direction"] with
  | some [some name, some direction] => do
    some ⟨← name.str?, ← direction.unitName?.bind Direction.ofToken?⟩
  | _ => none

namespace Criteria

def toJson (c : Criteria) : Json :=
  .obj [("where_clauses", .arr (c.clauses.map Clause.toJson)), ("join_op", .str c.join.token),
    ("sort_clauses", .arr (c.sorts.map Sorting.toJson)), ("page_index", .nat c.page.toNat),
    ("page_size", .nat c.size.toNat), ("compute_total", .bool c.counted)]

def ofJson? (j : Json) : Option Criteria :=
  let names := ["where_clauses", "join_op", "sort_clauses", "page_index", "page_size",
    "compute_total"]
  match j.members? names with
  | some [some clauses, some join, some sorts, some page, some size, some counted] => do
    let clauses ← (← clauses.items?).mapM Clause.ofJson?
    let join ← join.unitName?.bind Join.ofToken?
    let sorts ← (← sorts.items?).mapM Sorting.ofJson?
    some ⟨clauses, join, sorts, ← page.word?, ← size.word?, ← counted.bool?⟩
  | _ => none

end Criteria

end BackOffice.Query
