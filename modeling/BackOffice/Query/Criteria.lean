import BackOffice.Query.Clause

/-!
# Criteria

What a search asks for: clauses and how they join, the order of the answer, and one page of it.
Pages are counted from zero.
-/
namespace BackOffice.Query

open BackOffice.Field BackOffice.Pattern

attribute [local instance (high)] instPowNat

structure Sorting where
  name : String
  direction : Direction
deriving DecidableEq

structure Criteria where
  clauses : List Clause
  join : Join
  sorts : List Sorting
  page : UInt64
  size : UInt64
  /-- Whether the number of all matches is asked for. -/
  counted : Bool
deriving DecidableEq

def standardSize : UInt64 := 20

/-- The largest number that a page index, a size or an offset can be. -/
def maxWord : Nat := 2 ^ (64 : Nat) - 1

namespace Criteria

def atLeastOne (n : UInt64) : UInt64 := if n = 0 then 1 else n

/-- The first page of everything, with a size of at least one. -/
def ofSize (size : UInt64) : Criteria := ⟨[], .all, [], 0, atLeastOne size, false⟩

def initial : Criteria := ofSize standardSize

def withClause (c : Criteria) (clause : Clause) : Criteria :=
  { c with clauses := c.clauses ++ [clause] }

def withJoin (c : Criteria) (join : Join) : Criteria := { c with join }

def withSort (c : Criteria) (sort : Sorting) : Criteria := { c with sorts := c.sorts ++ [sort] }

def withPage (c : Criteria) (page size : UInt64) : Criteria :=
  { c with page, size := atLeastOne size }

def withCount (c : Criteria) (counted : Bool) : Criteria := { c with counted }

/-- How many matches stand before the page, at most the largest word. -/
def offset (c : Criteria) : UInt64 :=
  UInt64.ofNat (min (c.page.toNat * c.size.toNat) maxWord)

/-- The direction in which a field is sorted, if it is. -/
def directionOf (c : Criteria) (field : String) : Option Direction :=
  (c.sorts.find? (·.name == field)).map (·.direction)

/-- Turns the first sort by a field around to descending. -/
def descend (field : String) : List Sorting → List Sorting
  | [] => []
  | s :: rest =>
    if s.name = field then { s with direction := .descending } :: rest
    else s :: descend field rest

/-- A click on a column: a field that is not sorted becomes ascending, any other descending. -/
def sortBy (c : Criteria) (field : String) : Criteria :=
  match c.directionOf field with
  | none => c.withSort ⟨field, .ascending⟩
  | some _ => { c with sorts := descend field c.sorts }

/-- Whether a record, given by its fields, is among the matches. -/
def accepts [Engine] (c : Criteria) (field : String → Option Value) : Bool :=
  let holds (clause : Clause) : Bool := clause.accepts (field clause.name)
  if c.clauses.isEmpty then true
  else
    match c.join with
    | .all => c.clauses.all holds
    | .any => c.clauses.any holds

end Criteria

/-- How two records compare by a row of sorts: the first that tells them apart decides. A field that
a record lacks counts as nothing. -/
def compareBy (sorts : List Sorting) (a b : String → Option Value) : Ordering :=
  match sorts with
  | [] => .eq
  | s :: rest =>
    let o := s.direction.apply (((a s.name).getD .null).compare ((b s.name).getD .null))
    o.then (compareBy rest a b)

end BackOffice.Query
