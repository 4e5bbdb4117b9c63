import BackOffice.Problem
import BackOffice.Query.Page
import BackOffice.Record.Basic

/-!
# Repositories

The stored records of one schema, in the order in which they were first stored, and the four calls a
backend answers: search, get, save and delete. Saving settles the links of a record against those
stored under its identifier; a record without one is given the fresh identifier that comes with the
call.
-/
namespace BackOffice

open BackOffice.Pattern BackOffice.Query

structure Repository where
  schema : Schema
  records : OrderedMap Uuid Record

namespace Repository

def empty (s : Schema) : Repository := ⟨s, .empty⟩

def size (r : Repository) : Nat := r.records.size

def toList (r : Repository) : List Record := r.records.values

/-- Stores a record as it is, under its own identifier. -/
def insert (r : Repository) (record : Record) : Repository :=
  { r with records := r.records.insert record.key record }

/-- A repository of given records. Those without an identifier get the next one of a supply, of
which `used` are gone; the number of those gone afterwards comes along. -/
def ofRecords (s : Schema) (fresh : Nat → Uuid) (used : Nat) (records : List Record) :
    Repository × Nat :=
  records.foldl
    (fun (r, used) record =>
      if record.isSaved then (r.insert record, used)
      else (r.insert (record.withId (fresh used)), used + 1))
    (empty s, used)

def unknown (r : Repository) (id : Uuid) : Problem := .unknownRecord r.schema.singular id

def notAfter (sorts : List Sorting) (a b : Record) : Bool :=
  compareBy sorts a.field? b.field? != .gt

/-- The records that criteria accept, in the order they ask for; ties stay in the order of storage. -/
def matching [Engine] (r : Repository) (c : Criteria) : List Record :=
  (r.toList.filter fun record => c.accepts record.field?).mergeSort (notAfter c.sorts)

def search [Engine] (r : Repository) (c : Criteria) : Page Record := .slice (r.matching c) c

def get? (r : Repository) (id : Uuid) : Option Record := r.records.get? id

/-- Stores a record and answers it as it is stored. -/
def save (r : Repository) (fresh : Uuid) (record : Record) : Except Problem (Repository × Record) :=
  match record.id with
  | some id =>
    match r.get? id with
    | some previous =>
      let saved := record.settle (some previous)
      .ok (r.insert saved, saved)
    | none => .error (r.unknown id)
  | none =>
    let saved := (record.withId fresh).settle none
    .ok (r.insert saved, saved)

def delete (r : Repository) (id : Uuid) : Except Problem Repository :=
  if r.records.contains id then .ok { r with records := r.records.erase id }
  else .error (r.unknown id)

end Repository

end BackOffice
