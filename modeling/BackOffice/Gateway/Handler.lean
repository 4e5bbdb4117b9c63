import BackOffice.Backend
import BackOffice.Query.Params
import BackOffice.Settings.Basic

/-!
# What is done for a client

The calls of a backend under settings: searches in pages of bounded size, single records, and
records that are stored only if the rules find nothing wrong with them.
-/
namespace BackOffice.Gateway

open BackOffice.Field (Recognizer)
open BackOffice.Pattern BackOffice.Query

/-- The criteria that parameters ask for, with the size of the page within its bounds. -/
def criteria (s : Settings) (params : Params) : Except Fault Criteria :=
  (Criteria.ofParams params s.defaultPageSize).map fun c =>
    { c with size := s.sizeFor c.size }

def search [Engine] (s : Settings) (b : Backend) (params : Params) : Except Problem (Page Record) :=
  match criteria s params with
  | .ok c => b.search c
  | .error fault => .error (.badQuery fault)

def fetch (b : Backend) (id : Uuid) : Except Problem Record := do
  match ← b.get id with
  | some record => .ok record
  | none => .error (b.repository.unknown id)

/-- The violations that keep a record from being saved. -/
def violations [Recognizer] (s : Settings) (schema : Schema) (record : Record) : List Violation :=
  (s.rulesOf schema.singular).check record.field?

/-- Stores a record that breaks no rule. -/
def save [Recognizer] (s : Settings) (b : Backend) (fresh : Uuid) (record : Record) :
    Backend × Except Problem Record :=
  match violations s b.repository.schema record with
  | [] => b.save fresh record
  | vs => (b, .error (.invalid vs))

end BackOffice.Gateway
