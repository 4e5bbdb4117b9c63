import BackOffice.Repository

/-!
# Backends

A repository behind a connection that may be down. While it is, every call fails and nothing stored
changes.
-/
namespace BackOffice

open BackOffice.Pattern BackOffice.Query

structure Backend where
  repository : Repository
  reachable : Bool

namespace Backend

def ensure (b : Backend) (operation : String) : Except Problem Unit :=
  if b.reachable then .ok () else .error (.offline operation)

def search [Engine] (b : Backend) (c : Criteria) : Except Problem (Page Record) :=
  (b.ensure "search").map fun _ => b.repository.search c

def get (b : Backend) (id : Uuid) : Except Problem (Option Record) :=
  (b.ensure "get").map fun _ => b.repository.get? id

/-- Saves a record; the backend afterwards comes with the answer. -/
def save (b : Backend) (fresh : Uuid) (record : Record) : Backend × Except Problem Record :=
  match b.ensure "save" with
  | .error p => (b, .error p)
  | .ok _ =>
    match b.repository.save fresh record with
    | .error p => (b, .error p)
    | .ok (repository, saved) => ({ b with repository }, .ok saved)

def delete (b : Backend) (id : Uuid) : Backend × Except Problem Unit :=
  match b.ensure "delete" with
  | .error p => (b, .error p)
  | .ok _ =>
    match b.repository.delete id with
    | .error p => (b, .error p)
    | .ok repository => ({ b with repository }, .ok ())

end Backend

end BackOffice
