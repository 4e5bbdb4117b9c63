import BackOffice.Association.Link
import BackOffice.Record.Schema

/-!
# Records

A record has an identifier once it has been saved, a status, values by field, and for each
association the links it owns. Targets of links are whole records themselves.
-/
namespace BackOffice

open BackOffice.Field BackOffice.Association

structure Record where
  id : Option Uuid
  status : String
  values : List (String × Value)
  links : List (String × List (Link Record))

namespace Record

instance : Inhabited Record := ⟨⟨none, "", [], []⟩⟩

def activeStatus : String := "active"

def disabledStatus : String := "disabled"

/-- A record of which nothing was given. -/
def blank (s : Schema) : Record :=
  ⟨none, "", s.fields.map fun (name, kind) => (name, kind.initial), s.links.map fun (name, _) =>
    (name, [])⟩

/-- The key of a record among others; those that were never saved share one. -/
def key (r : Record) : Uuid := r.id.getD .nil

def isSaved (r : Record) : Bool := r.id.isSome

/-- The value of a field, of the identifier or of the status; associations are not fields. -/
def field? (r : Record) (name : String) : Option Value :=
  if name = "id" then some (Value.ofOption .uuid r.id)
  else if name = "status" then some (.text r.status)
  else r.values.lookup name

def linksOf (r : Record) (name : String) : List (Link Record) := (r.links.lookup name).getD []

def withLinks (r : Record) (name : String) (links : List (Link Record)) : Record :=
  { r with links := r.links.map fun (n, old) => (n, if n = name then links else old) }

def withStatus (r : Record) (status : String) : Record := { r with status }

def withId (r : Record) (id : Uuid) : Record := { r with id := some id }

/-- Settles the links of a submitted record against those of the stored one. -/
def settle (r : Record) (previous : Option Record) : Record :=
  let before (name : String) : List (Link Record) :=
    match previous with
    | some p => p.linksOf name
    | none => []
  { r with
    links := r.links.map fun (name, links) =>
      (name, Association.settle Record.key (before name) links) }

/-- A copy that is to be created with the same associations. -/
def forCopy (r : Record) : Record :=
  { r with
    id := none
    links := r.links.map fun (name, links) => (name, Association.forCopy links) }

mutual

/-- A record has the fields and associations of its schema, in their order and of their kinds, and
so have the targets of its links. -/
inductive Fits : Schema → Record → Prop
  | mk {s : Schema} {r : Record}
      (values : r.values.map (·.1) = s.fields.map (·.1) ∧
        ∀ p ∈ r.values.zip s.fields, p.2.2.admits p.1.2 = true)
      (links : LinksFit s.links r.links) : Fits s r

inductive LinksFit : List (String × Schema) → List (String × List (Link Record)) → Prop
  | nil : LinksFit [] []
  | cons {name : String} {target : Schema} {links : List (Link Record)}
      {ss : List (String × Schema)} {rs : List (String × List (Link Record))}
      (targets : ∀ l ∈ links, Fits target l.target) (others : LinksFit ss rs) :
      LinksFit ((name, target) :: ss) ((name, links) :: rs)

end

end Record

end BackOffice
