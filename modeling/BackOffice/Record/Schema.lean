import BackOffice.Field.Value

/-!
# Schemas of records

The names under which a kind of record is known, the fields it has beside its identifier and its
status, and the associations it owns, each with the schema of its targets.
-/
namespace BackOffice

inductive FieldKind where
  | text
  | optionalText
  | optionalUuid
  | integer
  | decimal
  | flag
  | optionalInstant
deriving DecidableEq

structure Schema where
  singular : String
  plural : String
  fields : List (String × FieldKind)
  links : List (String × Schema)

namespace FieldKind

open BackOffice.Field

/-- The value of a field that was never given one. -/
def initial : FieldKind → Value
  | text => .text ""
  | optionalText | optionalUuid | optionalInstant => .null
  | integer => .int 0
  | decimal => .float .zero
  | flag => .bool false

/-- Whether a field of the kind can hold a value. -/
def admits (k : FieldKind) (v : Value) : Bool :=
  match k, v with
  | text, .text _ | optionalText, .text _ | optionalText, .null => true
  | optionalUuid, .uuid _ | optionalUuid, .null => true
  | integer, .int _ | decimal, .float _ | flag, .bool _ => true
  | optionalInstant, .instant _ | optionalInstant, .null => true
  | _, _ => false

def ofText? (make? : String → Option Value) (j : Json) : Option Value := j.str?.bind make?

/-- The value of a field in a document; only optional fields can be null. -/
def read? (k : FieldKind) (j : Json) : Option Value :=
  match k, j with
  | optionalText, .null | optionalUuid, .null | optionalInstant, .null => some .null
  | text, j | optionalText, j => j.str?.map .text
  | optionalUuid, j => (j.str?.bind Uuid.ofText?).map .uuid
  | integer, j => j.signedWord?.map .int
  | decimal, j => j.float?.map .float
  | flag, j => j.bool?.map .bool
  | optionalInstant, j => (j.str?.bind Instant.ofLooseText?).map .instant

end FieldKind

end BackOffice
