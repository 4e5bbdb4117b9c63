import BackOffice.Proofs.Field.Order
import BackOffice.Record.Basic

/-!
# Fields of records of one schema

A record that fits a schema has exactly the fields that the schema names, beside its identifier and
its status, and each holds what its kind admits. So two records of one schema can always be compared
field by field.
-/
namespace BackOffice

open BackOffice.Field

/-- The kind of a field, the identifier and the status among them. -/
def Schema.kind? (s : Schema) (name : String) : Option FieldKind :=
  if name = "id" then some .optionalUuid
  else if name = "status" then some .text
  else s.fields.lookup name

namespace Record

theorem lookup_holds {values : List (String × Value)} {fields : List (String × FieldKind)}
    (names : values.map (·.1) = fields.map (·.1))
    (admitted : ∀ p ∈ values.zip fields, p.2.2.admits p.1.2 = true) (name : String) :
    (fields.lookup name = none ∧ values.lookup name = none) ∨
      ∃ k v, fields.lookup name = some k ∧ values.lookup name = some v ∧ FieldKind.Holds k v := by
  induction values generalizing fields with
  | nil =>
    rw [List.map_nil] at names
    rw [List.map_eq_nil_iff.mp names.symm]
    exact .inl ⟨rfl, rfl⟩
  | cons value rest ih =>
    cases fields with
    | nil => cases names
    | cons field fields =>
      obtain ⟨same, names⟩ := List.cons.inj names
      rw [List.zip_cons_cons, List.forall_mem_cons] at admitted
      replace same : value.1 = field.1 := same
      rw [List.lookup_cons, List.lookup_cons, same]
      cases name == field.1 with
      | true => exact .inr ⟨_, _, rfl, rfl, FieldKind.admits_iff.mp admitted.1⟩
      | false => exact ih names admitted.2

/-- A record of a schema has the fields of the schema, of their kinds, and no others. -/
theorem Fits.field? {s : Schema} {r : Record} (fits : Fits s r) (name : String) :
    (s.kind? name = none ∧ r.field? name = none) ∨
      ∃ k v, s.kind? name = some k ∧ r.field? name = some v ∧ FieldKind.Holds k v := by
  rw [Schema.kind?, Record.field?]
  split
  · cases r.id with
    | none => exact .inr ⟨_, _, rfl, rfl, .noUuid⟩
    | some u => exact .inr ⟨_, _, rfl, rfl, .someUuid u⟩
  · split
    · exact .inr ⟨_, _, rfl, rfl, .text r.status⟩
    · cases fits with
      | mk values _ => exact lookup_holds values.1 values.2 name

end Record

end BackOffice
