import BackOffice.Proofs.Field.Retyping
import BackOffice.Proofs.Query.Paging
import BackOffice.Proofs.Query.Plain
import BackOffice.Query.Clause
import BackOffice.Record.Bundled

/-!
# Likeness of what is not there

A clause on likeness takes every value as the text in which it travels, and a field without a value
travels as `null`. A pattern is tried on that text as on any other, so it may match, unless it has
wildcards and the engine refuses it; it never does if the record has no such field.
-/
namespace BackOffice.Query

open BackOffice.Field BackOffice.Pattern BackOffice.Text

/-- A pattern as it is sought: one without wildcards may stand anywhere. -/
def soughtAs (p : String) : List Char :=
  if p.toList.any isWildcard then p.toList else '%' :: (p.toList ++ ['%'])

/-- A pattern that needs the engine is one that it compiles. -/
def IsSought [Engine] (p : String) : Prop :=
  p.toList.any isWildcard = true → Engine.compiles (generalText p) = true

theorem isLike_null_iff [Engine] (p : String) :
    isLike p "null" = true ↔ IsSought p ∧ Fits (soughtAs p) "null".toList := by
  rw [soughtAs, IsSought]
  split
  · next wild => rw [isLike_of_wild wild, forall_prop_of_true wild]
  · next plain =>
    rw [forall_prop_of_false plain, and_iff_right trivial]
    rw [Bool.not_eq_true] at plain
    rw [fits_between plain]
    exact isLike_plain_of_ascii plain (by simp)

/-- On a field without a value a clause on likeness tells whether the pattern fits the text `null`;
on a field that the record lacks it is false. So it is if the pattern has wildcards and the engine
refuses it. -/
theorem Clause.like_accepts_absent [Engine] (r : Record) (name p : String) :
    (r.field? name = some .null →
      ((Clause.like name p).accepts (r.field? name) = true ↔
        IsSought p ∧ Fits (soughtAs p) "null".toList)) ∧
    (r.field? name = none → (Clause.like name p).accepts (r.field? name) = false) := by
  constructor
  · intro absent
    have asked : (Clause.like name p).accepts (some .null) = isLike p "null" := by
      change ([(Value.text p).retyped .null].any fun v => isLike v.wire "null") = _
      rw [List.any_cons, List.any_nil, Bool.or_false, Value.wire_retyped_null]
    rw [absent, asked, isLike_null_iff]
  · intro missing
    rw [missing]
    rfl

/-- A privilege without a description, sought by the ends of its text. -/
theorem Clause.like_accepts_absent_description :
    let r := Repository.privilegeNumbered 1 "active" none
    Record.Fits .privilege r ∧ r.field? "description" = some .null ∧
      (Clause.like "description" "N%_").accepts (r.field? "description") = true ∧
      (Clause.like "description" "%d").accepts (r.field? "description") = false ∧
      r.field? "remark" = none ∧ (Clause.like "remark" "N%_").accepts (r.field? "remark") = false := by
  intro r
  have absent : r.field? "description" = some .null := rfl
  have missing : r.field? "remark" = none := rfl
  have like : IsSought "N%_" ∧ Fits (soughtAs "N%_") "null".toList :=
    (isLike_null_iff _).mp (by decide +kernel)
  have unlike : ¬(IsSought "%d" ∧ Fits (soughtAs "%d") "null".toList) :=
    mt (isLike_null_iff _).mpr (by decide +kernel)
  have holds (p : String) := (Clause.like_accepts_absent r "description" p).1 absent
  exact ⟨Repository.fits_privilegeNumbered .., absent, (holds _).mpr like,
    Bool.eq_false_iff.mpr (mt (holds _).mp unlike), missing,
    (Clause.like_accepts_absent r "remark" _).2 missing⟩

/-- A letter of `null` is enough to match a description that is not there. -/
theorem Clause.like_accepts_letter_of_null :
    let r := Repository.privilegeNumbered 1 "active" none
    Record.Fits .privilege r ∧ Schema.privilege ∈ Schema.bundled ∧
      Schema.privilege.fields.lookup "description" = some .optionalText ∧
      r.field? "description" = some .null ∧ ("n".toList.any (· != '%')) = true ∧
      (Clause.like "description" "n").accepts (r.field? "description") = true := by
  intro r
  exact ⟨Repository.fits_privilegeNumbered .., by simp [Schema.bundled], rfl, rfl, rfl,
    by decide +kernel⟩

end BackOffice.Query
