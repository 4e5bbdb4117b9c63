import BackOffice.Proofs.Record.Document

/-!
# Records compared by their documents

Documents without numbers agree only if they are equal: there is nothing that could be rounded, and
members count in the order in which they stand. Since a record of a bundled schema can be read back
from its document, two such records have agreeing documents only if they are one record, links and
their tags included.
-/
namespace BackOffice

namespace Json

/-! ## Documents -/

theorem itemsAgree_iff {as bs : List Json}
    (each : ∀ a ∈ as, ∀ b, a.agrees b = true ↔ a = b) : itemsAgree as bs = true ↔ as = bs := by
  induction as generalizing bs with
  | nil => cases bs <;> simp [itemsAgree]
  | cons a as ih =>
    simp only [List.forall_mem_cons] at each
    cases bs with
    | nil => simp [itemsAgree]
    | cons b bs => simp [itemsAgree, each.1 b, ih each.2]

theorem fieldsAgree_iff {as bs : List (String × Json)}
    (each : ∀ m ∈ as, ∀ b, m.2.agrees b = true ↔ m.2 = b) :
    fieldsAgree as bs = true ↔ as = bs := by
  induction as generalizing bs with
  | nil => cases bs <;> simp [fieldsAgree]
  | cons m as ih =>
    simp only [List.forall_mem_cons] at each
    cases bs with
    | nil => simp [fieldsAgree]
    | cons l bs => simp [fieldsAgree, each.1 l.2, ih each.2, Prod.ext_iff]

theorem Within.agrees_iff {n : Nat} {a : Json} (h : Within n a) (b : Json) :
    a.agrees b = true ↔ a = b := by
  induction h generalizing b with
  | null | bool | str => cases b <;> simp [agrees]
  | arr _ ih =>
    cases b with
    | arr bs => simpa [agrees] using itemsAgree_iff ih
    | null | bool | int | float | str | obj => simp [agrees]
  | obj _ ih =>
    cases b with
    | obj bs => simpa [agrees] using fieldsAgree_iff ih
    | null | bool | int | float | str | arr => simp [agrees]

end Json

/-! ## Records -/

namespace Schema.Verbatim

open BackOffice.Record

variable {n : Nat} {s : Schema} {p r : Record}

/-- Records of one document are one record, as that is what a reader finds in it. -/
theorem eq_of_toJson_eq (h : Verbatim n s) (fitsP : Fits s p) (fitsR : Fits s r)
    (same : p.toJson = r.toJson) : p = r := by
  have reads {q : Record} (fits : Fits s q) : ofJson? s q.toJson = some q := by
    have bare : q.membersOf.Perm (q.membersOf ++ []) := by simp
    exact h.readsBack q q.membersOf q.membersOf [] fits (written_membersOf q) bare (by simp)
  have read : some p = some r := by rw [← reads fitsP, same, reads fitsR]
  exact Option.some.inj read

theorem agrees_toJson_iff (h : Verbatim n s) (fitsP : Fits s p) (fitsR : Fits s r) :
    p.toJson.agrees r.toJson = true ↔ p = r := by
  have within : Json.Within (2 * n + 1) p.toJson := .obj (h.within_membersOf fitsP)
  rw [within.agrees_iff]
  exact ⟨h.eq_of_toJson_eq fitsP fitsR, fun same => same ▸ rfl⟩

end Schema.Verbatim

end BackOffice
