import BackOffice.Pattern.CharSet
import BackOffice.Proofs.Text.Case

/-!
# Sets closed under case

The characters that are listed as equal to one up to case are exactly those with its folded form. So
the closure of a single character holds what is equal to it up to case and nothing else.
-/
namespace BackOffice.Pattern

open BackOffice.Text

variable {c d : Char}

theorem sameUpToCase_iff : sameUpToCase c d = true ↔ foldChar c = foldChar d := beq_iff_eq

theorem mem_caseVariants_iff : c ∈ caseVariants d ↔ sameUpToCase c d = true := by
  rw [sameUpToCase_iff]
  simp only [caseVariants, List.mem_cons, List.mem_flatMap]
  constructor
  · rintro (rfl | rfl | ⟨s, member, row⟩)
    · rfl
    · exact foldChar_foldChar d
    · split at row
      · next above =>
        split at row
        · next has =>
          rw [List.mem_singleton] at row
          rw [row, foldChar_eq_apply]
          exact tidy_foldTable.apply_eq_of_preimage member above has
        · cases row
      · cases row
  · intro same
    cases around : foldTable.find? (·.span.has c.toNat) with
    | none =>
      rw [foldChar_eq_apply c, Shift.apply_of_find?_none around] at same
      exact .inr (.inl same)
    | some s =>
      have member := List.mem_of_find?_eq_some around
      have has : s.span.has c.toNat = true := (List.find?_eq_some_iff_append.mp around).1
      have image : (foldChar d).toNat = s.image + (c.toNat - s.span.first) := by
        rw [← same, foldChar_eq_apply, tidy_foldTable.toNat_apply member has]
      have back : s.span.first + ((foldChar d).toNat - s.image) = c.toNat := by
        have := (Span.has_iff.mp has).1
        omega
      refine .inr (.inr ⟨s, member, ?_⟩)
      rw [if_pos (by omega), back, if_pos has, Char.ofNat_toNat, List.mem_singleton]

namespace CharSet

theorem has_single : (single c).has d = true ↔ d = c := by
  rw [single, has, Span.anyHas, List.any_cons, List.any_nil, Bool.or_false, Span.has_iff,
    ← Char.toNat_inj]
  simp only [Nat.mod_one, and_true]
  omega

theorem has_upToCase_single : (upToCase (single c)).has d = true ↔ sameUpToCase c d = true := by
  rw [has, List.any_eq_true]
  simp only [has_single]
  constructor
  · rintro ⟨_, member, rfl⟩
    exact mem_caseVariants_iff.mp member
  · intro same
    exact ⟨c, mem_caseVariants_iff.mpr same, rfl⟩

theorem has_any (c : Char) : any.has c = true := by
  have valid : c.toNat < 0x110000 := by
    have := c.valid
    simp only [UInt32.isValidChar, Nat.isValidChar] at this
    change c.val.toNat < 0x110000
    omega
  rw [any, has, Span.anyHas, Property.everything, List.any_cons, Bool.or_eq_true, Span.has_iff]
  simp only [Nat.mod_one, and_true]
  omega

end CharSet

end BackOffice.Pattern
