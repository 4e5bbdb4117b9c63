import BackOffice.Text.Case
import Mathlib.Data.List.Chain

/-!
# Case folding

A table of shifts is tidy if its spans stand in order and apart, hold characters only, and hold no
image of another. In a tidy table a character has the image that the one span around it tells, and
images are left as they are. The table of case folding is tidy, and that of lower case goes along with
it: whatever a character is lower-cased to is folded as the character itself.
-/
namespace BackOffice.Text

theorem Span.has_iff {s : Span} {n : Nat} :
    s.has n = true ↔ s.first ≤ n ∧ n ≤ s.last ∧ (n - s.first) % s.step = 0 := by
  simp only [Span.has, Bool.and_eq_true, decide_eq_true_eq, beq_iff_eq, and_assoc]

/-- The words of a text, told by its characters. -/
theorem Span.words_ofList (cs : List Char) : Span.words (String.ofList cs) =
    (cs.splitBy fun a b => (a == ' ' || a == '\n') == (b == ' ' || b == '\n')).filter
      fun word => !word.any fun c => c == ' ' || c == '\n' := by
  rw [Span.words, String.toList_ofList]

namespace Shift

def lastImage (s : Shift) : Nat := s.image + (s.span.last - s.span.first)

/-- Code points of which none is a surrogate. -/
def areScalar (first last : Nat) : Bool :=
  last.blt 0xD800 || (Nat.blt 0xDFFF first && last.blt 0x110000)

/-- No image of one shift is a member of the other. Where the members of both step by two it is enough
that they are even and odd. -/
def misses (s t : Shift) : Bool :=
  s.lastImage.blt t.span.first || t.span.last.blt s.image ||
    (t.span.step.beq 2 && (s.span.step.beq 2 || s.span.first.beq s.span.last) &&
      !(s.image % 2).beq (t.span.first % 2))

structure Tidy (table : List Shift) : Prop where
  sorted : table.Pairwise fun s t => s.span.last < t.span.first
  scalar : ∀ s ∈ table,
    areScalar s.span.first s.span.last = true ∧ areScalar s.image s.lastImage = true
  resting : ∀ s ∈ table, ∀ t ∈ table, s.misses t = true

variable {table : List Shift} {s t : Shift} {c d : Char} {n : Nat}

theorem toNat_ofNat_of_areScalar {first last : Nat} (scalar : areScalar first last = true)
    (above : first ≤ n) (below : n ≤ last) : (Char.ofNat n).toNat = n := by
  simp only [areScalar, Bool.or_eq_true, Bool.and_eq_true, Nat.blt_eq] at scalar
  have valid : n.isValidChar := by
    simp only [Nat.isValidChar]
    omega
  rw [Char.ofNat, dif_pos valid]
  rfl

theorem has_image (misses : s.misses t = true) (has : s.span.has n = true) :
    t.span.has (s.image + (n - s.span.first)) = false := by
  rw [Span.has_iff] at has
  rw [← Bool.not_eq_true, Span.has_iff]
  simp only [Shift.misses, lastImage, Bool.or_eq_true, Bool.and_eq_true, Nat.blt_eq, Nat.beq_eq,
    Bool.not_eq_true', ← Bool.not_eq_true] at misses
  rintro ⟨above, below, steps⟩
  rcases misses with (before | behind) | ⟨⟨two, even⟩, odd⟩
  · omega
  · omega
  · have level : (n - s.span.first) % 2 = 0 := by
      rcases even with step | single
      · rw [← step]
        exact has.2.2
      · omega
    rw [two] at steps
    omega

theorem apply_of_find?_none (none : table.find? (·.span.has c.toNat) = none) :
    apply table c = c := by
  rw [apply, none]

namespace Tidy

/-- Spans stand apart, so the first one around a character is the only one. -/
theorem find?_eq_some (tidy : Tidy table) (member : s ∈ table) (has : s.span.has c.toNat = true) :
    table.find? (·.span.has c.toNat) = some s := by
  obtain ⟨front, rest, rfl⟩ := List.append_of_mem member
  rw [List.find?_eq_some_iff_append]
  refine ⟨has, front, rest, rfl, fun t before => ?_⟩
  have apart := (List.pairwise_append.mp tidy.sorted).2.2 t before s (by simp)
  rw [Span.has_iff] at has
  rw [Bool.not_eq_true', ← Bool.not_eq_true, Span.has_iff]
  omega

theorem toNat_apply (tidy : Tidy table) (member : s ∈ table) (has : s.span.has c.toNat = true) :
    (apply table c).toNat = s.image + (c.toNat - s.span.first) := by
  rw [apply, tidy.find?_eq_some member has]
  rw [Span.has_iff] at has
  refine toNat_ofNat_of_areScalar (tidy.scalar s member).2 (Nat.le_add_right _ _) ?_
  rw [lastImage]
  omega

/-- Images are left as they are. -/
theorem apply_image (tidy : Tidy table) (c : Char) :
    apply table (apply table c) = apply table c := by
  cases around : table.find? (·.span.has c.toNat) with
  | none => rw [apply_of_find?_none around, apply_of_find?_none around]
  | some s =>
    have member : s ∈ table := List.mem_of_find?_eq_some around
    have has : s.span.has c.toNat = true := (List.find?_eq_some_iff_append.mp around).1
    refine apply_of_find?_none (List.find?_eq_none.mpr fun t other => ?_)
    rw [tidy.toNat_apply member has, Bool.not_eq_true]
    exact has_image (tidy.resting s member t other) has

/-- What a shift moves to a code point is found by moving that back. -/
theorem apply_eq_of_preimage (tidy : Tidy table) (member : s ∈ table)
    (from_image : s.image ≤ d.toNat)
    (has : s.span.has (s.span.first + (d.toNat - s.image)) = true) :
    apply table (Char.ofNat (s.span.first + (d.toNat - s.image))) = d := by
  have bounds := Span.has_iff.mp has
  have back : (Char.ofNat (s.span.first + (d.toNat - s.image))).toNat =
      s.span.first + (d.toNat - s.image) :=
    toNat_ofNat_of_areScalar (tidy.scalar s member).1 bounds.1 bounds.2.1
  refine Char.toNat_inj.mp ?_
  rw [tidy.toNat_apply member (back.symm ▸ has), back]
  omega

end Tidy

/-! ## The tables -/

/-- The span of a shift is not empty and ends before that of the next. -/
def Precedes (s t : Shift) : Prop := s.span.first ≤ s.span.last ∧ s.span.last < t.span.first

instance : DecidableRel Precedes := fun _ _ => inferInstanceAs (Decidable (_ ∧ _))

instance : Trans Precedes Precedes Precedes where
  trans first second := ⟨first.1, by have := first.2; have := second.1; have := second.2; omega⟩

/-- The shift that undoes one. -/
def turned (s : Shift) : Shift := ⟨⟨s.image, s.lastImage, s.span.step⟩, s.span.first⟩

end Shift

open Shift

/-- The capitals of ASCII, which have one row. -/
def capitals : Shift := ⟨⟨0x41, 0x5A, 1⟩, 0x61⟩

/-- The two rows by which characters beyond ASCII are folded to letters of it: a long s and the sign of
the kelvin. -/
def foldedToAscii : List Shift := [⟨⟨0x17F, 0x17F, 1⟩, 0x73⟩, ⟨⟨0x212A, 0x212A, 1⟩, 0x6B⟩]

/-- The capital I with a dot, which folding leaves alone. -/
def dottedI : Shift := ⟨⟨0x130, 0x130, 1⟩, 0x69⟩

/-- Letters that are folded to their capitals. -/
def foldedUpward : List Shift := [⟨⟨0x13A0, 0x13EF, 1⟩, 0xAB70⟩, ⟨⟨0x13F0, 0x13F5, 1⟩, 0x13F8⟩]

/-- The rows that fold a sigma, the capital one and the small one that ends words. -/
def foldedToSigma : List Shift := [⟨⟨0x3A3, 0x3AB, 1⟩, 0x3C3⟩, ⟨⟨0x3C2, 0x3C2, 1⟩, 0x3C3⟩]

/-- What is asked of the table of case folding, in one pass. -/
def foldingChecks (table : List Shift) : Bool :=
  decide (table.IsChain Precedes) &&
    (table.all fun s => areScalar s.span.first s.span.last && areScalar s.image s.lastImage) &&
    (table.all fun s => table.all s.misses) && table.head? == some capitals &&
    (table.tail.all fun s => Nat.ble 0x80 s.span.first &&
      (Nat.ble 0x80 s.image || foldedToAscii.contains s)) &&
    (foldedUpward.all fun s => table.contains s.turned) && foldedToSigma.all table.contains

set_option maxRecDepth 20000 in
theorem foldingChecks_foldTable : foldingChecks foldTable = true := by
  rw [foldTable, Shift.list, Span.words_ofList]
  decide +kernel

set_option maxRecDepth 20000 in
theorem sublist_foldTable : (lowerTable.filter fun s =>
    !(s == dottedI || foldedUpward.contains s)).isSublist foldTable = true := by
  rw [foldTable, lowerTable, Shift.list, Shift.list, Span.words_ofList, Span.words_ofList]
  decide +kernel

theorem tidy_foldTable : Tidy foldTable := by
  have checks := foldingChecks_foldTable
  simp only [foldingChecks, Bool.and_eq_true, decide_eq_true_eq, List.all_eq_true] at checks
  obtain ⟨⟨⟨⟨⟨⟨chain, scalar⟩, resting⟩, _⟩, _⟩, _⟩, _⟩ := checks
  exact ⟨(List.isChain_iff_pairwise.mp chain).imp And.right, scalar, resting⟩

theorem foldTable_eq : ∃ rest, foldTable = capitals :: rest ∧
    ∀ s ∈ rest, 0x80 ≤ s.span.first ∧ (0x80 ≤ s.image ∨ s ∈ foldedToAscii) := by
  have checks := foldingChecks_foldTable
  simp only [foldingChecks, Bool.and_eq_true, List.all_eq_true, Bool.or_eq_true, Nat.ble_eq,
    beq_iff_eq, List.contains_iff_mem] at checks
  obtain ⟨⟨⟨⟨_, first⟩, others⟩, _⟩, _⟩ := checks
  obtain ⟨rest, table⟩ := List.head?_eq_some_iff.mp first
  rw [table, List.tail_cons] at others
  exact ⟨rest, table, others⟩

theorem turned_mem_foldTable {s : Shift} (upward : s ∈ foldedUpward) : s.turned ∈ foldTable := by
  have checks := foldingChecks_foldTable
  simp only [foldingChecks, Bool.and_eq_true, List.all_eq_true, List.contains_iff_mem] at checks
  exact checks.1.2 s upward

theorem foldedToSigma_subset : foldedToSigma ⊆ foldTable := by
  have checks := foldingChecks_foldTable
  simp only [foldingChecks, Bool.and_eq_true, List.all_eq_true, List.contains_iff_mem] at checks
  exact checks.2

/-- Rows of lower case are rows of folding, but for the dotted I and the letters folded upward. -/
theorem mem_foldTable_of_mem_lowerTable {s : Shift} (member : s ∈ lowerTable) :
    s ∈ foldTable ∨ s = dottedI ∨ s ∈ foldedUpward := by
  by_cases other : s = dottedI ∨ s ∈ foldedUpward
  · exact .inr other
  · refine .inl ((List.isSublist_iff_sublist.mp sublist_foldTable).subset (List.mem_filter.mpr ?_))
    refine ⟨member, ?_⟩
    rw [Bool.not_eq_true', ← Bool.not_eq_true, Bool.or_eq_true, beq_iff_eq, List.contains_iff_mem]
    exact other

/-! ## Folding -/

variable {c d : Char}

theorem toNat_toLower (c : Char) :
    c.toLower.toNat = if 0x41 ≤ c.toNat ∧ c.toNat ≤ 0x5A then c.toNat + 32 else c.toNat := by
  have capital : (c.val ≥ 'A'.val ∧ c.val ≤ 'Z'.val) ↔ 0x41 ≤ c.toNat ∧ c.toNat ≤ 0x5A := by
    rw [ge_iff_le, UInt32.le_iff_toNat_le, UInt32.le_iff_toNat_le]
    exact Iff.rfl
  by_cases upper : c.val ≥ 'A'.val ∧ c.val ≤ 'Z'.val
  · have bounds := capital.mp upper
    have moved : c.toLower.val = c.val + 32 := congrArg Char.val (dif_pos upper)
    rw [if_pos bounds, ← Char.toNat_val, moved]
    refine (UInt32.toNat_add _ _).trans (Nat.mod_eq_of_lt ?_)
    change c.toNat + 32 < 4294967296
    omega
  · have same : c.toLower = c := dif_neg upper
    rw [if_neg (mt capital.mpr upper), same]

/-- ASCII is folded by the table as well. -/
theorem foldChar_eq_apply (c : Char) : foldChar c = Shift.apply foldTable c := by
  rw [foldChar]
  split
  · next ascii =>
    obtain ⟨rest, table, others⟩ := foldTable_eq
    by_cases upper : 0x41 ≤ c.toNat ∧ c.toNat ≤ 0x5A
    · have has : capitals.span.has c.toNat = true := Span.has_iff.mpr ⟨upper.1, upper.2, Nat.mod_one _⟩
      have member : capitals ∈ foldTable := by simp [table]
      refine Char.toNat_inj.mp ?_
      rw [toNat_toLower, if_pos upper, tidy_foldTable.toNat_apply member has]
      simp only [capitals]
      omega
    · rw [Char.toNat_inj.mp ((toNat_toLower c).trans (if_neg upper))]
      refine (apply_of_find?_none (List.find?_eq_none.mpr fun s member => ?_)).symm
      rw [Span.has_iff]
      rw [table, List.mem_cons] at member
      rcases member with rfl | member
      · simp only [capitals]
        omega
      · have := (others s member).1
        omega
  · rfl

theorem foldChar_foldChar (c : Char) : foldChar (foldChar c) = foldChar c := by
  simp only [foldChar_eq_apply, tidy_foldTable.apply_image]

theorem foldChar_of_toNat_lt (ascii : c.toNat < 0x80) : foldChar c = c.toLower := if_pos ascii

theorem lowerChar_of_toNat_lt (ascii : c.toNat < 0x80) : lowerChar c = foldChar c := by
  rw [foldChar_of_toNat_lt ascii, lowerChar, if_pos ascii]

theorem toNat_foldChar_lt (ascii : c.toNat < 0x80) : (foldChar c).toNat < 0x80 := by
  rw [foldChar_of_toNat_lt ascii, toNat_toLower]
  split <;> omega

/-- Lower case does not change what a character is folded to, except for the dotted I. -/
theorem foldChar_lowerChar (other : c ≠ '\u0130') : foldChar (lowerChar c) = foldChar c := by
  by_cases ascii : c.toNat < 0x80
  · rw [lowerChar_of_toNat_lt ascii, foldChar_foldChar]
  · have table : lowerChar c = Shift.apply lowerTable c := if_neg ascii
    rw [table]
    cases around : lowerTable.find? (·.span.has c.toNat) with
    | none => rw [apply_of_find?_none around]
    | some s =>
      have has : s.span.has c.toNat = true := (List.find?_eq_some_iff_append.mp around).1
      have image : Shift.apply lowerTable c = Char.ofNat (s.image + (c.toNat - s.span.first)) := by
        rw [Shift.apply, around]
      rw [image]
      rcases mem_foldTable_of_mem_lowerTable (List.mem_of_find?_eq_some around) with
        row | rfl | upward
      · have same : Char.ofNat (s.image + (c.toNat - s.span.first)) = foldChar c := by
          rw [foldChar_eq_apply, Shift.apply, tidy_foldTable.find?_eq_some row has]
        rw [same, foldChar_foldChar]
      · rw [Span.has_iff] at has
        refine absurd (Char.toNat_inj.mp ?_) other
        simp only [dottedI] at has
        change c.toNat = 0x130
        omega
      · have bounds := Span.has_iff.mp has
        have back : s.turned.span.has (s.turned.span.first + (c.toNat - s.turned.image)) = true := by
          rw [Span.has_iff]
          simp only [turned, lastImage]
          refine ⟨Nat.le_add_right _ _, by omega, ?_⟩
          rw [Nat.add_sub_cancel_left]
          exact bounds.2.2
        have moved := tidy_foldTable.apply_eq_of_preimage (turned_mem_foldTable upward) bounds.1 back
        have folded : foldChar (Char.ofNat (s.image + (c.toNat - s.span.first))) = c :=
          (foldChar_eq_apply _).trans moved
        exact (foldChar_foldChar _).symm.trans (congrArg foldChar folded)

/-- The small sigma that ends words is folded as the capital one. -/
theorem foldChar_finalSigma : foldChar '\u03C2' = foldChar capitalSigma := by
  refine Char.toNat_inj.mp ?_
  rw [foldChar_eq_apply, foldChar_eq_apply,
    tidy_foldTable.toNat_apply (s := ⟨⟨0x3C2, 0x3C2, 1⟩, 0x3C3⟩) (foldedToSigma_subset (by decide))
      (by decide),
    tidy_foldTable.toNat_apply (s := ⟨⟨0x3A3, 0x3AB, 1⟩, 0x3C3⟩) (foldedToSigma_subset (by decide))
      (by decide)]
  rfl

/-- What is folded to ASCII from beyond it is folded to an s or a k. -/
theorem toNat_lt_of_foldChar (ascii : (foldChar c).toNat < 0x80) (notS : foldChar c ≠ 's')
    (notK : foldChar c ≠ 'k') : c.toNat < 0x80 := by
  rw [foldChar_eq_apply] at ascii
  rw [foldChar_eq_apply, ne_eq, ← Char.toNat_inj] at notS notK
  cases around : foldTable.find? (·.span.has c.toNat) with
  | none => rwa [apply_of_find?_none around] at ascii
  | some s =>
    have member : s ∈ foldTable := List.mem_of_find?_eq_some around
    have has : s.span.has c.toNat = true := (List.find?_eq_some_iff_append.mp around).1
    rw [tidy_foldTable.toNat_apply member has] at ascii notS notK
    rw [Span.has_iff] at has
    obtain ⟨rest, table, others⟩ := foldTable_eq
    rw [table, List.mem_cons] at member
    rcases member with rfl | member
    · simp only [capitals] at has
      omega
    · rcases (others s member).2 with image | row
      · omega
      · simp only [foldedToAscii, List.mem_cons, List.not_mem_nil, or_false] at row
        rcases row with rfl | rfl
        · exact absurd (congrArg (0x73 + ·) (Nat.sub_eq_zero_of_le has.2.1)) notS
        · exact absurd (congrArg (0x6B + ·) (Nat.sub_eq_zero_of_le has.2.1)) notK

end BackOffice.Text
