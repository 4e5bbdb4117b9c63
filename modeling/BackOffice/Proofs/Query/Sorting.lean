import BackOffice.Proofs.Record.Fields
import BackOffice.Query.Criteria
import BackOffice.Repository

/-!
# Sorted records

Records of one schema are sorted by a linear preorder, whatever the row of sorts: the values of a
field are, a descending sort turns them around, and later sorts only part what earlier ones leave
together. So sorting keeps all records, puts none after a greater one and leaves ties as they were.
-/
namespace BackOffice

open BackOffice.Field BackOffice.Query

namespace Query

/-- The order of one sort, given an order of values. A field that is lacking counts as nothing. -/
def Sorting.compareWith (order : Value → Value → Ordering) (s : Sorting)
    (a b : String → Option Value) : Ordering :=
  s.direction.apply (order ((a s.name).getD .null) ((b s.name).getD .null))

instance (order : Value → Value → Ordering) [Std.TransCmp order] (s : Sorting) :
    Std.TransCmp (s.compareWith order) where
  eq_swap {a b} := by
    cases h : s.direction with
    | ascending =>
      simp only [Sorting.compareWith, h, Direction.apply]
      exact Std.OrientedCmp.eq_swap
    | descending =>
      simp only [Sorting.compareWith, h, Direction.apply]
      exact congrArg _ Std.OrientedCmp.eq_swap
  isLE_trans {a b c} := by
    cases h : s.direction with
    | ascending =>
      simp only [Sorting.compareWith, h, Direction.apply]
      exact Std.TransCmp.isLE_trans
    | descending =>
      have swap (v w : Value) : (order v w).swap = order w v := Std.OrientedCmp.eq_swap.symm
      simp only [Sorting.compareWith, h, Direction.apply, swap]
      exact fun hab hbc => Std.TransCmp.isLE_trans hbc hab

/-- A row of sorts by the places of values. -/
def placeBy : List Sorting → (String → Option Value) → (String → Option Value) → Ordering
  | [] => fun _ _ => .eq
  | s :: rest => compareLex (s.compareWith Value.placing) (placeBy rest)

instance transCmp_placeBy (sorts : List Sorting) : Std.TransCmp (placeBy sorts) := by
  induction sorts with
  | nil => exact { eq_swap := rfl, isLE_trans := fun _ _ => rfl }
  | cons s rest ih => exact inferInstanceAs (Std.TransCmp (compareLex _ _))

variable {s : Schema} {a b : Record} {records : List Record}

/-- Records of one schema are compared by places. -/
theorem compareBy_eq_placeBy (sorts : List Sorting) (fa : Record.Fits s a) (fb : Record.Fits s b) :
    compareBy sorts a.field? b.field? = placeBy sorts a.field? b.field? := by
  induction sorts with
  | nil => rfl
  | cons sort rest ih =>
    have first : sort.compareWith Value.compare a.field? b.field? =
        sort.compareWith Value.placing a.field? b.field? := by
      rw [Sorting.compareWith, Sorting.compareWith]
      rcases fa.field? sort.name with ⟨lacking, ha⟩ | ⟨k, v, kind, ha, holdsA⟩
      · rcases fb.field? sort.name with ⟨_, hb⟩ | ⟨_, _, known, _⟩
        · rw [ha, hb]
          rfl
        · cases lacking.symm.trans known
      · rcases fb.field? sort.name with ⟨lacking, _⟩ | ⟨_, w, known, hb, holdsB⟩
        · cases lacking.symm.trans kind
        · cases kind.symm.trans known
          rw [ha, hb, Option.getD_some, Option.getD_some, Value.compare_eq_placing holdsA holdsB]
    rw [placeBy, compareLex, ← first, ← ih]
    rfl

/-! ## Sorting -/

/-- Not after, by places. -/
def placedBefore (sorts : List Sorting) (a b : Record) : Bool :=
  (placeBy sorts a.field? b.field?).isLE

theorem placedBefore_trans (sorts : List Sorting) (a b c : Record)
    (hab : placedBefore sorts a b = true) (hbc : placedBefore sorts b c = true) :
    placedBefore sorts a c = true :=
  Std.TransCmp.isLE_trans hab hbc

theorem placedBefore_total (sorts : List Sorting) (a b : Record) :
    (placedBefore sorts a b || placedBefore sorts b a) = true := by
  have swap : placeBy sorts b.field? a.field? = (placeBy sorts a.field? b.field?).swap :=
    Std.OrientedCmp.eq_swap
  rw [placedBefore, placedBefore, swap]
  cases placeBy sorts a.field? b.field? <;> rfl

theorem notAfter_eq_placedBefore (sorts : List Sorting) (fa : Record.Fits s a)
    (fb : Record.Fits s b) : Repository.notAfter sorts a b = placedBefore sorts a b := by
  rw [Repository.notAfter, placedBefore, compareBy_eq_placeBy sorts fa fb]
  cases placeBy sorts a.field? b.field? <;> rfl

theorem mergeSort_eq_placed (sorts : List Sorting) (fits : ∀ r ∈ records, Record.Fits s r) :
    records.mergeSort (Repository.notAfter sorts) = records.mergeSort (placedBefore sorts) := by
  have same := List.map_mergeSort (r := Repository.notAfter sorts) (s := placedBefore sorts)
    (f := id) fun a ha b hb => notAfter_eq_placedBefore sorts (fits a ha) (fits b hb)
  rwa [List.map_id, List.map_id] at same

theorem pairwise_mergeSort (sorts : List Sorting) (fits : ∀ r ∈ records, Record.Fits s r) :
    (records.mergeSort (Repository.notAfter sorts)).Pairwise fun a b =>
      compareBy sorts a.field? b.field? ≠ .gt := by
  have sorted := List.pairwise_mergeSort (placedBefore_trans sorts) (placedBefore_total sorts) records
  rw [mergeSort_eq_placed sorts fits]
  refine sorted.imp_of_mem fun {a b} ha hb before => ?_
  rw [← notAfter_eq_placedBefore sorts (fits a (List.mem_mergeSort.mp ha))
    (fits b (List.mem_mergeSort.mp hb)), Repository.notAfter, bne_iff_ne] at before
  exact before

/-- Records that tie stay in the order in which they came. -/
theorem pair_sublist_mergeSort (sorts : List Sorting) (fits : ∀ r ∈ records, Record.Fits s r)
    (tie : compareBy sorts a.field? b.field? = .eq) (order : [a, b].Sublist records) :
    [a, b].Sublist (records.mergeSort (Repository.notAfter sorts)) := by
  have ha : a ∈ records := order.subset (by simp)
  have hb : b ∈ records := order.subset (by simp)
  have before : placedBefore sorts a b = true := by
    rw [placedBefore, ← compareBy_eq_placeBy sorts (fits a ha) (fits b hb), tie]
    rfl
  rw [mergeSort_eq_placed sorts fits]
  exact List.pair_sublist_mergeSort (placedBefore_trans sorts) (placedBefore_total sorts) before order

end Query

end BackOffice
