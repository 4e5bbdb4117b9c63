import BackOffice.Proofs.Keyed
import Mathlib.Data.List.Perm.Subperm

/-!
# Keyed lists under any operations

Whatever is loaded, edited and selected, in any order, a keyed list stays well formed: the items and
the selection are changed by different operations, and each of them leaves the other one in step.
What is asked of a well-formed list can then be read off its items: where a key is found, how many
items are selected, whether all of them are.
-/
namespace BackOffice.Keyed

/-- What can be done to a keyed list. -/
inductive Edit (α κ : Type) where
  | load (items : List α)
  | append (a : α)
  | prepend (a : α)
  | remove (k : κ)
  | replace (old : κ) (a : α)
  | clear
  | copy
  | select (k : κ)
  | deselect (k : κ)
  | toggle (k : κ)
  | selectAll
  | clearSelection
  | toggleAll

variable {α κ : Type} [DecidableEq κ] {keyOf : α → κ} {s : Keyed keyOf} {k : κ}

/-- The list after an operation; a copy is the list over again. -/
def edit (s : Keyed keyOf) : Edit α κ → Keyed keyOf
  | .load items => s.load items
  | .append a => s.append a
  | .prepend a => s.prepend a
  | .remove k => s.remove k
  | .replace old a => s.replace old a
  | .clear => s.clear
  | .copy => s
  | .select k => (s.select k).1
  | .deselect k => (s.deselect k).1
  | .toggle k => (s.toggle k).1
  | .selectAll => s.selectAll.1
  | .clearSelection => s.clearSelection.1
  | .toggleAll => s.toggleAll.1

def edits (s : Keyed keyOf) (es : List (Edit α κ)) : Keyed keyOf := es.foldl edit s

theorem WellFormed.edit (w : s.WellFormed) (e : Edit α κ) : (s.edit e).WellFormed := by
  cases e with
  | load items => exact w.load items
  | append a => exact w.append a
  | prepend a => exact w.prepend a
  | remove k => exact w.remove k
  | replace old a => exact w.replace old a
  | clear => exact wellFormed_empty
  | copy => exact w
  | select k => exact w.select k
  | deselect k => exact w.deselect k
  | toggle k => exact w.toggle k
  | selectAll => exact w.selectAll
  | clearSelection => exact w.clearSelection
  | toggleAll => exact w.toggleAll

theorem WellFormed.edits (w : s.WellFormed) (es : List (Edit α κ)) : (s.edits es).WellFormed := by
  induction es generalizing s with
  | nil => exact w
  | cons e rest ih => exact ih (w.edit e)

/-! ## Finding items -/

theorem WellFormed.contains_iff_exists (w : s.WellFormed) :
    s.contains k = true ↔ ∃ a ∈ s.toList, keyOf a = k := by
  rw [contains_iff, w.keys_eq, List.mem_map]

theorem WellFormed.position?_eq_some_iff (w : s.WellFormed) {i : Nat} :
    s.position? k = some i ↔ ∃ a, s.toList[i]? = some a ∧ keyOf a = k := by
  have keys : s.items.keys = s.toList.map keyOf := w.keys_eq
  rw [position?, OrderedMap.position?_eq_some_iff w.items.unique, keys, List.getElem?_map,
    Option.map_eq_some_iff]

/-! ## Counting the selection -/

/-- The selected keys are those of the selected items, which come in the order of the list. -/
theorem WellFormed.perm_selected (w : s.WellFormed) :
    s.selected.Perm (s.keys.filter s.isSelected) := by
  refine (List.perm_ext_iff_of_nodup w.selected_unique (w.items.unique.filter _)).mpr ?_
  intro k
  rw [List.mem_filter, isSelected_iff]
  exact ⟨fun selected => ⟨w.selected_loaded k selected, selected⟩, And.right⟩

theorem WellFormed.length_selection (w : s.WellFormed) :
    s.selection.length = s.selected.length := by
  have keys : s.keys.filter s.isSelected =
      (s.items.entries.filter fun e => s.isSelected e.1).map (·.1) := List.filter_map
  rw [w.perm_selected.length_eq, keys, selection, List.length_map, List.length_map]

/-- All loaded keys are selected exactly if there are as many selected as loaded ones. -/
theorem WellFormed.all_isSelected_iff (w : s.WellFormed) :
    s.keys.all s.isSelected = true ↔ s.selected.length = s.items.size := by
  have size : s.items.size = s.keys.length := by
    simp [OrderedMap.size, keys, OrderedMap.keys]
  rw [w.perm_selected.length_eq, size, List.length_filter_eq_length_iff, List.all_eq_true]

theorem WellFormed.allSelected_iff (w : s.WellFormed) :
    s.allSelected = true ↔ s.toList ≠ [] ∧ s.selected.length = s.items.size := by
  have filled : s.items.isEmpty = false ↔ s.toList ≠ [] := by
    rw [OrderedMap.isEmpty, List.isEmpty_eq_false_iff, toList, OrderedMap.values, ne_eq, ne_eq,
      List.map_eq_nil_iff]
  rw [allSelected, Bool.and_eq_true, Bool.not_eq_true', filled, w.all_isSelected_iff]

/-- After any operations each item stands under its own key, no key is loaded or selected twice, and
what is selected is loaded. So finding a key, its presence and its place agree with the sequence of
items, as many keys are selected as items, and all are selected exactly if there are items and as
many selected keys. -/
theorem keys_along_edits (keyOf : α → κ) (es : List (Edit α κ)) :
    let s := (empty : Keyed keyOf).edits es
    (∀ e ∈ s.items.entries, e.1 = keyOf e.2) ∧ s.keys.Nodup ∧ s.selected.Nodup ∧
      (∀ k ∈ s.selected, ∃ a ∈ s.toList, keyOf a = k) ∧
      (∀ k a, s.find? k = some a ↔ a ∈ s.toList ∧ keyOf a = k) ∧
      (∀ k, s.contains k = true ↔ ∃ a ∈ s.toList, keyOf a = k) ∧
      (∀ k i, s.position? k = some i ↔ ∃ a, s.toList[i]? = some a ∧ keyOf a = k) ∧
      s.selected.length = s.selection.length ∧
      (s.allSelected = true ↔ s.toList ≠ [] ∧ s.selected.length = s.items.size) := by
  intro s
  have w : s.WellFormed := wellFormed_empty.edits es
  refine ⟨w.items.keyed, w.items.unique, w.selected_unique, ?_, ?_, ?_, ?_,
    w.length_selection.symm, w.allSelected_iff⟩
  · intro k selected
    exact w.contains_iff_exists.mp (contains_iff.mpr (w.selected_loaded k selected))
  · intro k a
    exact w.find?_eq_some_iff
  · intro k
    exact w.contains_iff_exists
  · intro k i
    exact w.position?_eq_some_iff

end BackOffice.Keyed
