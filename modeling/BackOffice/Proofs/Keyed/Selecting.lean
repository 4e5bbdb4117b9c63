import BackOffice.Proofs.Keyed

/-!
# What selecting reports

Each operation on the selection answers with the keys that it changed. Where the list is well formed
the report is exact: it names the keys that became selected and those that ceased to be, each once,
and no item is touched. A listener that knows the selection before knows it afterwards.
-/
namespace BackOffice.Keyed

variable {α κ : Type} {keyOf : α → κ} {s : Keyed keyOf} {k j : κ}

/-- A selection after an operation and the change that is reported for it. -/
structure Reports (s : Keyed keyOf) (result : Keyed keyOf × KeyChange κ) : Prop where
  items : result.1.items = s.items
  added_unique : result.2.added.Nodup
  removed_unique : result.2.removed.Nodup
  mem_added : ∀ k, k ∈ result.2.added ↔ k ∈ result.1.selected ∧ k ∉ s.selected
  mem_removed : ∀ k, k ∈ result.2.removed ↔ k ∈ s.selected ∧ k ∉ result.1.selected

variable {result : Keyed keyOf × KeyChange κ}

theorem Reports.keys_eq (r : Reports s result) : result.1.keys = s.keys :=
  congrArg OrderedMap.keys r.items

/-- The selection afterwards, told from the one before and the report. -/
theorem Reports.mem_selected (r : Reports s result) :
    k ∈ result.1.selected ↔ k ∉ result.2.removed ∧ (k ∈ s.selected ∨ k ∈ result.2.added) := by
  rw [r.mem_added, r.mem_removed]
  tauto

theorem reports_nothing (s : Keyed keyOf) : Reports s (s, .none) where
  items := rfl
  added_unique := List.nodup_nil
  removed_unique := List.nodup_nil
  mem_added _ := ⟨nofun, fun h => absurd h.1 h.2⟩
  mem_removed _ := ⟨nofun, fun h => absurd h.1 h.2⟩

theorem WellFormed.reports_clearSelection (w : s.WellFormed) : Reports s s.clearSelection where
  items := rfl
  added_unique := List.nodup_nil
  removed_unique := w.selected_unique
  mem_added _ := ⟨nofun, fun h => nomatch h.1⟩
  mem_removed _ := ⟨fun h => ⟨h, nofun⟩, And.left⟩

variable [DecidableEq κ]

theorem mem_selected_select :
    j ∈ (s.select k).1.selected ↔ j ∈ s.selected ∨ (j = k ∧ j ∈ s.keys) := by
  rw [select]
  split
  · next able =>
    rw [Bool.and_eq_true, contains_iff] at able
    rw [List.mem_append, List.mem_singleton]
    constructor
    · rintro (old | rfl)
      · exact Or.inl old
      · exact Or.inr ⟨rfl, able.1⟩
    · rintro (old | ⟨same, _⟩)
      · exact Or.inl old
      · exact Or.inr same
  · next refused =>
    constructor
    · exact Or.inl
    · rintro (old | ⟨rfl, loaded⟩)
      · exact old
      · by_contra new
        apply refused
        rw [contains_iff.mpr loaded, isSelected_eq_false_iff.mpr new]
        rfl

theorem mem_selected_deselect : j ∈ (s.deselect k).1.selected ↔ j ∈ s.selected ∧ j ≠ k := by
  rw [deselect]
  split
  · rw [List.mem_filter, decide_eq_true_eq]
  · next absent =>
    rw [isSelected_iff] at absent
    exact ⟨fun h => ⟨h, fun same => absent (same ▸ h)⟩, And.left⟩

theorem keys_select (s : Keyed keyOf) (k : κ) : (s.select k).1.keys = s.keys :=
  congrArg OrderedMap.keys (select_items s k)

theorem keys_deselect (s : Keyed keyOf) (k : κ) : (s.deselect k).1.keys = s.keys :=
  congrArg OrderedMap.keys (deselect_items s k)

/-- Selecting keys one after the other selects those of them that are loaded. -/
theorem mem_selected_foldl_select (ks : List κ) :
    j ∈ (ks.foldl (fun list k => (list.select k).1) s).selected ↔
      j ∈ s.selected ∨ (j ∈ ks ∧ j ∈ s.keys) := by
  induction ks generalizing s with
  | nil => simp
  | cons k rest ih =>
    rw [List.foldl_cons, ih, mem_selected_select, keys_select, List.mem_cons]
    tauto

theorem reports_select (s : Keyed keyOf) (k : κ) : Reports s (s.select k) := by
  rw [select]
  split
  · next able =>
    rw [Bool.and_eq_true, Bool.not_eq_true', isSelected_eq_false_iff] at able
    refine ⟨rfl, List.nodup_singleton k, List.nodup_nil, ?_, ?_⟩
    · intro j
      simp only [List.mem_singleton, List.mem_append]
      constructor
      · rintro rfl
        exact ⟨Or.inr rfl, able.2⟩
      · rintro ⟨old | new, absent⟩
        · exact absurd old absent
        · exact new
    · intro j
      simp only [List.not_mem_nil, List.mem_append, false_iff]
      exact fun h => h.2 (Or.inl h.1)
  · exact reports_nothing s

theorem reports_deselect (s : Keyed keyOf) (k : κ) : Reports s (s.deselect k) := by
  rw [deselect]
  split
  · next selected =>
    rw [isSelected_iff] at selected
    refine ⟨rfl, List.nodup_nil, List.nodup_singleton k, ?_, ?_⟩
    · intro j
      simp only [List.not_mem_nil, List.mem_filter, false_iff]
      exact fun h => h.2 h.1.1
    · intro j
      simp only [List.mem_singleton, List.mem_filter, decide_eq_true_eq]
      constructor
      · rintro rfl
        exact ⟨selected, fun h => h.2 rfl⟩
      · rintro ⟨old, gone⟩
        by_contra other
        exact gone ⟨old, other⟩
  · exact reports_nothing s

theorem reports_toggle (s : Keyed keyOf) (k : κ) : Reports s (s.toggle k) := by
  rw [toggle]
  split
  · exact reports_deselect s k
  · exact reports_select s k

theorem WellFormed.mem_selected_toggle (w : s.WellFormed) : j ∈ (s.toggle k).1.selected ↔
    if j = k ∧ k ∈ s.keys then j ∉ s.selected else j ∈ s.selected := by
  have loaded := w.selected_loaded k
  rw [Keyed.toggle]
  by_cases same : j = k
  · subst same
    by_cases old : j ∈ s.selected
    · rw [isSelected_iff.mpr old, if_pos rfl, mem_selected_deselect, if_pos ⟨rfl, loaded old⟩]
      simp [old]
    · rw [isSelected_eq_false_iff.mpr old, if_neg Bool.false_ne_true, mem_selected_select]
      by_cases present : j ∈ s.keys
      · simp [old, present]
      · simp [present]
  · have other : ¬ (j = k ∧ k ∈ s.keys) := fun h => same h.1
    rw [if_neg other]
    split
    · rw [mem_selected_deselect, and_iff_left same]
    · rw [mem_selected_select, or_iff_left fun h => same h.1]

theorem WellFormed.reports_selectAll (w : s.WellFormed) : Reports s s.selectAll := by
  have new : ∀ k, k ∈ s.keys.filter (!s.isSelected ·) ↔ k ∈ s.keys ∧ k ∉ s.selected := by
    intro k
    rw [List.mem_filter, Bool.not_eq_true', isSelected_eq_false_iff]
  refine ⟨rfl, w.items.unique.filter _, List.nodup_nil, ?_, ?_⟩
  · intro k
    simp only [Keyed.selectAll, new, List.mem_append]
    tauto
  · intro k
    simp only [Keyed.selectAll, List.not_mem_nil, List.mem_append, false_iff]
    exact fun h => h.2 (Or.inl h.1)

theorem WellFormed.reports_toggleAll (w : s.WellFormed) : Reports s s.toggleAll := by
  rw [Keyed.toggleAll]
  split
  · exact w.reports_clearSelection
  · exact w.reports_selectAll

/-- The header checkbox selects a loaded key unless all of them were selected. -/
theorem mem_selected_toggleAll (loaded : k ∈ s.keys) :
    k ∈ s.toggleAll.1.selected ↔ ∃ j ∈ s.keys, j ∉ s.selected := by
  have filled : s.items.isEmpty = false := by
    rw [OrderedMap.isEmpty, List.isEmpty_eq_false_iff]
    intro empty
    rw [keys, OrderedMap.keys, empty] at loaded
    cases loaded
  have full : s.allSelected = true ↔ ∀ j ∈ s.keys, j ∈ s.selected := by
    rw [allSelected, filled, Bool.not_false, Bool.true_and, List.all_eq_true]
    exact forall₂_congr fun j _ => isSelected_iff
  rw [toggleAll]
  split
  · next all =>
    refine iff_of_false List.not_mem_nil ?_
    rintro ⟨j, present, missing⟩
    exact missing (full.mp all j present)
  · next left =>
    rw [full, not_forall₂] at left
    simp only [selectAll, List.mem_append, List.mem_filter, Bool.not_eq_true',
      isSelected_eq_false_iff]
    refine iff_of_true ?_ (by simpa using left)
    by_cases selected : k ∈ s.selected
    · exact Or.inl selected
    · exact Or.inr ⟨loaded, selected⟩

end BackOffice.Keyed
