import BackOffice.Keyed
import BackOffice.Proofs.OrderedMap

/-!
# Keyed lists as lists

A keyed list is well formed when every item stands under its own key and the selection names loaded
keys, each once. A well-formed list is told by `toList`: the equations below give `toList` after
each operation, and the selection after those that touch it.
-/
namespace BackOffice.Keyed

variable {α κ : Type} {keyOf : α → κ} {s : Keyed keyOf} {k : κ} {a : α}

structure WellFormed (s : Keyed keyOf) : Prop where
  items : s.items.KeyedBy keyOf
  selected_unique : s.selected.Nodup
  selected_loaded : ∀ k ∈ s.selected, k ∈ s.keys

theorem wellFormed_empty : (empty : Keyed keyOf).WellFormed where
  items := .empty
  selected_unique := List.nodup_nil
  selected_loaded _ hk := nomatch hk

theorem WellFormed.keys_eq (w : s.WellFormed) : s.keys = s.toList.map keyOf :=
  w.items.keys_eq

theorem WellFormed.nodup_keys (w : s.WellFormed) : (s.toList.map keyOf).Nodup :=
  w.keys_eq ▸ w.items.unique

/-- An item is known by its key. -/
theorem WellFormed.eq_of_key_eq (w : s.WellFormed) {b : α} (ha : a ∈ s.toList) (hb : b ∈ s.toList)
    (same : keyOf a = keyOf b) : a = b :=
  List.inj_on_of_nodup_map w.nodup_keys ha hb same

theorem WellFormed.clearSelection (w : s.WellFormed) : s.clearSelection.1.WellFormed where
  items := w.items
  selected_unique := List.nodup_nil
  selected_loaded _ hk := nomatch hk

variable [DecidableEq κ]

/-- Each key of some items in the place of its first item, with its last item. -/
def latestByKey (keyOf : α → κ) (items : List α) : List α :=
  (items.map keyOf).eraseDups.filterMap fun k => items.reverse.find? (keyOf · = k)

theorem contains_iff : s.contains k = true ↔ k ∈ s.keys :=
  OrderedMap.contains_iff

theorem isSelected_iff : s.isSelected k = true ↔ k ∈ s.selected := by
  rw [isSelected, List.contains_iff_mem]

theorem isSelected_eq_false_iff : s.isSelected k = false ↔ k ∉ s.selected := by
  rw [← isSelected_iff, Bool.not_eq_true]

theorem mem_keys_of_find? (h : s.find? k = some a) : k ∈ s.keys :=
  OrderedMap.mem_keys_of_get? h

theorem WellFormed.find?_eq_some_iff (w : s.WellFormed) :
    s.find? k = some a ↔ a ∈ s.toList ∧ keyOf a = k :=
  (OrderedMap.get?_eq_some_iff w.items.unique).trans w.items.mem_entries_iff

/-! ## Loading and editing items -/

theorem toList_load (items : List α) : (s.load items).toList = latestByKey keyOf items := by
  rw [toList, OrderedMap.values, load, OrderedMap.entries_ofList, List.map_filterMap, latestByKey,
    List.map_map]
  apply List.filterMap_congr
  intro k _
  rw [← List.map_reverse, OrderedMap.lookup_map_key, Option.map_map]
  exact Option.map_id'

/-- Items of distinct keys are all of them the latest. -/
theorem latestByKey_of_nodup {items : List α} (unique : (items.map keyOf).Nodup) :
    latestByKey keyOf items = items := by
  have pairs : ((items.map fun a => (keyOf a, a)).map (·.1)).Nodup := by
    rwa [List.map_map]
  rw [← toList_load (s := (.empty : Keyed keyOf)), load, toList, OrderedMap.ofList_of_nodup pairs,
    OrderedMap.values, List.map_map]
  exact List.map_id' items

theorem mem_keys_load {items : List α} : k ∈ (s.load items).keys ↔ k ∈ items.map keyOf := by
  rw [keys, load, OrderedMap.mem_keys_ofList, List.map_map]
  rfl

theorem selected_load (items : List α) :
    (s.load items).selected = s.selected.filter (· ∈ items.map keyOf) := by
  apply List.filter_congr
  intro k _
  rw [Bool.eq_iff_iff, OrderedMap.contains_iff, OrderedMap.mem_keys_ofList, List.map_map,
    decide_eq_true_eq]
  rfl

theorem WellFormed.load (w : s.WellFormed) (items : List α) : (s.load items).WellFormed where
  items := .ofList items
  selected_unique := w.selected_unique.filter _
  selected_loaded _ hk := OrderedMap.contains_iff.mp (List.mem_filter.mp hk).2

theorem toList_append (w : s.WellFormed) :
    (s.append a).toList = s.toList.filter (keyOf · ≠ keyOf a) ++ [a] := by
  rw [append, toList, OrderedMap.values, OrderedMap.putLast, OrderedMap.erase, w.items.entries_eq,
    List.filter_map, List.map_append, List.map_map]
  exact congrArg (· ++ [a]) (List.map_id' _)

theorem WellFormed.append (w : s.WellFormed) (a : α) : (s.append a).WellFormed where
  items := w.items.putLast a
  selected_unique := w.selected_unique
  selected_loaded k hk := by
    rw [keys, Keyed.append, OrderedMap.keys_putLast, List.mem_append, List.mem_singleton]
    by_cases same : k = keyOf a
    · exact Or.inr same
    · exact Or.inl (OrderedMap.mem_keys_erase.mpr ⟨w.selected_loaded k hk, same⟩)

theorem find?_append {j : κ} :
    (s.append a).find? j = if j = keyOf a then some a else s.find? j :=
  OrderedMap.get?_putLast

theorem find?_remove {j : κ} : (s.remove k).find? j = if j = k then none else s.find? j :=
  OrderedMap.get?_erase

theorem toList_remove (w : s.WellFormed) :
    (s.remove k).toList = s.toList.filter (keyOf · ≠ k) := by
  rw [remove, toList, OrderedMap.values, OrderedMap.erase, w.items.entries_eq, List.filter_map,
    List.map_map]
  exact List.map_id' _

theorem WellFormed.remove (w : s.WellFormed) (k : κ) : (s.remove k).WellFormed where
  items := w.items.erase k
  selected_unique := w.selected_unique.filter _
  selected_loaded j hj := by
    obtain ⟨selected, other⟩ := List.mem_filter.mp hj
    exact OrderedMap.mem_keys_erase.mpr ⟨w.selected_loaded j selected, of_decide_eq_true other⟩

/-- Where an item is replaced by one of its own key, the key is there and all else stays. -/
theorem replace_own_key (h : k ∈ s.keys) (same : keyOf a = k) :
    s.replace k a = { s with items := s.items.insert k a } := by
  rw [replace, contains_iff.mpr h, if_neg (by decide), if_pos same]

theorem find?_replace_own_key (w : s.WellFormed) (h : k ∈ s.keys) (same : keyOf a = k) {j : κ} :
    (s.replace k a).find? j = if j = k then some a else s.find? j := by
  rw [replace_own_key h same]
  exact OrderedMap.get?_insert w.items.unique

theorem toList_replace_own_key (w : s.WellFormed) (h : k ∈ s.keys) (same : keyOf a = k) :
    (s.replace k a).toList = s.toList.map fun b => if keyOf b = k then a else b := by
  rw [replace_own_key h same, toList, OrderedMap.values,
    OrderedMap.entries_insert_of_mem w.items.unique h, w.items.entries_eq, List.map_map,
    List.map_map]
  apply List.map_congr_left
  intro b _
  rw [Function.comp_apply, Function.comp_apply]
  split <;> rfl

theorem WellFormed.replace_own_key (w : s.WellFormed) (h : k ∈ s.keys) (same : keyOf a = k) :
    (s.replace k a).WellFormed := by
  rw [Keyed.replace_own_key h same]
  subst same
  exact ⟨w.items.insert a, w.selected_unique, fun j hj =>
    OrderedMap.mem_keys_insert.mpr (Or.inr (w.selected_loaded j hj))⟩

theorem WellFormed.prepend (w : s.WellFormed) (a : α) : (s.prepend a).WellFormed where
  items := w.items.putFirst a
  selected_unique := w.selected_unique
  selected_loaded k hk := by
    by_cases same : k = keyOf a
    · exact List.mem_cons.mpr (Or.inl same)
    · exact List.mem_cons_of_mem _ (OrderedMap.mem_keys_erase.mpr ⟨w.selected_loaded k hk, same⟩)

theorem mem_withKey {selected : List κ} {j : κ} : j ∈ withKey selected k ↔ j ∈ selected ∨ j = k := by
  rw [withKey]
  split
  · next present =>
    rw [List.contains_iff_mem] at present
    exact ⟨Or.inl, fun h => h.elim id (· ▸ present)⟩
  · simp

theorem nodup_withKey {selected : List κ} (unique : selected.Nodup) :
    (withKey selected k).Nodup := by
  rw [withKey]
  split
  · exact unique
  · next absent =>
    rw [List.contains_iff_mem] at absent
    exact List.nodup_append_comm.mp (List.nodup_cons.mpr ⟨absent, unique⟩)

/-- An item takes the place of one that is loaded; the selection goes with it. -/
theorem WellFormed.replace (w : s.WellFormed) (old : κ) (a : α) :
    (s.replace old a).WellFormed := by
  by_cases present : old ∈ s.keys
  · by_cases same : keyOf a = old
    · exact w.replace_own_key present same
    · rw [Keyed.replace, contains_iff.mpr present, if_neg (by decide), if_neg same]
      have others : ∀ j ∈ s.selected.filter (· ≠ old), j ∈ s.keys ∧ j ≠ old := by
        intro j hj
        obtain ⟨selected, other⟩ := List.mem_filter.mp hj
        exact ⟨w.selected_loaded j selected, of_decide_eq_true other⟩
      have kept : (s.selected.filter (· ≠ old)).Nodup := w.selected_unique.filter _
      refine ⟨w.items.rekey present a, ?_, ?_⟩
      · dsimp only
        split
        · exact nodup_withKey kept
        · exact kept
      · intro j hj
        refine (OrderedMap.mem_keys_rekey w.items.unique present).mpr ?_
        dsimp only at hj
        split at hj
        · rcases mem_withKey.mp hj with stays | new
          · exact Or.inr (others j stays)
          · exact Or.inl new
        · exact Or.inr (others j hj)
  · rw [Keyed.replace, Bool.eq_false_iff.mpr (present ∘ contains_iff.mp)]
    exact w

/-! ## Selecting -/

theorem select_items (s : Keyed keyOf) (k : κ) : (s.select k).1.items = s.items := by
  rw [select]
  split <;> rfl

theorem deselect_items (s : Keyed keyOf) (k : κ) : (s.deselect k).1.items = s.items := by
  rw [deselect]
  split <;> rfl

theorem toggle_items (s : Keyed keyOf) (k : κ) : (s.toggle k).1.items = s.items := by
  rw [toggle]
  split
  · exact deselect_items s k
  · exact select_items s k

theorem toggleAll_items (s : Keyed keyOf) : s.toggleAll.1.items = s.items := by
  rw [toggleAll]
  split <;> rfl

theorem WellFormed.select (w : s.WellFormed) (k : κ) : (s.select k).1.WellFormed := by
  rw [Keyed.select]
  split
  · next able =>
    rw [Bool.and_eq_true, contains_iff, Bool.not_eq_true', isSelected_eq_false_iff] at able
    exact {
      items := w.items
      selected_unique :=
        List.nodup_append_comm.mp (List.nodup_cons.mpr ⟨able.2, w.selected_unique⟩)
      selected_loaded := fun j hj => by
        rcases List.mem_append.mp hj with old | new
        · exact w.selected_loaded j old
        · exact List.mem_singleton.mp new ▸ able.1 }
  · exact w

theorem WellFormed.deselect (w : s.WellFormed) (k : κ) : (s.deselect k).1.WellFormed := by
  rw [Keyed.deselect]
  split
  · exact {
      items := w.items
      selected_unique := w.selected_unique.filter _
      selected_loaded := fun j hj => w.selected_loaded j (List.mem_filter.mp hj).1 }
  · exact w

theorem WellFormed.toggle (w : s.WellFormed) (k : κ) : (s.toggle k).1.WellFormed := by
  rw [Keyed.toggle]
  split
  · exact w.deselect k
  · exact w.select k

theorem WellFormed.selectAll (w : s.WellFormed) : s.selectAll.1.WellFormed where
  items := w.items
  selected_unique := by
    refine List.nodup_append'.mpr ⟨w.selected_unique, w.items.unique.filter _, ?_⟩
    intro k old new
    rw [List.mem_filter, isSelected_iff.mpr old] at new
    exact absurd new.2 (by decide)
  selected_loaded k hk := by
    rcases List.mem_append.mp hk with old | new
    · exact w.selected_loaded k old
    · exact (List.mem_filter.mp new).1

theorem WellFormed.toggleAll (w : s.WellFormed) : s.toggleAll.1.WellFormed := by
  rw [Keyed.toggleAll]
  split
  · exact w.clearSelection
  · exact w.selectAll

end BackOffice.Keyed
