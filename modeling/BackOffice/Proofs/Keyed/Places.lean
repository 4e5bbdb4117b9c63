import BackOffice.Keyed.Places
import BackOffice.Proofs.Keyed.Run

/-!
# Places and keys

Edits by place and edits by key come to the same keyed lists. Where no key occurs twice, a map is cut
at the entry of a key into what stands before it and what stands behind it; taking that entry out,
moving it and putting another one in are told by these two parts. Where a new entry drops another one
of its key, its place moves up with the entries behind that one.
-/
namespace BackOffice

namespace OrderedMap

variable {κ α : Type} {m : OrderedMap κ α} {k : κ} {a b : α} {before after : List (κ × α)}

/-! ## Lists at a place -/

theorem eraseIdx_length (e : κ × α) :
    (before ++ e :: after).eraseIdx before.length = before ++ after := by
  simp [List.eraseIdx_eq_take_drop_succ]

theorem modify_length (f : κ × α → κ × α) (e : κ × α) :
    (before ++ e :: after).modify before.length f = before ++ f e :: after := by
  simp [List.modify_eq_take_drop]

theorem insertIdx_length (e : κ × α) :
    (before ++ after).insertIdx before.length e = before ++ e :: after := by
  induction before with
  | nil => exact List.insertIdx_zero
  | cons d rest ih => simpa using ih

/-! ## A map cut at a key -/

/-- A map is cut at the entry of a key, which stands neither before nor behind it again. -/
structure Cut (m : OrderedMap κ α) (before : List (κ × α)) (k : κ) (b : α)
    (after : List (κ × α)) : Prop where
  entries : m.entries = before ++ (k, b) :: after
  before : k ∉ before.map (·.1)
  after : k ∉ after.map (·.1)

theorem Cut.eraseAt (h : m.Cut before k b after) :
    m.eraseAt before.length = ⟨before ++ after⟩ := by
  rw [OrderedMap.eraseAt, h.entries, eraseIdx_length]

theorem Cut.setAt (h : m.Cut before k b after) (a : α) :
    m.setAt before.length a = ⟨before ++ (k, a) :: after⟩ := by
  rw [OrderedMap.setAt, h.entries, modify_length]

theorem Cut.replaced (h : m.Cut before k b after) (a : α) :
    (⟨before ++ (k, a) :: after⟩ : OrderedMap κ α).Cut before k a after :=
  ⟨rfl, h.before, h.after⟩

theorem Cut.entry (h : m.Cut before k b after) : m.entries[before.length]? = some (k, b) := by
  rw [h.entries, List.getElem?_append_right (Nat.le_refl _), Nat.sub_self, List.getElem?_cons_zero]

theorem Cut.move (h : m.Cut before k b after) (j : Nat) :
    m.move before.length j = ⟨(before ++ after).insertIdx j (k, b)⟩ := by
  rw [OrderedMap.move, h.entry, h.entries, eraseIdx_length]

theorem notMem_keys_append :
    k ∉ (before ++ after).map (·.1) ↔ k ∉ before.map (·.1) ∧ k ∉ after.map (·.1) := by
  rw [List.map_append, List.mem_append, not_or]

/-- A cut of two parts put together is a cut of one of them. -/
theorem Cut.in_part {front back : List (κ × α)}
    (h : (⟨before ++ after⟩ : OrderedMap κ α).Cut front k b back) :
    (∃ mid, before = front ++ (k, b) :: mid ∧ back = mid ++ after) ∨
      ∃ mid, front = before ++ mid ∧ after = mid ++ (k, b) :: back := by
  rcases List.append_eq_append_iff.mp h.entries with ⟨mid, first, last⟩ | ⟨mid, first, last⟩
  · exact Or.inr ⟨mid, first, last⟩
  · cases mid with
    | nil => exact Or.inr ⟨[], by simpa using first.symm, by simpa using last.symm⟩
    | cons e mid =>
      obtain ⟨rfl, rest⟩ := List.cons.inj last
      exact Or.inl ⟨mid, first, rest⟩

variable [DecidableEq κ]

theorem other_key {entries : List (κ × α)} (h : k ∉ entries.map (·.1)) :
    ∀ e ∈ entries, decide (e.1 ≠ k) = true := by
  intro e he
  rw [decide_eq_true_eq]
  rintro rfl
  exact h (List.mem_map_of_mem he)

theorem filter_of_notMem {entries : List (κ × α)} (h : k ∉ entries.map (·.1)) :
    entries.filter (·.1 ≠ k) = entries :=
  List.filter_eq_self.mpr (other_key h)

theorem position?_eq_none_iff : m.position? k = none ↔ k ∉ m.keys := by
  rw [position?, List.findIdx?_eq_none_iff, keys, List.mem_map]
  constructor
  · rintro none ⟨e, he, rfl⟩
    simpa using none e he
  · intro new e he
    exact beq_eq_false_iff_ne.mpr fun same => new ⟨e, he, same⟩

/-- A map without repeated keys is cut at every key that it has. -/
theorem exists_cut (unique : m.keys.Nodup) {i : Nat} (found : m.position? k = some i) :
    ∃ before b after, m.Cut before k b after ∧ before.length = i := by
  obtain ⟨bound, here, _⟩ := List.findIdx?_eq_some_iff_getElem.mp found
  have same : m.entries[i].1 = k := eq_of_beq here
  have split : m.entries = m.entries.take i ++ (k, m.entries[i].2) :: m.entries.drop (i + 1) := by
    subst same
    exact (List.take_append_drop i m.entries).symm.trans
      (congrArg (m.entries.take i ++ ·) (List.drop_eq_getElem_cons bound))
  have once : k ∉ (m.entries.take i).map (·.1) ∧ k ∉ (m.entries.drop (i + 1)).map (·.1) := by
    rw [keys, split, List.map_append, List.map_cons, List.nodup_append, List.nodup_cons] at unique
    obtain ⟨_, ⟨behind, _⟩, apart⟩ := unique
    exact ⟨fun earlier => apart k earlier k List.mem_cons_self rfl, behind⟩
  exact ⟨_, _, _, ⟨split, once.1, once.2⟩, by rw [List.length_take]; omega⟩

theorem filter_middle (first : k ∉ before.map (·.1)) (last : k ∉ after.map (·.1)) :
    (before ++ (k, b) :: after).filter (·.1 ≠ k) = before ++ after := by
  rw [List.filter_append, List.filter_cons_of_neg (by simp), filter_of_notMem first,
    filter_of_notMem last]

theorem put_middle (first : k ∉ before.map (·.1)) :
    put k a (before ++ (k, b) :: after) = before ++ (k, a) :: after := by
  induction before with
  | nil => exact if_pos rfl
  | cons d rest ih =>
    rw [List.map_cons, List.mem_cons, not_or] at first
    rw [List.cons_append, put, if_neg (Ne.symm first.1), ih first.2, List.cons_append]

theorem Cut.erase (h : m.Cut before k b after) : m.erase k = ⟨before ++ after⟩ := by
  rw [OrderedMap.erase, h.entries, filter_middle h.before h.after]

theorem Cut.insert (h : m.Cut before k b after) (a : α) :
    m.insert k a = ⟨before ++ (k, a) :: after⟩ := by
  rw [OrderedMap.insert, h.entries, put_middle h.before]

theorem Cut.get? (h : m.Cut before k b after) (unique : m.keys.Nodup) : m.get? k = some b := by
  rw [get?_eq_some_iff unique, h.entries]
  exact List.mem_append_right _ List.mem_cons_self

theorem Cut.rekey (h : m.Cut before k b after) (j : κ) (a : α) :
    m.rekey k j a = ⟨before.filter (·.1 ≠ j) ++ (j, a) :: after.filter (·.1 ≠ j)⟩ := by
  rw [OrderedMap.rekey, h.entries, List.takeWhile_append_of_pos (other_key h.before),
    List.dropWhile_append_of_pos (other_key h.before)]
  simp

/-! ## Putting entries in -/

theorem insertAt_of_notMem (new : k ∉ m.keys) (i : Nat) (a : α) :
    m.insertAt i k a = ⟨m.entries.insertIdx i (k, a)⟩ := by
  rw [insertAt, position?_eq_none_iff.mpr new]

theorem insertAt_zero (unique : m.keys.Nodup) (k : κ) (a : α) :
    m.insertAt 0 k a = m.putFirst k a := by
  cases found : m.position? k with
  | none =>
    have new := position?_eq_none_iff.mp found
    rw [insertAt_of_notMem new, putFirst, OrderedMap.erase, filter_of_notMem new,
      List.insertIdx_zero]
  | some i =>
    obtain ⟨before, b, after, cut, rfl⟩ := exists_cut unique found
    simp only [insertAt, found]
    rw [cut.setAt, (cut.replaced a).move, putFirst, cut.erase, List.insertIdx_zero]

/-- An entry that is put in and moved to the end stands there wherever its key was. -/
theorem move_insert (unique : m.keys.Nodup) (k : κ) (a : α) :
    (m.insert k a).move ((m.position? k).getD m.size) ((m.insert k a).size - 1) =
      m.putLast k a := by
  cases found : m.position? k with
  | none =>
    have new := position?_eq_none_iff.mp found
    have last : (⟨m.entries ++ [(k, a)]⟩ : OrderedMap κ α).Cut m.entries k a [] :=
      ⟨rfl, new, List.not_mem_nil⟩
    have inserted : m.insert k a = ⟨m.entries ++ [(k, a)]⟩ := by
      rw [OrderedMap.insert, put_of_notMem new]
    rw [inserted, Option.getD_none, size, last.move, size, putLast, OrderedMap.erase,
      filter_of_notMem new, List.append_nil, List.length_append, List.length_singleton,
      Nat.add_sub_cancel, List.insertIdx_length_self]
  | some i =>
    obtain ⟨before, b, after, cut, rfl⟩ := exists_cut unique found
    have count : (before ++ (k, a) :: after).length - 1 = (before ++ after).length := by
      simp only [List.length_append, List.length_cons]
      omega
    rw [cut.insert, Option.getD_some, (cut.replaced a).move, size, count,
      List.insertIdx_length_self, putLast, cut.erase]

/-- An entry that drops another of its key stands between the others that stood before its place and
those that stood behind it. -/
theorem supplant_eq (unique : ((before ++ after).map (·.1)).Nodup) (k : κ) (a : α) :
    (⟨before ++ after⟩ : OrderedMap κ α).supplant before.length k a =
      ⟨before.filter (·.1 ≠ k) ++ (k, a) :: after.filter (·.1 ≠ k)⟩ := by
  cases found : (⟨before ++ after⟩ : OrderedMap κ α).position? k with
  | none =>
    have new := position?_eq_none_iff.mp found
    have apart := notMem_keys_append.mp new
    have place : min before.length (before ++ after).length = before.length := by
      rw [List.length_append]
      omega
    simp only [supplant, found]
    rw [insertAt_of_notMem new, size, place, insertIdx_length, filter_of_notMem apart.1,
      filter_of_notMem apart.2]
  | some twin =>
    obtain ⟨front, b, back, cut, rfl⟩ := exists_cut unique found
    have new : k ∉ (⟨front ++ back⟩ : OrderedMap κ α).keys :=
      notMem_keys_append.mpr ⟨cut.before, cut.after⟩
    simp only [supplant, found]
    rw [cut.eraseAt, insertAt_of_notMem new, size]
    -- Where the twin stood before the place, the place is one less, as is the part before it.
    rcases cut.in_part with ⟨mid, rfl, rfl⟩ | ⟨mid, rfl, rfl⟩
    · have apart := notMem_keys_append.mp cut.after
      have place : min (if front.length < (front ++ (k, b) :: mid).length then
          (front ++ (k, b) :: mid).length - 1 else (front ++ (k, b) :: mid).length)
          (front ++ (mid ++ after)).length = (front ++ mid).length := by
        simp only [List.length_append, List.length_cons]
        split <;> omega
      rw [filter_middle cut.before apart.1, filter_of_notMem apart.2, place,
        ← List.append_assoc, insertIdx_length]
    · have apart := notMem_keys_append.mp cut.before
      have place : min (if (before ++ mid).length < before.length then before.length - 1
          else before.length) (before ++ mid ++ back).length = before.length := by
        simp only [List.length_append]
        split <;> omega
      rw [filter_middle apart.2 cut.after, filter_of_notMem apart.1, place,
        List.append_assoc, insertIdx_length]

end OrderedMap

namespace Keyed

variable {α κ : Type} [DecidableEq κ] {keyOf : α → κ} {s : Keyed keyOf} {k old j : κ} {a : α}

/-! ## Keyed lists by place -/

theorem WellFormed.pushBack_eq (w : s.WellFormed) (a : α) : s.pushBack a = s.append a := by
  simp only [pushBack, Keyed.append]
  rw [OrderedMap.move_insert w.items.unique]

theorem WellFormed.pushFront_eq (w : s.WellFormed) (a : α) : s.pushFront a = s.prepend a := by
  rw [pushFront, OrderedMap.insertAt_zero w.items.unique, Keyed.prepend]

theorem WellFormed.takeOut_eq (w : s.WellFormed) (k : κ) :
    s.takeOut k = (s.remove k, s.find? k) := by
  cases found : s.items.position? k with
  | none =>
    have absent := OrderedMap.position?_eq_none_iff.mp found
    simp only [takeOut, found]
    rw [Keyed.remove, find?, OrderedMap.erase, OrderedMap.filter_of_notMem absent,
      OrderedMap.get?_eq_none_iff.mpr absent]
  | some i =>
    obtain ⟨before, b, after, cut, rfl⟩ := OrderedMap.exists_cut w.items.unique found
    simp only [takeOut, found]
    rw [Keyed.remove, find?, cut.eraseAt, cut.erase, cut.entry, cut.get? w.items.unique, Option.map_some]

/-- An item of another key is put in under it; the selection goes with it. -/
theorem replace_other_key (present : old ∈ s.keys) (other : keyOf a ≠ old) : s.replace old a =
    ⟨s.items.rekey old (keyOf a) a, if s.selected.contains old then
      withKey (s.selected.filter (· ≠ old)) (keyOf a) else s.selected.filter (· ≠ old)⟩ := by
  rw [replace, contains_iff.mpr present, if_neg (by decide), if_neg other]

theorem WellFormed.exchange_eq (w : s.WellFormed) (old : κ) (a : α) :
    s.exchange old a = (s.replace old a, s.contains old) := by
  cases found : s.items.position? old with
  | none =>
    have absent : s.contains old = false :=
      Bool.eq_false_iff.mpr fun present =>
        OrderedMap.position?_eq_none_iff.mp found (contains_iff.mp present)
    simp only [exchange, found]
    rw [Keyed.replace, absent]
    rfl
  | some i =>
    obtain ⟨before, b, after, cut, rfl⟩ := OrderedMap.exists_cut w.items.unique found
    have present : old ∈ s.keys := by
      rw [keys, OrderedMap.keys, cut.entries, List.map_append, List.map_cons]
      exact List.mem_append_right _ List.mem_cons_self
    simp only [exchange, found]
    by_cases same : keyOf a = old
    · rw [if_pos same, Keyed.replace_own_key present same, contains_iff.mpr present, cut.setAt,
        cut.insert]
    · have rest : ((before ++ after).map (·.1)).Nodup := by
        have others := OrderedMap.nodup_keys_erase (k := old) w.items.unique
        rwa [cut.erase] at others
      rw [if_neg same, replace_other_key present same, contains_iff.mpr present, cut.eraseAt,
        OrderedMap.supplant_eq rest, cut.rekey]

/-- The list after an operation that goes by places. -/
def editInPlace (s : Keyed keyOf) : Edit α κ → Keyed keyOf
  | .append a => s.pushBack a
  | .prepend a => s.pushFront a
  | .remove k => (s.takeOut k).1
  | .replace old a => (s.exchange old a).1
  | other => s.edit other

def editsInPlace (s : Keyed keyOf) (es : List (Edit α κ)) : Keyed keyOf := es.foldl editInPlace s

theorem WellFormed.editInPlace_eq (w : s.WellFormed) (e : Edit α κ) : s.editInPlace e = s.edit e := by
  cases e with
  | append a => exact w.pushBack_eq a
  | prepend a => exact w.pushFront_eq a
  | remove k => exact congrArg Prod.fst (w.takeOut_eq k)
  | replace old a => exact congrArg Prod.fst (w.exchange_eq old a)
  | _ => rfl

theorem WellFormed.editsInPlace_eq (w : s.WellFormed) (es : List (Edit α κ)) :
    s.editsInPlace es = s.edits es := by
  induction es generalizing s with
  | nil => rfl
  | cons e rest ih =>
    rw [editsInPlace, List.foldl_cons, w.editInPlace_eq e]
    exact ih (w.edit e)

/-! ## What an item put in does to the others -/

theorem toList_prepend (w : s.WellFormed) :
    (s.prepend a).toList = a :: s.toList.filter (keyOf · ≠ keyOf a) := by
  have others : ((s.items.erase (keyOf a)).entries.map (·.2)) =
      s.toList.filter (keyOf · ≠ keyOf a) := toList_remove w
  rw [prepend, toList, OrderedMap.values, OrderedMap.putFirst, List.map_cons, others]

theorem toList_replace (w : s.WellFormed) (present : old ∈ s.keys) :
    (s.replace old a).toList = s.toList.filterMap fun b =>
      if keyOf b = old then some a else if keyOf b = keyOf a then none else some b := by
  by_cases same : keyOf a = old
  · rw [toList_replace_own_key w present same, ← List.filterMap_eq_map]
    apply List.filterMap_congr
    intro b _
    rw [Function.comp_apply, same]
    split <;> rfl
  · rw [replace_other_key present same, toList, OrderedMap.values, OrderedMap.entries_rekey w.items.unique present, w.items.entries_eq,
      List.filterMap_map, List.map_filterMap]
    apply List.filterMap_congr
    intro b _
    rw [Function.comp_apply]
    split
    · rfl
    · split <;> rfl

/-- The selection goes from the old key to the new one, which keeps its own. -/
theorem mem_selected_replace (w : s.WellFormed) (present : old ∈ s.keys) :
    j ∈ (s.replace old a).selected ↔ (j ∈ s.selected ∧ j ≠ old) ∨
      (j = keyOf a ∧ (old ∈ s.selected ∨ (keyOf a ∈ s.selected ∧ keyOf a ∈ s.keys))) := by
  have loaded := w.selected_loaded (keyOf a)
  by_cases same : keyOf a = old
  · subst same
    rw [replace_own_key present rfl]
    by_cases here : j = keyOf a <;> simp [here, present]
  · rw [replace_other_key present same]
    dsimp only
    split
    · next moved =>
      rw [List.contains_iff_mem] at moved
      rw [mem_withKey, List.mem_filter, decide_eq_true_eq]
      simp [moved]
    · next unmoved =>
      rw [List.contains_iff_mem] at unmoved
      rw [List.mem_filter, decide_eq_true_eq]
      constructor
      · exact Or.inl
      · rintro (stays | ⟨rfl, moved | ⟨selected, _⟩⟩)
        · exact stays
        · exact absurd moved unmoved
        · exact ⟨selected, same⟩

/-- The keyed list is a list of items with distinct keys. An item that is put in has the place that
the operation gives it, any other of its key is gone, and the rest stay in their order. -/
structure ActsAsList (s : Keyed keyOf) : Prop where
  unique : (s.toList.map keyOf).Nodup
  pushBack : ∀ a, (s.pushBack a).toList = s.toList.filter (keyOf · ≠ keyOf a) ++ [a]
  pushFront : ∀ a, (s.pushFront a).toList = a :: s.toList.filter (keyOf · ≠ keyOf a)
  load : ∀ items, (s.load items).toList = latestByKey keyOf items
  takeOut : ∀ k, (s.takeOut k).1.toList = s.toList.filter (keyOf · ≠ k)
  taken : ∀ k a, (s.takeOut k).2 = some a ↔ a ∈ s.toList ∧ keyOf a = k
  exchange_absent : ∀ old a, old ∉ s.toList.map keyOf → s.exchange old a = (s, false)
  exchange_present : ∀ old a, old ∈ s.toList.map keyOf → (s.exchange old a).2 = true ∧
    (s.exchange old a).1.toList = s.toList.filterMap fun b =>
      if keyOf b = old then some a else if keyOf b = keyOf a then none else some b
  selected_exchange : ∀ old a, old ∈ s.toList.map keyOf →
    ∀ j, j ∈ (s.exchange old a).1.selected ↔ (j ∈ s.selected ∧ j ≠ old) ∨
      (j = keyOf a ∧ (old ∈ s.selected ∨ (keyOf a ∈ s.selected ∧ keyOf a ∈ s.toList.map keyOf)))

theorem WellFormed.actsAsList (w : s.WellFormed) : s.ActsAsList where
  unique := w.nodup_keys
  pushBack a := by rw [w.pushBack_eq, toList_append w]
  pushFront a := by rw [w.pushFront_eq, toList_prepend w]
  load := toList_load
  takeOut k := by rw [w.takeOut_eq, toList_remove w]
  taken k a := by rw [w.takeOut_eq, w.find?_eq_some_iff]
  exchange_absent old a absent := by
    rw [← w.keys_eq] at absent
    have missing : s.contains old = false := Bool.eq_false_iff.mpr (absent ∘ contains_iff.mp)
    rw [w.exchange_eq, Keyed.replace, missing]
    rfl
  exchange_present old a present := by
    rw [← w.keys_eq] at present
    rw [w.exchange_eq]
    exact ⟨contains_iff.mpr present, toList_replace w present⟩
  selected_exchange old a present j := by
    rw [← w.keys_eq] at present ⊢
    rw [w.exchange_eq]
    exact mem_selected_replace w present

/-- Whatever was done to it before, a keyed list acts as a list of items with distinct keys. -/
theorem actsAsList_editsInPlace (keyOf : α → κ) (es : List (Edit α κ)) :
    ((empty : Keyed keyOf).editsInPlace es).ActsAsList := by
  rw [wellFormed_empty.editsInPlace_eq es]
  exact (wellFormed_empty.edits es).actsAsList

/-- The third of three items gives way to one of the first's key. -/
theorem exchange_for_first_key :
    let s := (empty : Keyed (Prod.fst : Nat × Char → Nat)).editsInPlace
      [.load [(1, 'a'), (2, 'b'), (3, 'c')], .select 3]
    let after := s.exchange 3 (1, 'z')
    after.2 = true ∧ after.1.toList = [(2, 'b'), (1, 'z')] ∧
      1 ∈ after.1.selected ∧ 3 ∉ after.1.selected := by
  intro s after
  have acts : s.ActsAsList := actsAsList_editsInPlace _ _
  have present : 3 ∈ s.toList.map Prod.fst := by decide
  have moves := acts.selected_exchange 3 (1, 'z') present
  obtain ⟨done, list⟩ := acts.exchange_present 3 (1, 'z') present
  refine ⟨done, list.trans (by decide), ?_, ?_⟩
  · rw [moves]
    decide
  · rw [moves]
    decide

end Keyed

end BackOffice
