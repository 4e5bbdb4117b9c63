import BackOffice.OrderedMap
import Mathlib.Data.List.Induction
import Mathlib.Data.List.Nodup

/-!
# Ordered maps as lists of entries

What each operation does to the entries of an ordered map. A key that is new comes last, a key that
is there keeps its place, and no operation makes a key occur twice. A map made of pairs has each key
in the place of its first pair, with the value of its last. The last part is about maps whose values
stand under keys of their own; these are told by their values.
-/
namespace BackOffice.OrderedMap

variable {κ α : Type} [DecidableEq κ] {m : OrderedMap κ α} {k : κ} {a : α}

theorem contains_iff : m.contains k = true ↔ k ∈ m.keys := by
  simp [contains, keys]

theorem get?_eq_none_iff : m.get? k = none ↔ k ∉ m.keys := by
  simp only [get?, List.lookup_eq_none_iff, keys, List.mem_map, not_exists, not_and, bne_iff_ne]
  constructor
  · intro h e he same
    exact h e he same.symm
  · intro h e he same
    exact h e he same.symm

theorem mem_of_get? (h : m.get? k = some a) : (k, a) ∈ m.entries := by
  obtain ⟨before, after, split, _⟩ := List.lookup_eq_some_iff.mp h
  rw [split]
  exact List.mem_append_right _ List.mem_cons_self

theorem mem_keys_of_get? (h : m.get? k = some a) : k ∈ m.keys :=
  List.mem_map.mpr ⟨(k, a), mem_of_get? h, rfl⟩

omit [DecidableEq κ] in
/-- Where no key occurs twice, an entry is known by its key. -/
theorem entry_unique (unique : m.keys.Nodup) {d e : κ × α} (hd : d ∈ m.entries)
    (he : e ∈ m.entries) (same : d.1 = e.1) : d = e :=
  List.inj_on_of_nodup_map unique hd he same

theorem get?_eq_some_iff (unique : m.keys.Nodup) : m.get? k = some a ↔ (k, a) ∈ m.entries := by
  constructor
  · exact mem_of_get?
  · intro h
    cases found : m.get? k with
    | none => exact absurd (List.mem_map.mpr ⟨(k, a), h, rfl⟩) (get?_eq_none_iff.mp found)
    | some b =>
      have same := entry_unique unique (mem_of_get? found) h rfl
      rw [(Prod.mk.inj same).2]

/-- Where no key occurs twice, at most one entry stands under a key. -/
theorem filter_key (unique : m.keys.Nodup) (k : κ) :
    m.entries.filter (·.1 = k) = ((m.get? k).map (k, ·)).toList := by
  rw [keys] at unique
  rw [get?]
  generalize m.entries = entries at unique
  induction entries with
  | nil => rfl
  | cons e rest ih =>
    obtain ⟨first, others⟩ := List.nodup_cons.mp unique
    by_cases here : e.1 = k
    · have none : rest.filter (·.1 = k) = [] := by
        refine List.filter_eq_nil_iff.mpr fun d hd same => first ?_
        exact List.mem_map.mpr ⟨d, hd, (of_decide_eq_true same).trans here.symm⟩
      obtain ⟨j, b⟩ := e
      subst here
      simp [none]
    · rw [List.filter_cons_of_neg (by simpa using here), ih others, List.lookup_cons,
        beq_false_of_ne (Ne.symm here)]

/-! ## Insertion -/

theorem put_of_notMem {entries : List (κ × α)} (h : k ∉ entries.map (·.1)) :
    put k a entries = entries ++ [(k, a)] := by
  induction entries with
  | nil => rfl
  | cons e rest ih =>
    simp only [List.map_cons, List.mem_cons, not_or] at h
    rw [put, if_neg (Ne.symm h.1), ih h.2, List.cons_append]

theorem put_of_mem {entries : List (κ × α)} (unique : (entries.map (·.1)).Nodup)
    (h : k ∈ entries.map (·.1)) :
    put k a entries = entries.map fun e => if e.1 = k then (k, a) else e := by
  induction entries with
  | nil => cases h
  | cons e rest ih =>
    simp only [List.map_cons, List.nodup_cons] at unique
    by_cases same : e.1 = k
    · have others : rest.map (fun e => if e.1 = k then (k, a) else e) = rest := by
        refine (List.map_congr_left fun d hd => if_neg ?_).trans (List.map_id' rest)
        intro hk
        exact unique.1 (List.mem_map.mpr ⟨d, hd, hk.trans same.symm⟩)
      rw [put, if_pos same, List.map_cons, if_pos same, others]
    · have later : k ∈ rest.map (·.1) := by
        simpa [Ne.symm same] using h
      rw [put, if_neg same, List.map_cons, if_neg same, ih unique.2 later]

theorem put_map {β : Type} (f : α → β) (k : κ) (a : α) (entries : List (κ × α)) :
    put k (f a) (entries.map fun e => (e.1, f e.2)) =
      (put k a entries).map fun e => (e.1, f e.2) := by
  induction entries with
  | nil => rfl
  | cons e rest ih =>
    by_cases same : e.1 = k
    · rw [List.map_cons, put, put, if_pos same, if_pos same, List.map_cons]
    · rw [List.map_cons, put, put, if_neg same, if_neg same, List.map_cons, ih]

theorem entries_insert_of_notMem (h : k ∉ m.keys) :
    (m.insert k a).entries = m.entries ++ [(k, a)] :=
  put_of_notMem h

theorem entries_insert_of_mem (unique : m.keys.Nodup) (h : k ∈ m.keys) :
    (m.insert k a).entries = m.entries.map fun e => if e.1 = k then (k, a) else e :=
  put_of_mem unique h

theorem mem_of_mem_insert (unique : m.keys.Nodup) {e : κ × α} (h : e ∈ (m.insert k a).entries) :
    e = (k, a) ∨ e ∈ m.entries := by
  by_cases present : k ∈ m.keys
  · rw [entries_insert_of_mem unique present, List.mem_map] at h
    obtain ⟨d, hd, rfl⟩ := h
    split
    · exact Or.inl rfl
    · exact Or.inr hd
  · rw [entries_insert_of_notMem present, List.mem_append, List.mem_singleton] at h
    exact h.symm

theorem entries_insert_if_contains (unique : m.keys.Nodup) :
    (if m.contains k then m.insert k a else m).entries =
      m.entries.map fun e => if e.1 = k then (k, a) else e := by
  by_cases present : k ∈ m.keys
  · rw [if_pos (contains_iff.mpr present), entries_insert_of_mem unique present]
  · rw [if_neg (present ∘ contains_iff.mp)]
    refine ((List.map_congr_left fun e he => if_neg ?_).trans (List.map_id' _)).symm
    intro same
    exact present (List.mem_map.mpr ⟨e, he, same⟩)

theorem keys_put (entries : List (κ × α)) : (put k a entries).map (·.1) =
    if k ∈ entries.map (·.1) then entries.map (·.1) else entries.map (·.1) ++ [k] := by
  induction entries with
  | nil => rfl
  | cons e rest ih =>
    by_cases same : e.1 = k
    · simp [put, same]
    · rw [put, if_neg same, List.map_cons, ih]
      by_cases later : k ∈ rest.map (·.1)
      · simp [later]
      · simp [later, Ne.symm same]

theorem keys_insert : (m.insert k a).keys = if k ∈ m.keys then m.keys else m.keys ++ [k] :=
  keys_put m.entries

theorem mem_keys_insert {j : κ} : j ∈ (m.insert k a).keys ↔ j = k ∨ j ∈ m.keys := by
  rw [keys_insert]
  split
  · constructor
    · exact Or.inr
    · rintro (rfl | h)
      · assumption
      · exact h
  · rw [List.mem_append, List.mem_singleton, or_comm]

theorem nodup_keys_insert (unique : m.keys.Nodup) : (m.insert k a).keys.Nodup := by
  rw [keys_insert]
  split
  · exact unique
  · next absent => exact List.nodup_append_comm.mp (List.nodup_cons.mpr ⟨absent, unique⟩)

theorem get?_insert (unique : m.keys.Nodup) {j : κ} :
    (m.insert k a).get? j = if j = k then some a else m.get? j := by
  have unique' : (m.insert k a).keys.Nodup := nodup_keys_insert unique
  by_cases h : j = k
  · subst h
    rw [if_pos rfl, get?_eq_some_iff unique']
    by_cases present : j ∈ m.keys
    · obtain ⟨e, he, same⟩ := List.mem_map.mp present
      rw [entries_insert_of_mem unique present]
      exact List.mem_map.mpr ⟨e, he, if_pos same⟩
    · rw [entries_insert_of_notMem present]
      exact List.mem_append_right _ (List.mem_singleton.mpr rfl)
  · rw [if_neg h]
    cases found : m.get? j with
    | none =>
      rw [get?_eq_none_iff, mem_keys_insert]
      rintro (same | present)
      · exact h same
      · exact get?_eq_none_iff.mp found present
    | some b =>
      have old := mem_of_get? found
      rw [get?_eq_some_iff unique']
      by_cases present : k ∈ m.keys
      · rw [entries_insert_of_mem unique present]
        exact List.mem_map.mpr ⟨(j, b), old, if_neg h⟩
      · rw [entries_insert_of_notMem present]
        exact List.mem_append_left _ old

/-- A key that is given the value it has changes nothing. -/
theorem insert_of_get? (h : m.get? k = some a) : m.insert k a = m := by
  have same : ∀ entries : List (κ × α), entries.lookup k = some a → put k a entries = entries := by
    intro entries
    induction entries with
    | nil => nofun
    | cons e rest ih =>
      intro found
      obtain ⟨j, b⟩ := e
      by_cases here : j = k
      · subst here
        simp only [List.lookup_cons_self, Option.some.injEq] at found
        simp only [put, if_true, found]
      · have later : rest.lookup k = some a := by
          simpa only [List.lookup_cons, beq_false_of_ne (Ne.symm here)] using found
        simp only [put, if_neg here, ih later]
  exact congrArg OrderedMap.mk (same m.entries h)

/-- A map without repeated keys is told by its keys in order and what it has for each. -/
theorem entries_eq_filterMap (unique : m.keys.Nodup) :
    m.entries = m.keys.filterMap fun k => (m.get? k).map (k, ·) := by
  rw [keys, List.filterMap_map]
  have each : ∀ e ∈ m.entries,
      ((fun k => (m.get? k).map (k, ·)) ∘ fun e : κ × α => e.1) e = some e := by
    intro e he
    rw [Function.comp_apply, (get?_eq_some_iff unique).mpr he, Option.map_some]
  rw [List.filterMap_congr each, List.filterMap_some]

/-! ## Removal -/

theorem keys_erase : (m.erase k).keys = m.keys.filter (· ≠ k) := by
  rw [erase, keys, keys, List.filter_map]
  rfl

theorem mem_keys_erase {j : κ} : j ∈ (m.erase k).keys ↔ j ∈ m.keys ∧ j ≠ k := by
  rw [keys_erase, List.mem_filter, decide_eq_true_eq]

theorem nodup_keys_erase (unique : m.keys.Nodup) : (m.erase k).keys.Nodup := by
  rw [keys_erase]
  exact unique.filter _

theorem get?_erase {j : κ} : (m.erase k).get? j = if j = k then none else m.get? j := by
  rw [get?, get?, erase]
  generalize m.entries = entries
  induction entries with
  | nil => simp
  | cons e rest ih =>
    by_cases same : e.1 = k
    · rw [List.filter_cons_of_neg (by simpa using same), ih]
      by_cases h : j = k
      · simp [h]
      · rw [if_neg h, if_neg h, List.lookup_cons, beq_false_of_ne (same ▸ h)]
    · rw [List.filter_cons_of_pos (by simpa using same), List.lookup_cons, ih, List.lookup_cons]
      by_cases here : j = e.1
      · simp [here, same]
      · rw [beq_false_of_ne here]

theorem get?_putLast {j : κ} : (m.putLast k a).get? j = if j = k then some a else m.get? j := by
  have last : (m.putLast k a).get? j = ((m.erase k).get? j).or ([(k, a)].lookup j) :=
    List.lookup_append
  rw [last, get?_erase]
  by_cases h : j = k
  · simp [h]
  · simp [h, List.lookup_cons, beq_false_of_ne h]

theorem keys_putLast : (m.putLast k a).keys = (m.erase k).keys ++ [k] := by
  rw [putLast, keys, keys, List.map_append]
  rfl

/-! ## Places -/

theorem position?_eq_some_iff (unique : m.keys.Nodup) {i : Nat} :
    m.position? k = some i ↔ m.keys[i]? = some k := by
  rw [position?, List.findIdx?_eq_some_iff_getElem, List.getElem?_eq_some_iff]
  constructor
  · rintro ⟨bound, found, _⟩
    exact ⟨by simpa [keys] using bound, by simpa [keys] using found⟩
  · rintro ⟨bound, found⟩
    refine ⟨by simpa [keys] using bound, by simpa [keys] using found, ?_⟩
    intro j earlier same
    have there : m.keys[j] = k := by simpa [keys] using same
    have one : j = i := unique.getElem_inj_iff.mp (there.trans found.symm)
    omega

/-- The new entry stands in the place of the old one, and no other has its key. -/
theorem entries_rekey (unique : m.keys.Nodup) {old : κ} (present : old ∈ m.keys) :
    (m.rekey old k a).entries = m.entries.filterMap fun e =>
      if e.1 = old then some (k, a) else if e.1 = k then none else some e := by
  rw [rekey]
  rw [keys] at unique present
  generalize m.entries = entries at unique present
  induction entries with
  | nil => cases present
  | cons e rest ih =>
    obtain ⟨first, others⟩ := List.nodup_cons.mp unique
    by_cases same : e.1 = old
    · have kept : rest.filterMap (fun e =>
          if e.1 = old then some (k, a) else if e.1 = k then none else some e) =
          rest.filter (·.1 ≠ k) := by
        rw [← List.filterMap_eq_filter]
        refine List.filterMap_congr fun d hd => ?_
        have other : d.1 ≠ old := fun h =>
          first (List.mem_map.mpr ⟨d, hd, h.trans same.symm⟩)
        rw [if_neg other]
        by_cases h : d.1 = k <;> simp [h, Option.guard]
      simp [same, kept]
    · have later : old ∈ rest.map (·.1) := by
        simpa [Ne.symm same] using present
      have tail := ih others later
      rw [List.takeWhile_cons_of_pos (by simpa using same),
        List.dropWhile_cons_of_pos (by simpa using same), List.filterMap_cons, if_neg same]
      by_cases h : e.1 = k
      · simpa [h] using tail
      · simpa [h] using tail

theorem keys_rekey (unique : m.keys.Nodup) {old : κ} (present : old ∈ m.keys) :
    (m.rekey old k a).keys = m.keys.filterMap fun j =>
      if j = old then some k else if j = k then none else some j := by
  rw [keys, entries_rekey unique present, keys, List.filterMap_map, List.map_filterMap]
  refine List.filterMap_congr fun e _ => ?_
  rw [Function.comp_apply]
  split
  · rfl
  · split <;> rfl

theorem mem_keys_rekey (unique : m.keys.Nodup) {old j : κ} (present : old ∈ m.keys) :
    j ∈ (m.rekey old k a).keys ↔ j = k ∨ (j ∈ m.keys ∧ j ≠ old) := by
  rw [keys_rekey unique present, List.mem_filterMap]
  constructor
  · rintro ⟨i, hi, h⟩
    split at h
    · exact .inl (Option.some.inj h).symm
    · next other =>
      split at h
      · cases h
      · cases h
        exact .inr ⟨hi, other⟩
  · rintro (rfl | ⟨stays, other⟩)
    · exact ⟨old, present, if_pos rfl⟩
    · by_cases h : j = k
      · exact ⟨old, present, by rw [if_pos rfl, h]⟩
      · exact ⟨j, stays, by rw [if_neg other, if_neg h]⟩

theorem nodup_keys_rekey (unique : m.keys.Nodup) {old : κ} (present : old ∈ m.keys) :
    (m.rekey old k a).keys.Nodup := by
  rw [keys_rekey unique present]
  refine unique.filterMap fun i j l hi hj => ?_
  simp only [Option.mem_def] at hi hj
  grind

/-! ## Keys in order of first appearance -/

theorem eraseDups_concat (ks : List κ) (k : κ) :
    (ks ++ [k]).eraseDups = if k ∈ ks then ks.eraseDups else ks.eraseDups ++ [k] := by
  rw [List.eraseDups_append]
  by_cases h : k ∈ ks
  · simp [h, List.removeAll]
  · simp [h, List.removeAll, List.eraseDups_cons]

theorem nodup_eraseDups (ks : List κ) : ks.eraseDups.Nodup := by
  induction ks using List.reverseRecOn with
  | nil => exact List.nodup_nil
  | append_singleton ks k ih =>
    rw [eraseDups_concat]
    split
    · exact ih
    · next new =>
      have absent : k ∉ ks.eraseDups := fun h => new (List.mem_eraseDups.mp h)
      exact List.nodup_append_comm.mp (List.nodup_cons.mpr ⟨absent, ih⟩)

theorem eraseDups_of_nodup {ks : List κ} (unique : ks.Nodup) : ks.eraseDups = ks := by
  induction ks using List.reverseRecOn with
  | nil => rfl
  | append_singleton ks k ih =>
    obtain ⟨others, _, apart⟩ := List.nodup_append'.mp unique
    have new : k ∉ ks := fun old => apart old (List.mem_singleton.mpr rfl)
    rw [eraseDups_concat, if_neg new, ih others]

/-- Keys that appeared before are not new, so what follows them may be freed of repetitions first. -/
theorem eraseDups_append_eraseDups (ks js : List κ) :
    (ks ++ js.eraseDups).eraseDups = (ks ++ js).eraseDups := by
  induction js using List.reverseRecOn with
  | nil => rfl
  | append_singleton js j ih =>
    rw [← List.append_assoc, eraseDups_concat (ks ++ js), eraseDups_concat js]
    by_cases old : j ∈ js
    · rw [if_pos old, if_pos (List.mem_append_right ks old), ih]
    · rw [if_neg old, ← List.append_assoc, eraseDups_concat, ih]
      simp only [List.mem_append, List.mem_eraseDups]

/-- Whatever values are inserted, and even if they depend on the map so far, keys come in the order
in which they first appear. -/
theorem keys_foldl_insert {β : Type} (key : β → κ) (value : OrderedMap κ α → β → α)
    (unique : m.keys.Nodup) (items : List β) :
    (items.foldl (fun m b => m.insert (key b) (value m b)) m).keys =
      (m.keys ++ items.map key).eraseDups := by
  induction items using List.reverseRecOn with
  | nil => rw [List.map_nil, List.append_nil, eraseDups_of_nodup unique, List.foldl_nil]
  | append_singleton items b ih =>
    rw [List.foldl_concat, keys_insert, ih, List.map_append, List.map_singleton,
      ← List.append_assoc, eraseDups_concat]
    simp only [List.mem_eraseDups]

/-! ## Pairs put into a map -/

theorem insertAll_concat (m : OrderedMap κ α) (pairs : List (κ × α)) (e : κ × α) :
    m.insertAll (pairs ++ [e]) = (m.insertAll pairs).insert e.1 e.2 :=
  List.foldl_concat ..

theorem insertAll_append (m : OrderedMap κ α) (pairs more : List (κ × α)) :
    m.insertAll (pairs ++ more) = (m.insertAll pairs).insertAll more :=
  List.foldl_append ..

theorem keys_insertAll (unique : m.keys.Nodup) (pairs : List (κ × α)) :
    (m.insertAll pairs).keys = (m.keys ++ pairs.map (·.1)).eraseDups :=
  keys_foldl_insert Prod.fst (fun _ e => e.2) unique pairs

theorem nodup_keys_insertAll (unique : m.keys.Nodup) (pairs : List (κ × α)) :
    (m.insertAll pairs).keys.Nodup := by
  rw [keys_insertAll unique]
  exact nodup_eraseDups _

/-- What a map holds in the end is the last that was put in under the key, if anything was. -/
theorem get?_insertAll (unique : m.keys.Nodup) (pairs : List (κ × α)) (k : κ) :
    (m.insertAll pairs).get? k = (pairs.reverse.lookup k).or (m.get? k) := by
  induction pairs using List.reverseRecOn with
  | nil => rfl
  | append_singleton pairs e ih =>
    rw [insertAll_concat, get?_insert (nodup_keys_insertAll unique pairs), ih, List.reverse_append,
      List.reverse_singleton, List.singleton_append, List.lookup_cons]
    by_cases h : k = e.1
    · simp [h]
    · rw [if_neg h, beq_false_of_ne h]

/-- Maps without repeated keys are equal if they have the same keys in the same order, and the same
for each of them. -/
theorem eq_of_get? {n : OrderedMap κ α} (unique : m.keys.Nodup) (keys : m.keys = n.keys)
    (same : ∀ k, m.get? k = n.get? k) : m = n := by
  have entries : m.entries = n.entries := by
    rw [entries_eq_filterMap unique, entries_eq_filterMap (keys ▸ unique), keys]
    exact List.filterMap_congr fun k _ => congrArg (Option.map (k, ·)) (same k)
  cases m
  cases n
  exact congrArg OrderedMap.mk entries

/-! ## Maps made of pairs -/

omit [DecidableEq κ] in
theorem nodup_keys_empty : (empty : OrderedMap κ α).keys.Nodup := List.nodup_nil

theorem ofList_concat (pairs : List (κ × α)) (e : κ × α) :
    ofList (pairs ++ [e]) = (ofList pairs).insert e.1 e.2 :=
  insertAll_concat empty pairs e

theorem keys_ofList (pairs : List (κ × α)) :
    (ofList pairs).keys = (pairs.map (·.1)).eraseDups :=
  keys_insertAll nodup_keys_empty pairs

theorem mem_keys_ofList {pairs : List (κ × α)} : k ∈ (ofList pairs).keys ↔ k ∈ pairs.map (·.1) := by
  rw [keys_ofList, List.mem_eraseDups]

theorem nodup_keys_ofList (pairs : List (κ × α)) : (ofList pairs).keys.Nodup :=
  nodup_keys_insertAll nodup_keys_empty pairs

theorem mem_of_mem_ofList {pairs : List (κ × α)} {e : κ × α} (h : e ∈ (ofList pairs).entries) :
    e ∈ pairs := by
  induction pairs using List.reverseRecOn with
  | nil => cases h
  | append_singleton pairs d ih =>
    rw [ofList_concat] at h
    rcases mem_of_mem_insert (nodup_keys_ofList pairs) h with last | old
    · exact List.mem_append_right _ (List.mem_singleton.mpr last)
    · exact List.mem_append_left _ (ih old)

theorem get?_ofList (pairs : List (κ × α)) (k : κ) :
    (ofList pairs).get? k = pairs.reverse.lookup k :=
  (get?_insertAll nodup_keys_empty pairs k).trans Option.or_none

theorem entries_ofList (pairs : List (κ × α)) : (ofList pairs).entries =
    (pairs.map (·.1)).eraseDups.filterMap fun k => (pairs.reverse.lookup k).map (k, ·) := by
  rw [entries_eq_filterMap (nodup_keys_ofList pairs), keys_ofList]
  apply List.filterMap_congr
  intro k _
  rw [get?_ofList]

/-- Pairs of distinct keys are the entries of the map that is made of them. -/
theorem ofList_of_nodup {pairs : List (κ × α)} (unique : (pairs.map (·.1)).Nodup) :
    ofList pairs = ⟨pairs⟩ := by
  induction pairs using List.reverseRecOn with
  | nil => rfl
  | append_singleton pairs e ih =>
    rw [List.map_append, List.map_singleton, List.nodup_append'] at unique
    have new : e.1 ∉ pairs.map (·.1) := fun h => unique.2.2 h (List.mem_singleton.mpr rfl)
    rw [ofList_concat, ih unique.1, insert, put_of_notMem new]

theorem lookup_reverse (unique : m.keys.Nodup) (k : κ) :
    m.entries.reverse.lookup k = m.get? k := by
  rw [← get?_ofList, ofList_of_nodup unique]

/-- A map that is made of the pairs first puts in what the pairs do. -/
theorem insertAll_ofList (unique : m.keys.Nodup) (pairs : List (κ × α)) :
    m.insertAll (ofList pairs).entries = m.insertAll pairs := by
  refine eq_of_get? (nodup_keys_insertAll unique _) ?_ fun k => ?_
  · have firsts : (ofList pairs).entries.map (·.1) = (pairs.map (·.1)).eraseDups :=
      keys_ofList pairs
    rw [keys_insertAll unique, keys_insertAll unique, firsts, eraseDups_append_eraseDups]
  · rw [get?_insertAll unique, get?_insertAll unique, lookup_reverse (nodup_keys_ofList pairs),
      get?_ofList]

/-- A map made of the entries of maps has for each key what the last of them that knows it has. -/
theorem get?_ofList_flatMap {β : Type} {mapOf : β → OrderedMap κ α} {items : List β}
    (unique : ∀ b ∈ items, (mapOf b).keys.Nodup) (k : κ) :
    (ofList (items.flatMap fun b => (mapOf b).entries)).get? k =
      items.reverse.findSome? fun b => (mapOf b).get? k := by
  rw [get?_ofList]
  induction items using List.reverseRecOn with
  | nil => rfl
  | append_singleton items b ih =>
    have others := ih fun b hb => unique b (List.mem_append_left _ hb)
    rw [List.flatMap_append, List.flatMap_singleton, List.reverse_append, List.lookup_append,
      lookup_reverse (unique b (List.mem_append_right _ List.mem_cons_self)), others,
      List.reverse_concat, List.findSome?_cons]
    cases (mapOf b).get? k <;> rfl

/-- Mapping the values before or after the pairs are put in makes no difference. -/
theorem ofList_mapValues {β : Type} (f : α → β) (pairs : List (κ × α)) :
    ofList (pairs.map fun e => (e.1, f e.2)) = (ofList pairs).mapValues f := by
  induction pairs using List.reverseRecOn with
  | nil => rfl
  | append_singleton pairs e ih =>
    rw [List.map_append, List.map_singleton, ofList_concat, ofList_concat, ih, insert, insert,
      mapValues, mapValues]
    exact congrArg _ (put_map f e.1 e.2 (ofList pairs).entries)

/-! ## Values under their own keys -/

theorem lookup_map_key (keyOf : α → κ) (items : List α) (k : κ) :
    (items.map fun a => (keyOf a, a)).lookup k = items.find? (keyOf · = k) := by
  induction items with
  | nil => rfl
  | cons a rest ih =>
    by_cases h : keyOf a = k
    · subst h
      rw [List.map_cons, List.lookup_cons_self, List.find?_cons_of_pos (by simp)]
    · rw [List.map_cons, List.lookup_cons, beq_false_of_ne (Ne.symm h),
        List.find?_cons_of_neg (by simpa using h)]
      exact ih

/-- Every value stands under the key that a function gives it, and no key occurs twice. -/
structure KeyedBy (keyOf : α → κ) (m : OrderedMap κ α) : Prop where
  keyed : ∀ e ∈ m.entries, e.1 = keyOf e.2
  unique : m.keys.Nodup

namespace KeyedBy

variable {keyOf : α → κ}

omit [DecidableEq κ] in
theorem entries_eq (w : m.KeyedBy keyOf) : m.entries = m.values.map fun a => (keyOf a, a) := by
  have each : ∀ e ∈ m.entries, ((fun a => (keyOf a, a)) ∘ Prod.snd) e = e := by
    intro e he
    exact Prod.ext (w.keyed e he).symm rfl
  rw [values, List.map_map, List.map_congr_left each, List.map_id']

omit [DecidableEq κ] in
theorem keys_eq (w : m.KeyedBy keyOf) : m.keys = m.values.map keyOf := by
  rw [keys, w.entries_eq, List.map_map]
  rfl

omit [DecidableEq κ] in
theorem mem_entries_iff (w : m.KeyedBy keyOf) {e : κ × α} :
    e ∈ m.entries ↔ e.2 ∈ m.values ∧ keyOf e.2 = e.1 := by
  rw [w.entries_eq, List.mem_map]
  constructor
  · rintro ⟨b, hb, rfl⟩
    exact ⟨hb, rfl⟩
  · rintro ⟨hb, same⟩
    exact ⟨e.2, hb, Prod.ext same rfl⟩

omit [DecidableEq κ] in
theorem empty : (empty : OrderedMap κ α).KeyedBy keyOf where
  keyed _ he := nomatch he
  unique := List.nodup_nil

theorem ofList (items : List α) : (ofList (items.map fun a => (keyOf a, a))).KeyedBy keyOf where
  keyed e he := by
    obtain ⟨a, _, rfl⟩ := List.mem_map.mp (mem_of_mem_ofList he)
    rfl
  unique := nodup_keys_ofList _

theorem insert (w : m.KeyedBy keyOf) (a : α) : (m.insert (keyOf a) a).KeyedBy keyOf where
  keyed e he := by
    rcases mem_of_mem_insert w.unique he with rfl | old
    · rfl
    · exact w.keyed e old
  unique := nodup_keys_insert w.unique

omit [DecidableEq κ] in
theorem of_sublist (w : m.KeyedBy keyOf) {part : OrderedMap κ α}
    (fewer : part.entries.Sublist m.entries) : part.KeyedBy keyOf where
  keyed e he := w.keyed e (fewer.subset he)
  unique := w.unique.sublist (fewer.map _)

theorem erase (w : m.KeyedBy keyOf) (k : κ) : (m.erase k).KeyedBy keyOf where
  keyed e he := w.keyed e (List.mem_filter.mp he).1
  unique := nodup_keys_erase w.unique

theorem putLast (w : m.KeyedBy keyOf) (a : α) : (m.putLast (keyOf a) a).KeyedBy keyOf where
  keyed e he := by
    rcases List.mem_append.mp he with old | new
    · exact (w.erase (keyOf a)).keyed e old
    · rw [List.mem_singleton.mp new]
  unique := by
    have absent : keyOf a ∉ (m.erase (keyOf a)).keys := fun h => (mem_keys_erase.mp h).2 rfl
    rw [keys_putLast]
    exact List.nodup_append_comm.mp (List.nodup_cons.mpr ⟨absent, (w.erase _).unique⟩)

theorem putFirst (w : m.KeyedBy keyOf) (a : α) : (m.putFirst (keyOf a) a).KeyedBy keyOf where
  keyed e he := by
    rcases List.mem_cons.mp he with rfl | old
    · rfl
    · exact (w.erase (keyOf a)).keyed e old
  unique := by
    have absent : keyOf a ∉ (m.erase (keyOf a)).keys := fun h => (mem_keys_erase.mp h).2 rfl
    exact List.nodup_cons.mpr ⟨absent, (w.erase _).unique⟩

theorem rekey (w : m.KeyedBy keyOf) {old : κ} (present : old ∈ m.keys) (a : α) :
    (m.rekey old (keyOf a) a).KeyedBy keyOf where
  keyed e he := by
    rw [entries_rekey w.unique present, List.mem_filterMap] at he
    obtain ⟨d, hd, left⟩ := he
    split at left
    · cases left
      rfl
    · split at left
      · cases left
      · exact Option.some.inj left ▸ w.keyed d hd
  unique := nodup_keys_rekey w.unique present

end KeyedBy

end BackOffice.OrderedMap
