import BackOffice.Association.Link
import BackOffice.Proofs.OrderedMap

/-!
# What settling stores

Submitted links are settled one after the other. Where no two of them share a key, each stored entry
meets at most one of them, so that the outcome can be told entry by entry: the stored entries that
are left, in their order, then the created ones that were not stored, in order of submission.
-/
namespace BackOffice.Association

variable {α κ : Type} [DecidableEq κ] {keyOf : α → κ}

/-- What a link leaves of the stored entry of its key. -/
def leave (l : Link α) (e : κ × α) : Option (κ × α) :=
  match l.tag with
  | .deleted => none
  | .updated | .statusChanged => some (e.1, l.target)
  | .kept | .created => some e

/-- What submitted links leave of a stored entry. -/
def fate (keyOf : α → κ) (submitted : List (Link α)) (e : κ × α) : Option (κ × α) :=
  match submitted.find? (·.key keyOf = e.1) with
  | some l => leave l e
  | none => some e

/-- The submitted links that are created and not among given keys, as entries. -/
def arrivals (keyOf : α → κ) (submitted : List (Link α)) (keys : List κ) : List (κ × α) :=
  (submitted.filter fun l => l.tag = .created ∧ l.key keyOf ∉ keys).map fun l =>
    (l.key keyOf, l.target)

/-- The keys of the links that have a tag. -/
def keysTagged (keyOf : α → κ) (tag : Tag) (links : List (Link α)) : List κ :=
  (links.filter (·.tag = tag)).map (Link.key keyOf)

omit [DecidableEq κ] in
theorem mem_keysTagged {tag : Tag} {links : List (Link α)} {k : κ} :
    k ∈ keysTagged keyOf tag links ↔ ∃ l ∈ links, l.key keyOf = k ∧ l.tag = tag := by
  simp only [keysTagged, List.mem_map, List.mem_filter, decide_eq_true_eq]
  constructor
  · rintro ⟨l, ⟨hl, same⟩, rfl⟩
    exact ⟨l, hl, rfl, same⟩
  · rintro ⟨l, hl, rfl, same⟩
    exact ⟨l, ⟨hl, same⟩, rfl⟩

theorem find?_key_eq_some_iff {β : Type} {key : β → κ} {items : List β} {b : β} {k : κ}
    (distinct : (items.map key).Nodup) :
    items.find? (key · = k) = some b ↔ b ∈ items ∧ key b = k := by
  constructor
  · intro h
    exact ⟨List.mem_of_find?_eq_some h, by simpa using List.find?_some h⟩
  · rintro ⟨member, same⟩
    cases found : items.find? (key · = k) with
    | none => exact absurd (decide_eq_true same) (List.find?_eq_none.mp found b member)
    | some c =>
      have found_key : key c = k := by simpa using List.find?_some found
      have one := List.inj_on_of_nodup_map distinct (List.mem_of_find?_eq_some found) member
        (found_key.trans same.symm)
      rw [one]

omit [DecidableEq κ] in
/-- Where no two links share a key, no key has two tags. -/
theorem tag_unique {links : List (Link α)} (distinct : (links.map (Link.key keyOf)).Nodup)
    {s t : Tag} {k : κ} (hs : k ∈ keysTagged keyOf s links) (ht : k ∈ keysTagged keyOf t links) :
    s = t := by
  obtain ⟨l, hl, key, rfl⟩ := mem_keysTagged.mp hs
  obtain ⟨d, hd, same, rfl⟩ := mem_keysTagged.mp ht
  rw [List.inj_on_of_nodup_map distinct hl hd (key.trans same.symm)]

/-! ## One link -/

omit [DecidableEq κ] in
theorem key_of_leave {l : Link α} {d e : κ × α} (h : leave l e = some d) : d.1 = e.1 := by
  cases tag : l.tag with
  | deleted => simp [leave, tag] at h
  | kept | created | updated | statusChanged =>
    simp only [leave, tag, Option.some.injEq] at h
    rw [← h]

omit [DecidableEq κ] in
theorem leave_eq_none_iff {l : Link α} {e : κ × α} : leave l e = none ↔ l.tag = .deleted := by
  cases tag : l.tag <;> simp [leave, tag]

theorem fate_nil (e : κ × α) : fate keyOf [] e = some e := rfl

theorem fate_of_notMem {submitted : List (Link α)} {e : κ × α}
    (h : e.1 ∉ submitted.map (Link.key keyOf)) : fate keyOf submitted e = some e := by
  have none_found : submitted.find? (·.key keyOf = e.1) = none := by
    apply List.find?_eq_none.mpr
    intro l hl same
    exact h (List.mem_map.mpr ⟨l, hl, of_decide_eq_true same⟩)
  rw [fate, none_found]

theorem fate_singleton (l : Link α) (e : κ × α) :
    fate keyOf [l] e = if l.key keyOf = e.1 then leave l e else some e := by
  by_cases h : l.key keyOf = e.1
  · rw [fate, List.find?_cons_of_pos (by simpa using h), if_pos h]
  · rw [fate_of_notMem (by simpa using Ne.symm h), if_neg h]

theorem key_of_fate {submitted : List (Link α)} {d e : κ × α}
    (h : fate keyOf submitted e = some d) : d.1 = e.1 := by
  rw [fate] at h
  split at h
  · exact key_of_leave h
  · rw [← Option.some.inj h]

theorem fate_cons {l : Link α} {rest : List (Link α)}
    (other : l.key keyOf ∉ rest.map (Link.key keyOf)) (e : κ × α) :
    fate keyOf (l :: rest) e = (fate keyOf [l] e).bind (fate keyOf rest) := by
  by_cases h : l.key keyOf = e.1
  · have head : fate keyOf (l :: rest) e = fate keyOf [l] e := by
      rw [fate, fate, List.find?_cons_of_pos (by simpa using h),
        List.find?_cons_of_pos (by simpa using h)]
    rw [head]
    cases first : fate keyOf [l] e with
    | none => rfl
    | some d =>
      have key : d.1 = l.key keyOf := (key_of_fate first).trans h.symm
      exact (fate_of_notMem (key ▸ other)).symm
  · rw [fate_singleton, if_neg h, Option.bind_some, fate, fate,
      List.find?_cons_of_neg (by simpa using h)]

theorem arrivals_append (first rest : List (Link α)) (keys : List κ) :
    arrivals keyOf (first ++ rest) keys =
      arrivals keyOf first keys ++ arrivals keyOf rest keys := by
  rw [arrivals, List.filter_append, List.map_append]
  rfl

theorem arrivals_congr {submitted : List (Link α)} {before after : List κ}
    (same : ∀ l ∈ submitted, (l.key keyOf ∈ after ↔ l.key keyOf ∈ before)) :
    arrivals keyOf submitted after = arrivals keyOf submitted before := by
  rw [arrivals, arrivals]
  refine congrArg _ (List.filter_congr fun l hl => ?_)
  simp only [same l hl]

theorem filterMap_fate_of_tag {l : Link α} {entries : List (κ × α)}
    (inert : l.tag = .kept ∨ l.tag = .created) : entries.filterMap (fate keyOf [l]) = entries := by
  have each : ∀ e ∈ entries, fate keyOf [l] e = some e := by
    intro e _
    rw [fate_singleton]
    rcases inert with h | h <;> simp [leave, h]
  rw [List.filterMap_congr each, List.filterMap_some]

theorem filterMap_fate_deleted {l : Link α} {entries : List (κ × α)} (deleted : l.tag = .deleted) :
    entries.filterMap (fate keyOf [l]) = entries.filter (·.1 ≠ l.key keyOf) := by
  rw [← List.filterMap_eq_filter]
  refine List.filterMap_congr fun e _ => ?_
  rw [fate_singleton, leave_eq_none_iff.mpr deleted]
  by_cases h : l.key keyOf = e.1
  · simp [h, Option.guard]
  · simp [h, Ne.symm h, Option.guard]

theorem filterMap_fate_refreshed {l : Link α} {entries : List (κ × α)}
    (refreshed : l.tag = .updated ∨ l.tag = .statusChanged) : entries.filterMap (fate keyOf [l]) =
      entries.map fun e => if e.1 = l.key keyOf then (l.key keyOf, l.target) else e := by
  rw [← List.filterMap_eq_map]
  refine List.filterMap_congr fun e _ => ?_
  rw [fate_singleton]
  by_cases h : l.key keyOf = e.1
  · rcases refreshed with t | t <;> simp [leave, t, h]
  · simp [h, Ne.symm h]

theorem arrivals_eq_nil {submitted : List (Link α)} {keys : List κ}
    (h : ∀ l ∈ submitted, l.tag ≠ .created) : arrivals keyOf submitted keys = [] := by
  refine List.map_eq_nil_iff.mpr (List.filter_eq_nil_iff.mpr fun l hl => ?_)
  simp [h l hl]

theorem arrivals_eq_map {submitted : List (Link α)} {keys : List κ}
    (created : ∀ l ∈ submitted, l.tag = .created) (new : ∀ l ∈ submitted, l.key keyOf ∉ keys) :
    arrivals keyOf submitted keys = submitted.map fun l => (l.key keyOf, l.target) :=
  congrArg _ (List.filter_eq_self.mpr fun l hl => decide_eq_true ⟨created l hl, new l hl⟩)

/-- One link leaves of each entry what it is told to, and adds itself if it is created. -/
theorem entries_settleOne {m : OrderedMap κ α} (unique : m.keys.Nodup) (l : Link α) :
    (settleOne keyOf m l).entries =
      m.entries.filterMap (fate keyOf [l]) ++ arrivals keyOf [l] m.keys := by
  cases tag : l.tag with
  | kept =>
    rw [filterMap_fate_of_tag (.inl tag), arrivals_eq_nil (by simp [tag]), List.append_nil]
    simp [settleOne, tag]
  | created =>
    rw [filterMap_fate_of_tag (.inr tag)]
    by_cases present : l.key keyOf ∈ m.keys
    · have stays : settleOne keyOf m l = m := by
        simp only [settleOne, tag]
        exact if_pos (OrderedMap.contains_iff.mpr present)
      simp [stays, arrivals, present]
    · have comes : settleOne keyOf m l = m.insert (l.key keyOf) l.target := by
        simp only [settleOne, tag]
        exact if_neg fun h => present (OrderedMap.contains_iff.mp h)
      rw [comes, OrderedMap.entries_insert_of_notMem present, arrivals,
        List.filter_cons_of_pos (by simpa [tag] using present)]
      rfl
  | deleted =>
    rw [filterMap_fate_deleted tag, arrivals_eq_nil (by simp [tag]), List.append_nil]
    simp only [settleOne, tag]
    rfl
  | updated =>
    rw [filterMap_fate_refreshed (.inl tag), arrivals_eq_nil (by simp [tag]), List.append_nil]
    simp only [settleOne, tag]
    exact OrderedMap.entries_insert_if_contains unique
  | statusChanged =>
    rw [filterMap_fate_refreshed (.inr tag), arrivals_eq_nil (by simp [tag]), List.append_nil]
    simp only [settleOne, tag]
    exact OrderedMap.entries_insert_if_contains unique

theorem mem_keys_settleOne_of_ne {m : OrderedMap κ α} (l : Link α) {k : κ}
    (other : k ≠ l.key keyOf) : k ∈ (settleOne keyOf m l).keys ↔ k ∈ m.keys := by
  have inserted : k ∈ (m.insert (l.key keyOf) l.target).keys ↔ k ∈ m.keys :=
    OrderedMap.mem_keys_insert.trans (or_iff_right other)
  have erased : k ∈ (m.erase (l.key keyOf)).keys ↔ k ∈ m.keys :=
    OrderedMap.mem_keys_erase.trans (and_iff_left other)
  cases tag : l.tag with
  | kept => simp only [settleOne, tag]
  | deleted =>
    simp only [settleOne, tag]
    exact erased
  | created =>
    simp only [settleOne, tag]
    split
    · rfl
    · exact inserted
  | updated | statusChanged =>
    simp only [settleOne, tag]
    split
    · exact inserted
    · rfl

/-! ## All links -/

/-- The targets of stored links, under their keys. -/
def targets (keyOf : α → κ) (links : List (Link α)) : OrderedMap κ α :=
  .ofList ((links.map (·.target)).map fun a => (keyOf a, a))

theorem keyedBy_targets (links : List (Link α)) : (targets keyOf links).KeyedBy keyOf :=
  .ofList _

theorem mem_keys_targets {links : List (Link α)} {k : κ} :
    k ∈ (targets keyOf links).keys ↔ k ∈ links.map (Link.key keyOf) := by
  rw [targets, OrderedMap.mem_keys_ofList, List.map_map, List.map_map]
  rfl

theorem keyedBy_settleOne {m : OrderedMap κ α} (w : m.KeyedBy keyOf) (l : Link α) :
    (settleOne keyOf m l).KeyedBy keyOf := by
  cases tag : l.tag with
  | kept => simpa only [settleOne, tag] using w
  | deleted => simpa only [settleOne, tag] using w.erase (keyOf l.target)
  | created =>
    simp only [settleOne, tag]
    split
    · exact w
    · exact w.insert l.target
  | updated | statusChanged =>
    simp only [settleOne, tag]
    split
    · exact w.insert l.target
    · exact w

theorem keyedBy_foldl_settleOne {m : OrderedMap κ α} (w : m.KeyedBy keyOf)
    (links : List (Link α)) : (links.foldl (settleOne keyOf) m).KeyedBy keyOf := by
  induction links generalizing m with
  | nil => exact w
  | cons l rest ih => exact ih (keyedBy_settleOne w l)

omit [DecidableEq κ] in
/-- The keys of the stored links are those of the map. -/
theorem keys_map_stored {m : OrderedMap κ α} (w : m.KeyedBy keyOf) :
    (m.values.map Link.stored).map (Link.key keyOf) = m.keys := by
  rw [w.keys_eq, List.map_map]
  rfl

/-- Each stored entry meets the one link of its key; what is created comes after, in order. -/
theorem entries_foldl_settleOne {m : OrderedMap κ α} (w : m.KeyedBy keyOf)
    {submitted : List (Link α)} (distinct : (submitted.map (Link.key keyOf)).Nodup) :
    (submitted.foldl (settleOne keyOf) m).entries =
      m.entries.filterMap (fate keyOf submitted) ++ arrivals keyOf submitted m.keys := by
  induction submitted generalizing m with
  | nil =>
    rw [List.foldl_nil, List.filterMap_congr fun e _ => fate_nil e, List.filterMap_some]
    exact (List.append_nil _).symm
  | cons l rest ih =>
    obtain ⟨other, others⟩ := List.nodup_cons.mp distinct
    -- a link that has arrived is not met again, and the others find the same keys as before
    have arrived : (arrivals keyOf [l] m.keys).filterMap (fate keyOf rest) =
        arrivals keyOf [l] m.keys := by
      have each : ∀ e ∈ arrivals keyOf [l] m.keys, fate keyOf rest e = some e := by
        intro e he
        obtain ⟨only, hl, rfl⟩ := List.mem_map.mp he
        rw [List.mem_singleton.mp (List.mem_filter.mp hl).1]
        exact fate_of_notMem other
      rw [List.filterMap_congr each, List.filterMap_some]
    have later : arrivals keyOf rest (settleOne keyOf m l).keys = arrivals keyOf rest m.keys := by
      refine arrivals_congr fun d hd => mem_keys_settleOne_of_ne l fun same => other ?_
      exact same ▸ List.mem_map.mpr ⟨d, hd, rfl⟩
    rw [List.foldl_cons, ih (keyedBy_settleOne w l) others, entries_settleOne w.unique,
      List.filterMap_append, List.filterMap_filterMap, arrived, later, List.append_assoc,
      ← arrivals_append]
    congr 1
    exact List.filterMap_congr fun e _ => (fate_cons other e).symm

theorem settle_eq (keyOf : α → κ) (previous submitted : List (Link α)) :
    settle keyOf previous submitted =
      (submitted.foldl (settleOne keyOf) (targets keyOf previous)).values.map Link.stored := by
  rw [targets, List.map_map]
  rfl

theorem nodup_keys_settle (previous submitted : List (Link α)) :
    ((settle keyOf previous submitted).map (Link.key keyOf)).Nodup := by
  have before : (targets keyOf previous).KeyedBy keyOf := keyedBy_targets previous
  have w := keyedBy_foldl_settleOne before submitted
  rw [settle_eq, keys_map_stored w]
  exact w.unique

theorem mem_of_mem_settleOne {m : OrderedMap κ α} (unique : m.keys.Nodup) {l : Link α} {e : κ × α}
    (h : e ∈ (settleOne keyOf m l).entries) : e ∈ m.entries ∨ l.target = e.2 := by
  have inserted : e ∈ (m.insert (l.key keyOf) l.target).entries → e ∈ m.entries ∨ l.target = e.2 := by
    intro hi
    rcases OrderedMap.mem_of_mem_insert unique hi with rfl | old
    · exact Or.inr rfl
    · exact Or.inl old
  cases tag : l.tag with
  | kept =>
    simp only [settleOne, tag] at h
    exact Or.inl h
  | deleted =>
    simp only [settleOne, tag] at h
    exact Or.inl (List.mem_filter.mp h).1
  | created =>
    simp only [settleOne, tag] at h
    split at h
    · exact Or.inl h
    · exact inserted h
  | updated | statusChanged =>
    simp only [settleOne, tag] at h
    split at h
    · exact inserted h
    · exact Or.inl h

theorem mem_of_mem_foldl_settleOne {m : OrderedMap κ α} (w : m.KeyedBy keyOf)
    {submitted : List (Link α)} {e : κ × α}
    (h : e ∈ (submitted.foldl (settleOne keyOf) m).entries) :
    e ∈ m.entries ∨ ∃ l ∈ submitted, l.target = e.2 := by
  induction submitted generalizing m with
  | nil => exact Or.inl h
  | cons l rest ih =>
    rcases ih (keyedBy_settleOne w l) h with settled | ⟨d, hd, same⟩
    · rcases mem_of_mem_settleOne w.unique settled with stored | new
      · exact Or.inl stored
      · exact Or.inr ⟨l, List.mem_cons_self, new⟩
    · exact Or.inr ⟨d, List.mem_cons_of_mem l hd, same⟩

/-- Settling invents no target: each was stored or submitted. -/
theorem target_of_mem_settle {previous submitted : List (Link α)} {l : Link α}
    (h : l ∈ settle keyOf previous submitted) : ∃ d ∈ previous ++ submitted, d.target = l.target := by
  rw [settle_eq] at h
  obtain ⟨a, ha, rfl⟩ := List.mem_map.mp h
  obtain ⟨e, he, rfl⟩ := List.mem_map.mp ha
  rcases mem_of_mem_foldl_settleOne (keyedBy_targets previous) he with stored | ⟨d, hd, same⟩
  · obtain ⟨b, hb, rfl⟩ := List.mem_map.mp (OrderedMap.mem_of_mem_ofList stored)
    obtain ⟨d, hd, same⟩ := List.mem_map.mp hb
    exact ⟨d, List.mem_append_left _ hd, same⟩
  · exact ⟨d, List.mem_append_right _ hd, same⟩

theorem fate_eq_none_iff {submitted : List (Link α)} {e : κ × α}
    (distinct : (submitted.map (Link.key keyOf)).Nodup) :
    fate keyOf submitted e = none ↔ e.1 ∈ keysTagged keyOf .deleted submitted := by
  rw [mem_keysTagged]
  cases found : submitted.find? (·.key keyOf = e.1) with
  | none =>
    have absent : ∀ l ∈ submitted, ¬ l.key keyOf = e.1 := by
      simpa using found
    rw [fate, found]
    constructor
    · intro h
      cases h
    · rintro ⟨l, hl, same, _⟩
      exact absurd same (absent l hl)
  | some l =>
    have member := (find?_key_eq_some_iff distinct).mp found
    rw [fate, found, leave_eq_none_iff]
    constructor
    · exact fun deleted => ⟨l, member.1, member.2, deleted⟩
    · rintro ⟨d, hd, same, deleted⟩
      rw [(find?_key_eq_some_iff distinct).mpr ⟨hd, same⟩] at found
      exact Option.some.inj found ▸ deleted

theorem mem_keys_filterMap_fate {submitted : List (Link α)} {entries : List (κ × α)} {k : κ}
    (distinct : (submitted.map (Link.key keyOf)).Nodup) :
    k ∈ (entries.filterMap (fate keyOf submitted)).map (·.1) ↔
      k ∈ entries.map (·.1) ∧ k ∉ keysTagged keyOf .deleted submitted := by
  rw [List.mem_map, List.mem_map]
  constructor
  · rintro ⟨d, hd, rfl⟩
    obtain ⟨e, he, left⟩ := List.mem_filterMap.mp hd
    rw [key_of_fate left]
    refine ⟨⟨e, he, rfl⟩, fun deleted => ?_⟩
    rw [(fate_eq_none_iff distinct).mpr deleted] at left
    cases left
  · rintro ⟨⟨e, he, rfl⟩, kept⟩
    cases left : fate keyOf submitted e with
    | none => exact absurd ((fate_eq_none_iff distinct).mp left) kept
    | some d => exact ⟨d, List.mem_filterMap.mpr ⟨e, he, left⟩, key_of_fate left⟩

theorem mem_keys_arrivals {submitted : List (Link α)} {keys : List κ} {k : κ} :
    k ∈ (arrivals keyOf submitted keys).map (·.1) ↔
      k ∈ keysTagged keyOf .created submitted ∧ k ∉ keys := by
  rw [mem_keysTagged]
  simp only [arrivals, List.mem_map, List.mem_filter, decide_eq_true_eq]
  constructor
  · rintro ⟨_, ⟨l, ⟨hl, created, absent⟩, rfl⟩, rfl⟩
    exact ⟨⟨l, hl, rfl, created⟩, absent⟩
  · rintro ⟨⟨l, hl, rfl, created⟩, absent⟩
    exact ⟨_, ⟨l, ⟨hl, created, absent⟩, rfl⟩, rfl⟩

/-- A key is stored afterwards if it was and is not deleted, or if it is created. -/
theorem mem_keys_settle {previous submitted : List (Link α)} {k : κ}
    (distinct : (submitted.map (Link.key keyOf)).Nodup) :
    k ∈ (settle keyOf previous submitted).map (Link.key keyOf) ↔
      (k ∈ previous.map (Link.key keyOf) ∧ k ∉ keysTagged keyOf .deleted submitted) ∨
        k ∈ keysTagged keyOf .created submitted := by
  have before : (targets keyOf previous).KeyedBy keyOf := keyedBy_targets previous
  rw [settle_eq, keys_map_stored (keyedBy_foldl_settleOne before submitted), OrderedMap.keys,
    entries_foldl_settleOne before distinct, List.map_append, List.mem_append,
    mem_keys_filterMap_fate distinct, mem_keys_arrivals, ← OrderedMap.keys, mem_keys_targets]
  constructor
  · rintro (stays | ⟨comes, _⟩)
    · exact Or.inl stays
    · exact Or.inr comes
  · rintro (stays | comes)
    · exact Or.inl stays
    · by_cases stored : k ∈ previous.map (Link.key keyOf)
      · refine Or.inl ⟨stored, fun deleted => ?_⟩
        cases tag_unique distinct comes deleted
      · exact Or.inr ⟨comes, stored⟩

end BackOffice.Association
