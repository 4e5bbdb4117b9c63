import BackOffice.Proofs.Association.Editing

/-!
# The tags of candidates

A candidate has one tag or none. Attaching and detaching a candidate change no other tag, and its
own in a way that depends on that tag alone. A candidate is attached when it has a tag that does not
mark it for deletion; what a change of the pool's selection does to the attached candidates is told
here for changes of every kind, also for those that no operation of the pool reports.
-/
namespace BackOffice.Association

namespace Tag

/-- The tag of a candidate after it was attached. -/
def attaching : Option Tag → Tag
  | none => created
  | some deleted => kept
  | some tag => tag

/-- The tag of a candidate after it was detached, unless it is no member any more. -/
def detaching : Option Tag → Option Tag
  | none | some created => none
  | some _ => some deleted

theorem attaching_ne_deleted (tag : Option Tag) : attaching tag ≠ deleted := by
  rcases tag with _ | tag
  · decide
  · cases tag <;> decide

theorem eq_deleted_of_detaching {tag : Option Tag} {t : Tag} (h : detaching tag = some t) :
    t = deleted := by
  rcases tag with _ | tag
  · cases h
  · cases tag <;> cases h <;> rfl

end Tag

variable {α κ : Type} [DecidableEq κ] {keyOf : α → κ}

namespace Sync

variable {s : Sync keyOf} {k j : κ}

/-! ## One candidate -/

theorem tag?_append (s : Sync keyOf) (l : Link α) :
    ({ s with membership := s.membership.append l } : Sync keyOf).tag? j =
      if j = l.key keyOf then some l.tag else s.tag? j := by
  simp only [tag?, Keyed.find?_append]
  split <;> rfl

theorem tag?_remove (s : Sync keyOf) (k : κ) :
    ({ s with membership := s.membership.remove k } : Sync keyOf).tag? j =
      if j = k then none else s.tag? j := by
  simp only [tag?, Keyed.find?_remove]
  split <;> rfl

theorem tag?_setTag (w : s.WellFormed) (k : κ) (tag : Tag) :
    (s.setTag k tag).tag? j = if j = k then (s.tag? k).map fun _ => tag else s.tag? j := by
  cases found : s.membership.find? k with
  | none =>
    have absent : s.tag? k = none := by rw [tag?, found, Option.map_none]
    simp only [setTag, found]
    split
    · next same => rw [same, absent, Option.map_none]
    · rfl
  | some l =>
    have own := (w.membership.find?_eq_some_iff.mp found).2
    have present := Keyed.mem_keys_of_find? found
    rw [setTag_of_find? tag found]
    simp only [tag?, found,
      Keyed.find?_replace_own_key (a := { l with tag }) w.membership present own]
    split <;> rfl

theorem tag?_attach (w : s.WellFormed) (a : α) : (s.attach (keyOf a) a).tag? j =
    if j = keyOf a then some (Tag.attaching (s.tag? j)) else s.tag? j := by
  by_cases same : j = keyOf a
  · subst same
    cases tagged : s.tag? (keyOf a) with
    | none => simp [attach, tagged, tag?_append, Link.key, Tag.attaching]
    | some tag =>
      cases tag with
      | deleted => simp [attach, tagged, tag?_setTag w, Tag.attaching]
      | kept | created | updated | statusChanged => simp [attach, tagged, Tag.attaching]
  · cases tagged : s.tag? (keyOf a) with
    | none => simp [attach, tagged, tag?_append, Link.key, same]
    | some tag =>
      cases tag with
      | deleted => simp [attach, tagged, tag?_setTag w, same]
      | kept | created | updated | statusChanged => simp [attach, tagged, same]

theorem tag?_detach (w : s.WellFormed) (k : κ) : (s.detach k).tag? j =
    if j = k then Tag.detaching (s.tag? j) else s.tag? j := by
  by_cases same : j = k
  · subst same
    cases tagged : s.tag? j with
    | none => simp [detach, tagged, Tag.detaching]
    | some tag =>
      cases tag with
      | created => simp [detach, tagged, tag?_remove, Tag.detaching]
      | deleted => simp [detach, tagged, Tag.detaching]
      | kept | updated | statusChanged => simp [detach, tagged, tag?_setTag w, Tag.detaching]
  · cases tagged : s.tag? k with
    | none => simp [detach, tagged, same]
    | some tag =>
      cases tag with
      | created => simp [detach, tagged, tag?_remove, same]
      | deleted => simp [detach, tagged, same]
      | kept | updated | statusChanged => simp [detach, tagged, tag?_setTag w, same]

/-! ## Attached candidates -/

theorem mem_attached_iff (w : s.WellFormed) :
    k ∈ s.attached ↔ ∃ tag, s.tag? k = some tag ∧ tag ≠ .deleted := by
  simp only [attached, tag?_eq_some_iff w, links, List.mem_map, List.mem_filter, Link.isDeleted,
    Bool.not_eq_true', beq_eq_false_iff_ne]
  constructor
  · rintro ⟨l, ⟨hl, tag⟩, same⟩
    exact ⟨l.tag, ⟨l, hl, same, rfl⟩, tag⟩
  · rintro ⟨_, ⟨l, hl, same, rfl⟩, tag⟩
    exact ⟨l, ⟨hl, tag⟩, same⟩

theorem mem_attached_attach (w : s.WellFormed) (a : α) :
    j ∈ (s.attach (keyOf a) a).attached ↔ j ∈ s.attached ∨ j = keyOf a := by
  rw [mem_attached_iff (w.moves (moves_attach s a)), mem_attached_iff w, tag?_attach w]
  by_cases same : j = keyOf a
  · simp [same, Tag.attaching_ne_deleted]
  · simp [same]

theorem mem_attached_detach (w : s.WellFormed) (k : κ) :
    j ∈ (s.detach k).attached ↔ j ∈ s.attached ∧ j ≠ k := by
  rw [mem_attached_iff (w.moves (moves_detach s k)), mem_attached_iff w, tag?_detach w]
  by_cases same : j = k
  · rw [if_pos same]
    constructor
    · rintro ⟨tag, left, other⟩
      exact absurd (Tag.eq_deleted_of_detaching left) other
    · exact fun h => absurd same h.2
  · simp [same]

theorem mem_attached_restored (w : s.WellFormed) (member : s.tag? k ≠ none) :
    j ∈ (s.setTag k .kept).attached ↔ j ∈ s.attached ∨ j = k := by
  rw [mem_attached_iff (w.setTag k .kept), mem_attached_iff w, tag?_setTag w]
  obtain ⟨tag, tagged⟩ := Option.ne_none_iff_exists'.mp member
  by_cases same : j = k
  · simp [same, tagged]
  · simp [same]

/-! ## Changes of the selection -/

theorem pool_setTag (s : Sync keyOf) (k : κ) (tag : Tag) : (s.setTag k tag).pool = s.pool := by
  rw [setTag]
  split <;> rfl

theorem pool_attach (s : Sync keyOf) (k : κ) (a : α) : (s.attach k a).pool = s.pool := by
  rw [attach]
  split
  · rfl
  · exact pool_setTag s k .kept
  · rfl

theorem pool_detach (s : Sync keyOf) (k : κ) : (s.detach k).pool = s.pool := by
  cases tagged : s.tag? k with
  | none => simp only [detach, tagged]
  | some tag =>
    cases tag with
    | created | deleted => simp only [detach, tagged]
    | kept | updated | statusChanged => simp only [detach, tagged, pool_setTag]

theorem pool_attachLoaded (s : Sync keyOf) (k : κ) : (s.attachLoaded k).pool = s.pool := by
  rw [attachLoaded]
  split
  · exact pool_attach s k _
  · rfl

theorem pool_foldl_attachLoaded (ks : List κ) : (ks.foldl attachLoaded s).pool = s.pool := by
  induction ks generalizing s with
  | nil => rfl
  | cons k rest ih => exact ih.trans (pool_attachLoaded s k)

theorem pool_foldl_detach (ks : List κ) : (ks.foldl detach s).pool = s.pool := by
  induction ks generalizing s with
  | nil => rfl
  | cons k rest ih => exact ih.trans (pool_detach s k)

theorem pool_apply (s : Sync keyOf) (change : KeyChange κ) : (s.apply change).pool = s.pool :=
  (pool_foldl_detach change.removed).trans (pool_foldl_attachLoaded change.added)

theorem mem_attached_attachLoaded (w : s.WellFormed) (k : κ) :
    j ∈ (s.attachLoaded k).attached ↔ j ∈ s.attached ∨ (j = k ∧ j ∈ s.pool.keys) := by
  cases found : s.pool.find? k with
  | none =>
    have absent : k ∉ s.pool.keys := OrderedMap.get?_eq_none_iff.mp found
    simp only [attachLoaded, found]
    constructor
    · exact Or.inl
    · rintro (old | ⟨rfl, loaded⟩)
      · exact old
      · exact absurd loaded absent
  | some a =>
    have loaded : k ∈ s.pool.keys := Keyed.mem_keys_of_find? found
    obtain ⟨_, rfl⟩ := w.pool.find?_eq_some_iff.mp found
    simp only [attachLoaded, found, mem_attached_attach w]
    exact or_congr_right ⟨fun same => ⟨same, same ▸ loaded⟩, And.left⟩

theorem WellFormed.attachLoaded (w : s.WellFormed) (k : κ) : (s.attachLoaded k).WellFormed :=
  w.moves (moves_attachLoaded w k)

theorem WellFormed.detach (w : s.WellFormed) (k : κ) : (s.detach k).WellFormed :=
  w.moves (moves_detach s k)

theorem wellFormed_foldl_attachLoaded (w : s.WellFormed) (ks : List κ) :
    (ks.foldl Sync.attachLoaded s).WellFormed := by
  induction ks generalizing s with
  | nil => exact w
  | cons k rest ih => exact ih (w.attachLoaded k)

theorem mem_attached_foldl_attachLoaded (w : s.WellFormed) (ks : List κ) :
    j ∈ (ks.foldl attachLoaded s).attached ↔ j ∈ s.attached ∨ (j ∈ ks ∧ j ∈ s.pool.keys) := by
  induction ks generalizing s with
  | nil => simp
  | cons k rest ih =>
    rw [List.foldl_cons, ih (w.attachLoaded k), mem_attached_attachLoaded w, pool_attachLoaded,
      List.mem_cons]
    tauto

theorem mem_attached_foldl_detach (w : s.WellFormed) (ks : List κ) :
    j ∈ (ks.foldl detach s).attached ↔ j ∈ s.attached ∧ j ∉ ks := by
  induction ks generalizing s with
  | nil => simp
  | cons k rest ih =>
    rw [List.foldl_cons, ih (w.detach k), mem_attached_detach w, List.mem_cons]
    tauto

/-- A change attaches those of its added keys that are loaded, and detaches what it removes. -/
theorem mem_attached_apply (w : s.WellFormed) (change : KeyChange κ) :
    j ∈ (s.apply change).attached ↔
      (j ∈ s.attached ∨ (j ∈ change.added ∧ j ∈ s.pool.keys)) ∧ j ∉ change.removed := by
  rw [apply, mem_attached_foldl_detach (wellFormed_foldl_attachLoaded w change.added),
    mem_attached_foldl_attachLoaded w]

/-- Striking restores a deleted member, and detaches and unchecks any other. -/
theorem strike_cases (s : Sync keyOf) (k : κ) :
    (s.tag? k = none ∧ (s.strike k).1 = s) ∨
      (s.tag? k = some .deleted ∧
        (s.strike k).1 = { s.setTag k .kept with pool := (s.pool.select k).1 }) ∨
      (s.strike k).1 = { s.detach k with pool := (s.pool.deselect k).1 } := by
  cases tagged : s.tag? k with
  | none => exact Or.inl ⟨rfl, by simp only [strike, tagged]⟩
  | some tag =>
    cases tag with
    | deleted =>
      refine Or.inr (Or.inl ⟨rfl, ?_⟩)
      simp only [strike, tagged, pool_setTag]
    | created =>
      refine Or.inr (Or.inr ?_)
      simp only [strike, tagged, detach]
    | kept | updated | statusChanged =>
      refine Or.inr (Or.inr ?_)
      simp only [strike, tagged, detach, pool_setTag]

end Sync

end BackOffice.Association
