import BackOffice.Proofs.Association.Editing

/-!
# What saving edited links stores

The links of an edited association are settled against the stored ones. Where these are the ones
that were loaded, the outcome is the membership as it is shown, in its order. Where other editors
saved in between, the outcome still has all that any of them created and nothing that any of them
deleted, whoever saved first.
-/
namespace BackOffice.Association

variable {α κ : Type} [DecidableEq κ] {keyOf : α → κ}

/-! ## One editor -/

/-- Of the entries of some submitted links, those are left whose links are not deleted. -/
theorem filterMap_fate_own {links submitted : List (Link α)}
    (distinct : (submitted.map (Link.key keyOf)).Nodup) (own : ∀ l ∈ links, l ∈ submitted)
    (tags : ∀ l ∈ links, l.tag = .kept ∨ l.tag = .deleted) :
    (links.map fun l => (l.key keyOf, l.target)).filterMap (fate keyOf submitted) =
      (links.filter (!·.isDeleted)).map fun l => (l.key keyOf, l.target) := by
  rw [List.filterMap_map, ← List.filterMap_eq_map, ← List.filterMap_eq_filter,
    List.filterMap_filterMap]
  refine List.filterMap_congr fun l hl => ?_
  have found := (find?_key_eq_some_iff distinct).mpr ⟨own l hl, rfl⟩
  rw [Function.comp_apply, fate, found]
  rcases tags l hl with tag | tag <;> simp [leave, tag, Link.isDeleted, Option.guard]

theorem settle_of_keepsStored {stored links : List (Link α)}
    (distinct : (links.map (Link.key keyOf)).Nodup) (h : KeepsStored keyOf stored links) :
    settle keyOf stored links = (links.filter (!·.isDeleted)).map fun l => .stored l.target := by
  obtain ⟨olds, news, rfl, places, tags, created⟩ := h
  have before : (targets keyOf stored).KeyedBy keyOf := keyedBy_targets stored
  have entries : (targets keyOf stored).entries = olds.map fun l => (l.key keyOf, l.target) := by
    rw [before.entries_eq, ← places, List.map_map]
    rfl
  have keys : (targets keyOf stored).keys = olds.map (Link.key keyOf) := by
    rw [before.keys_eq, ← places, List.map_map]
    rfl
  have left := filterMap_fate_own distinct (fun l => List.mem_append_left news) tags
  have settledOlds : arrivals keyOf olds (olds.map (Link.key keyOf)) = [] := by
    refine arrivals_eq_nil fun l hl => ?_
    rcases tags l hl with tag | tag <;> simp [tag]
  have arrived : arrivals keyOf news (olds.map (Link.key keyOf)) =
      news.map fun l => (l.key keyOf, l.target) := by
    rw [List.map_append, List.nodup_append'] at distinct
    refine arrivals_eq_map created fun l hl old => ?_
    exact distinct.2.2 old (List.mem_map.mpr ⟨l, hl, rfl⟩)
  have shown : news.filter (!·.isDeleted) = news := by
    refine List.filter_eq_self.mpr fun l hl => ?_
    rw [Link.isDeleted, created l hl]
    rfl
  rw [settle_eq, OrderedMap.values, entries_foldl_settleOne before distinct, entries, keys, left,
    arrivals_append, settledOlds, arrived, List.nil_append, List.filter_append, shown,
    ← List.map_append, List.map_map, List.map_map]
  rfl

/-- Saving stores exactly what the editor shows as attached: the links of the membership that are
not marked for deletion, in its order, whatever was done since the stored links were taken over. -/
theorem settle_edited (keyOf : α → κ) (stored : List (Link α)) (h : History α κ) :
    let s := Sync.edited keyOf stored h
    settle keyOf stored s.links =
      (s.membership.toList.filter (!·.isDeleted)).map fun l => .stored l.target :=
  settle_of_keepsStored (Sync.wellFormed_edited keyOf stored h).membership.nodup_keys
    (Sync.keepsStored_edited keyOf stored h)

/-! ## Several editors -/

namespace KeepsStored

variable {stored links : List (Link α)} {k : κ}

theorem deleted_stored (h : KeepsStored keyOf stored links)
    (deleted : k ∈ keysTagged keyOf .deleted links) : k ∈ stored.map (Link.key keyOf) := by
  obtain ⟨olds, news, rfl, places, _, created⟩ := h
  obtain ⟨l, hl, rfl, tag⟩ := mem_keysTagged.mp deleted
  rw [← mem_keys_targets, (keyedBy_targets stored).keys_eq, ← places, List.map_map]
  rcases List.mem_append.mp hl with old | new
  · exact List.mem_map.mpr ⟨l, old, rfl⟩
  · rw [created l new] at tag
    cases tag

theorem created_new (distinct : (links.map (Link.key keyOf)).Nodup)
    (h : KeepsStored keyOf stored links) (created : k ∈ keysTagged keyOf .created links) :
    k ∉ stored.map (Link.key keyOf) := by
  obtain ⟨olds, news, rfl, places, tags, _⟩ := h
  rw [← mem_keys_targets, (keyedBy_targets stored).keys_eq, ← places, List.map_map]
  intro old
  obtain ⟨l, hl, rfl⟩ := List.mem_map.mp old
  have stays : l.key keyOf ∈ keysTagged keyOf l.tag (olds ++ news) :=
    mem_keysTagged.mpr ⟨l, List.mem_append_left _ hl, rfl, rfl⟩
  rcases tags l hl with tag | tag <;> cases tag.symm.trans (tag_unique distinct stays created)

end KeepsStored

theorem nodup_keys_foldl_settle {stored : List (Link α)} {submissions : List (List (Link α))}
    (once : submissions ≠ [] ∨ (stored.map (Link.key keyOf)).Nodup) :
    ((submissions.foldl (settle keyOf) stored).map (Link.key keyOf)).Nodup := by
  induction submissions generalizing stored with
  | nil => exact once.resolve_left fun some => some rfl
  | cons first rest ih => exact ih (Or.inr (nodup_keys_settle stored first))

/-- Submissions that are settled one after the other leave the keys that none deletes and add those
that any creates, if no key is created by one and deleted by another. -/
theorem mem_keys_foldl_settle {stored : List (Link α)} {submissions : List (List (Link α))} {k : κ}
    (distinct : ∀ links ∈ submissions, (links.map (Link.key keyOf)).Nodup)
    (apart : (∃ links ∈ submissions, k ∈ keysTagged keyOf .created links) →
      ∀ links ∈ submissions, k ∉ keysTagged keyOf .deleted links) :
    k ∈ (submissions.foldl (settle keyOf) stored).map (Link.key keyOf) ↔
      (k ∈ stored.map (Link.key keyOf) ∧
        ∀ links ∈ submissions, k ∉ keysTagged keyOf .deleted links) ∨
      ∃ links ∈ submissions, k ∈ keysTagged keyOf .created links := by
  induction submissions generalizing stored with
  | nil => simp
  | cons first rest ih =>
    simp only [List.forall_mem_cons, List.exists_mem_cons_iff] at apart distinct ⊢
    rw [List.foldl_cons, ih distinct.2 fun later => (apart (Or.inr later)).2,
      mem_keys_settle distinct.1]
    constructor
    · rintro (⟨⟨stays, kept⟩ | comes, others⟩ | later)
      · exact Or.inl ⟨stays, kept, others⟩
      · exact Or.inr (Or.inl comes)
      · exact Or.inr (Or.inr later)
    · rintro (⟨stays, kept, others⟩ | comes | later)
      · exact Or.inl ⟨Or.inl ⟨stays, kept⟩, others⟩
      · exact Or.inl ⟨Or.inr comes, (apart (Or.inl comes)).2⟩
      · exact Or.inr later

/-- Editors that took over the same stored links may save in any order: the keys stored in the end
are the stored ones that none of them deleted and all that any of them created, each once. If nobody
saves, the stored list stays as it is, also where it repeats keys. -/
theorem mem_keys_foldl_settle_edited (keyOf : α → κ) (stored : List (Link α))
    (histories : List (History α κ)) (order : List (Sync keyOf))
    (all : order.Perm (histories.map (Sync.edited keyOf stored))) :
    let screens := histories.map (Sync.edited keyOf stored)
    let final := order.foldl (fun links s => settle keyOf links s.links) stored
    (screens ≠ [] ∨ (stored.map (Link.key keyOf)).Nodup → (final.map (Link.key keyOf)).Nodup) ∧
      ∀ k, k ∈ final.map (Link.key keyOf) ↔
        (k ∈ stored.map (Link.key keyOf) ∧ ∀ s ∈ screens, k ∉ keysTagged keyOf .deleted s.links) ∨
          ∃ s ∈ screens, k ∈ keysTagged keyOf .created s.links := by
  intro screens final
  have edited : ∀ s ∈ order, (s.links.map (Link.key keyOf)).Nodup ∧
      KeepsStored keyOf stored s.links := by
    intro s hs
    obtain ⟨h, _, rfl⟩ := List.mem_map.mp (all.mem_iff.mp hs)
    exact ⟨(Sync.wellFormed_edited keyOf stored h).membership.nodup_keys,
      Sync.keepsStored_edited keyOf stored h⟩
  have settled : final = (order.map Sync.links).foldl (settle keyOf) stored := by
    rw [List.foldl_map]
  rw [settled]
  constructor
  · intro once
    refine nodup_keys_foldl_settle (once.imp_left fun some none => some ?_)
    rw [List.map_eq_nil_iff] at none
    exact List.perm_nil.mp (none ▸ all).symm
  · intro k
    have same : (order.map Sync.links).Perm (screens.map Sync.links) := all.map _
    rw [mem_keys_foldl_settle]
    · simp only [same.mem_iff, List.mem_map, forall_exists_index, and_imp,
        forall_apply_eq_imp_iff₂, exists_exists_and_eq_and]
    · intro links hl
      obtain ⟨s, hs, rfl⟩ := List.mem_map.mp hl
      exact (edited s hs).1
    · rintro ⟨_, hl, created⟩ _ ho deleted
      obtain ⟨s, hs, rfl⟩ := List.mem_map.mp hl
      obtain ⟨t, ht, rfl⟩ := List.mem_map.mp ho
      have new := (edited s hs).2.created_new (edited s hs).1 created
      exact new ((edited t ht).2.deleted_stored deleted)

/-- Of the stored 1, 2 and 3, one editor drops 2 and adds 4; another, who saves first, drops 1. -/
theorem keys_of_two_editors :
    let stored : List (Link Nat) := [.stored 1, .stored 2, .stored 3]
    let swaps : History Nat Nat := ⟨[], [.offer [2, 4], .toggle 2, .toggle 4]⟩
    let drops : History Nat Nat := ⟨[.takeDraft [⟨7, .created⟩]], [.strike 1]⟩
    let screens := [swaps, drops].map (Sync.edited id stored)
    let final := screens.reverse.foldl (fun links s => settle id links s.links) stored
    screens.reverse.Perm screens ∧ final.map (Link.key id) = [3, 4] ∧
      (final.map (Link.key id)).Nodup ∧
      ∀ k, k ∈ final.map (Link.key id) ↔
        (k ∈ stored.map (Link.key id) ∧ ∀ s ∈ screens, k ∉ keysTagged id .deleted s.links) ∨
          ∃ s ∈ screens, k ∈ keysTagged id .created s.links := by
  intro stored swaps drops screens final
  have order : screens.reverse.Perm screens := List.reverse_perm screens
  obtain ⟨once, keys⟩ := mem_keys_foldl_settle_edited id stored [swaps, drops] screens.reverse order
  exact ⟨order, by decide, once (Or.inl (by simp)), keys⟩

end BackOffice.Association
