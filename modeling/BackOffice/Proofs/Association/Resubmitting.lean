import BackOffice.Proofs.Association.Settling
import BackOffice.Proofs.Keyed

/-!
# Settling told by targets, once and again

Where no two submitted links share a key, what settling stores can be read off the stored targets:
those that are deleted go, those that are updated are exchanged in their places, and the created
ones that were not stored come after them. What is stored then has already met every submitted link,
so the same submission changes nothing when it is settled again. A save whose answer was lost can be
repeated.
-/
namespace BackOffice.Association

variable {α κ : Type} [DecidableEq κ] {keyOf : α → κ} {submitted : List (Link α)}

/-- The link brings another target for the one that is stored under its key. -/
def Link.refreshes (l : Link α) : Bool := l.tag == .updated || l.tag == .statusChanged

/-- A stored target after submitted links were settled, if it is left. -/
def refreshed (keyOf : α → κ) (submitted : List (Link α)) (a : α) : α :=
  match (submitted.filter (·.refreshes)).find? (·.key keyOf = keyOf a) with
  | some l => l.target
  | none => a

/-- The targets of the submitted links that are created and not among given keys. -/
def additions (keyOf : α → κ) (submitted : List (Link α)) (keys : List κ) : List α :=
  (submitted.filter fun l => l.tag = .created ∧ l.key keyOf ∉ keys).map (·.target)

/-! ## Stored targets -/

theorem refreshed_of_mem (distinct : (submitted.map (Link.key keyOf)).Nodup) {l : Link α} {a : α}
    (hl : l ∈ submitted) (same : l.key keyOf = keyOf a) (refreshes : l.refreshes = true) :
    refreshed keyOf submitted a = l.target := by
  have fewer : ((submitted.filter (·.refreshes)).map (Link.key keyOf)).Nodup :=
    distinct.sublist (List.filter_sublist.map _)
  have found := (find?_key_eq_some_iff fewer).mpr ⟨List.mem_filter.mpr ⟨hl, refreshes⟩, same⟩
  rw [refreshed, found]

theorem refreshed_of_forall {a : α}
    (others : ∀ l ∈ submitted, l.key keyOf = keyOf a → l.refreshes = false) :
    refreshed keyOf submitted a = a := by
  have missing : (submitted.filter (·.refreshes)).find? (·.key keyOf = keyOf a) = none := by
    rw [List.find?_eq_none]
    intro l hl same
    obtain ⟨member, refreshes⟩ := List.mem_filter.mp hl
    rw [others l member (of_decide_eq_true same)] at refreshes
    cases refreshes
  rw [refreshed, missing]

theorem key_refreshed (a : α) : keyOf (refreshed keyOf submitted a) = keyOf a := by
  rw [refreshed]
  split
  · next l found =>
    have own : l.key keyOf = keyOf a := by simpa using List.find?_some found
    exact own
  · rfl

theorem refreshed_refreshed (a : α) :
    refreshed keyOf submitted (refreshed keyOf submitted a) = refreshed keyOf submitted a := by
  have key : keyOf (refreshed keyOf submitted a) = keyOf a := key_refreshed a
  cases found : (submitted.filter (·.refreshes)).find? (·.key keyOf = keyOf a) with
  | none =>
    have same : refreshed keyOf submitted a = a := by rw [refreshed, found]
    rw [same, same]
  | some l =>
    have same : refreshed keyOf submitted a = l.target := by rw [refreshed, found]
    rw [same] at key
    rw [same, refreshed, key, found]

/-- A created target is stored as it was submitted. -/
theorem refreshed_of_mem_additions (distinct : (submitted.map (Link.key keyOf)).Nodup)
    {keys : List κ} {a : α}
    (ha : a ∈ additions keyOf submitted keys) : refreshed keyOf submitted a = a := by
  obtain ⟨l, hl, rfl⟩ := List.mem_map.mp ha
  obtain ⟨member, new⟩ := List.mem_filter.mp hl
  have tag : l.tag = .created := (of_decide_eq_true new).1
  refine refreshed_of_forall fun d hd same => ?_
  rw [List.inj_on_of_nodup_map distinct hd member same, Link.refreshes, tag]
  rfl

/-- Of a stored target nothing is left if it is deleted; else it is there, refreshed or not. -/
theorem fate_of_target (distinct : (submitted.map (Link.key keyOf)).Nodup) (a : α) :
    (fate keyOf submitted (keyOf a, a)).map (·.2) =
      if keyOf a ∈ keysTagged keyOf .deleted submitted then none
      else some (refreshed keyOf submitted a) := by
  by_cases deleted : keyOf a ∈ keysTagged keyOf .deleted submitted
  · rw [if_pos deleted, (fate_eq_none_iff distinct).mpr deleted, Option.map_none]
  · rw [if_neg deleted]
    cases found : submitted.find? (·.key keyOf = keyOf a) with
    | none =>
      have absent : ∀ l ∈ submitted, l.key keyOf = keyOf a → l.refreshes = false := by
        intro l hl same
        exact absurd (decide_eq_true same) (List.find?_eq_none.mp found l hl)
      rw [refreshed_of_forall absent, fate, found]
      rfl
    | some l =>
      obtain ⟨hl, same⟩ := (find?_key_eq_some_iff distinct).mp found
      have only : ∀ d ∈ submitted, d.key keyOf = keyOf a → d = l := fun d hd key =>
        List.inj_on_of_nodup_map distinct hd hl (key.trans same.symm)
      rw [fate, found]
      cases tag : l.tag with
      | deleted => exact absurd (mem_keysTagged.mpr ⟨l, hl, same, tag⟩) deleted
      | updated | statusChanged =>
        have refreshes : l.refreshes = true := by rw [Link.refreshes, tag]; rfl
        rw [refreshed_of_mem distinct hl same refreshes]
        simp only [leave, tag, Option.map_some]
      | kept | created =>
        have inert : ∀ d ∈ submitted, d.key keyOf = keyOf a → d.refreshes = false := by
          intro d hd key
          rw [only d hd key, Link.refreshes, tag]
          rfl
        rw [refreshed_of_forall inert]
        simp only [leave, tag, Option.map_some]

/-! ## What is stored -/

theorem values_targets (links : List (Link α)) :
    (targets keyOf links).values = Keyed.latestByKey keyOf (links.map (·.target)) :=
  Keyed.toList_load (s := (.empty : Keyed keyOf)) (links.map Link.target)

/-- The targets that are left of the stored ones, in their places, and then the created ones. -/
theorem settle_eq_map (distinct : (submitted.map (Link.key keyOf)).Nodup)
    (previous : List (Link α)) :
    settle keyOf previous submitted =
      (((Keyed.latestByKey keyOf (previous.map (·.target))).filter fun a =>
          keyOf a ∉ keysTagged keyOf .deleted submitted).map (refreshed keyOf submitted) ++
        additions keyOf submitted (previous.map (Link.key keyOf))).map .stored := by
  have w : (targets keyOf previous).KeyedBy keyOf := keyedBy_targets previous
  have left : ((targets keyOf previous).entries.filterMap (fate keyOf submitted)).map (·.2) =
      ((targets keyOf previous).values.filter fun a =>
        keyOf a ∉ keysTagged keyOf .deleted submitted).map (refreshed keyOf submitted) := by
    rw [w.entries_eq, List.filterMap_map, List.map_filterMap, ← List.filterMap_eq_map,
      ← List.filterMap_eq_filter, List.filterMap_filterMap]
    refine List.filterMap_congr fun a _ => ?_
    rw [Function.comp_apply, fate_of_target distinct]
    by_cases deleted : keyOf a ∈ keysTagged keyOf .deleted submitted <;>
      simp [deleted, Option.guard]
  have new : (arrivals keyOf submitted (targets keyOf previous).keys).map (·.2) =
      additions keyOf submitted (previous.map (Link.key keyOf)) := by
    rw [arrivals_congr fun _ _ => mem_keys_targets, arrivals, List.map_map]
    rfl
  rw [settle_eq, OrderedMap.values, entries_foldl_settleOne w distinct, List.map_append, left, new,
    values_targets]

theorem additions_eq_nil {keys : List κ}
    (stored : ∀ k ∈ keysTagged keyOf .created submitted, k ∈ keys) :
    additions keyOf submitted keys = [] := by
  refine List.map_eq_nil_iff.mpr (List.filter_eq_nil_iff.mpr fun l hl new => ?_)
  obtain ⟨tag, absent⟩ := of_decide_eq_true new
  exact absent (stored _ (mem_keysTagged.mpr ⟨l, hl, rfl, tag⟩))

/-- What was stored by a submission has met all of its links. -/
theorem settle_settle (distinct : (submitted.map (Link.key keyOf)).Nodup)
    (previous : List (Link α)) :
    settle keyOf (settle keyOf previous submitted) submitted = settle keyOf previous submitted := by
  have keys : ((settle keyOf previous submitted).map (Link.key keyOf)).Nodup :=
    nodup_keys_settle previous submitted
  have known : ∀ k, k ∈ (settle keyOf previous submitted).map (Link.key keyOf) ↔
      (k ∈ previous.map (Link.key keyOf) ∧ k ∉ keysTagged keyOf .deleted submitted) ∨
        k ∈ keysTagged keyOf .created submitted := fun _ => mem_keys_settle distinct
  have form := settle_eq_map distinct previous
  rw [settle_eq_map distinct]
  generalize settle keyOf previous submitted = stored at keys known form ⊢
  have loaded : Keyed.latestByKey keyOf (stored.map (·.target)) = stored.map (·.target) :=
    Keyed.latestByKey_of_nodup (by rwa [List.map_map])
  have stays : ∀ a ∈ stored.map (·.target), keyOf a ∉ keysTagged keyOf .deleted submitted := by
    intro a ha deleted
    obtain ⟨l, hl, rfl⟩ := List.mem_map.mp ha
    rcases (known _).mp (List.mem_map_of_mem hl) with ⟨_, kept⟩ | created
    · exact kept deleted
    · cases tag_unique distinct created deleted
  have met : ∀ a ∈ stored.map (·.target), refreshed keyOf submitted a = id a := by
    intro a ha
    rw [form, List.map_map, List.map_append, List.mem_append] at ha
    rcases ha with old | new
    · obtain ⟨_, hb, rfl⟩ := List.mem_map.mp old
      obtain ⟨b, _, rfl⟩ := List.mem_map.mp hb
      exact refreshed_refreshed b
    · obtain ⟨b, hb, rfl⟩ := List.mem_map.mp new
      exact refreshed_of_mem_additions distinct hb
  have bare (items : List α) : (items.map Link.stored).map (·.target) = items := by
    rw [List.map_map]
    exact List.map_id' items
  have nothing : additions keyOf submitted (stored.map (Link.key keyOf)) = [] :=
    additions_eq_nil fun k hk => (known k).mpr (Or.inr hk)
  rw [loaded, List.filter_eq_self.mpr fun a ha => decide_eq_true (stays a ha),
    List.map_congr_left met, List.map_id, nothing, List.append_nil, form, bare]

/-- Links of distinct keys leave the stored targets that none of them deletes, each in the place of
its first entry and as it is submitted or, where no link refreshes it, as it was stored last; after
them come the created targets that were not stored, in order of submission. All are kept, no key is
stored twice, and the same submission changes nothing more. -/
theorem settle_of_distinct (keyOf : α → κ) (previous submitted : List (Link α))
    (distinct : (submitted.map (Link.key keyOf)).Nodup) :
    let loaded := Keyed.latestByKey keyOf (previous.map (·.target))
    let left := loaded.filter fun a => keyOf a ∉ keysTagged keyOf .deleted submitted
    let settled := settle keyOf previous submitted
    settled = (left.map (refreshed keyOf submitted) ++
      additions keyOf submitted (previous.map (Link.key keyOf))).map .stored ∧
    (settled.map (Link.key keyOf)).Nodup ∧
    (∀ l ∈ settled, l.tag = .kept) ∧
    settle keyOf settled submitted = settled := by
  intro loaded left settled
  have form : settled = _ := settle_eq_map distinct previous
  refine ⟨form, nodup_keys_settle previous submitted, ?_, settle_settle distinct previous⟩
  intro l hl
  rw [form] at hl
  obtain ⟨a, _, rfl⟩ := List.mem_map.mp hl
  rfl

/-- Targets of a key and a version. The first was stored twice and is created once more, the second
is deleted, the third updated, the fourth only mentioned; the fifth is new, the sixth unknown. -/
theorem settled_versions :
    let previous : List (Link (Nat × Nat)) :=
      [.stored (1, 0), .stored (2, 0), ⟨(1, 1), .deleted⟩, .stored (3, 0), .stored (4, 0)]
    let submitted : List (Link (Nat × Nat)) := [⟨(5, 2), .created⟩, ⟨(3, 2), .updated⟩,
      ⟨(2, 2), .deleted⟩, ⟨(1, 2), .created⟩, ⟨(4, 2), .kept⟩, ⟨(6, 2), .statusChanged⟩]
    let settled := settle Prod.fst previous submitted
    (submitted.map (Link.key Prod.fst)).Nodup ∧
      settled = [.stored (1, 1), .stored (3, 2), .stored (4, 0), .stored (5, 2)] ∧
      (settled.map (Link.key Prod.fst)).Nodup ∧ settle Prod.fst settled submitted = settled := by
  intro previous submitted settled
  have distinct : (submitted.map (Link.key Prod.fst)).Nodup := by decide
  obtain ⟨_, once, _, again⟩ := settle_of_distinct Prod.fst previous submitted distinct
  exact ⟨distinct, by decide, once, again⟩

end BackOffice.Association
