import BackOffice.Proofs.Association.Checking
import BackOffice.Proofs.Association.Saving
import Mathlib.Algebra.Group.Nat.Even

/-!
# Tags do not depend on the way

After stored links were taken over, the tag of a candidate is told by two facts: whether it was
stored, and whether it is attached now. So edits that leave the stored candidates attached, and no
others, leave no trace: the links are those that were taken over. In particular this is so when each
checkbox was clicked an even number of times, in whatever order and on whatever pages.
-/
namespace BackOffice.Association

variable {α κ : Type} [DecidableEq κ] {keyOf : α → κ}

/-- The edit loads a page of candidates or clicks a checkbox. -/
def Edit.isBrowsing : Edit α κ → Bool
  | .offer _ | .toggle _ => true
  | _ => false

namespace Sync

variable {s : Sync keyOf} {stored : List (Link α)} {k j : κ}

/-! ## Links told by what is attached -/

theorem attached_iff_of_mem (w : s.WellFormed) {l : Link α} (h : l ∈ s.links) :
    l.key keyOf ∈ s.attached ↔ l.tag ≠ .deleted := by
  rw [mem_attached_iff w, tag?_of_mem w h]
  simp

theorem mem_keys_of_targets :
    k ∈ (targets keyOf stored).values.map keyOf ↔ k ∈ stored.map (Link.key keyOf) := by
  have before : (targets keyOf stored).KeyedBy keyOf := keyedBy_targets stored
  rw [← before.keys_eq, mem_keys_targets]

/-- The links are the stored ones, each kept if it is attached, and after them new ones. -/
theorem links_eq_of_keepsStored (w : s.WellFormed) (h : KeepsStored keyOf stored s.links) :
    ∃ created : List α, s.links = (targets keyOf stored).values.map
        (fun a => ⟨a, if keyOf a ∈ s.attached then .kept else .deleted⟩) ++
          created.map (⟨·, .created⟩) ∧
      ∀ a ∈ created, keyOf a ∉ stored.map (Link.key keyOf) := by
  obtain ⟨olds, news, split, places, tags, created⟩ := h
  refine ⟨news.map (·.target), ?_, ?_⟩
  · rw [← places, List.map_map, List.map_map]
    have oldsEq : olds.map ((fun a => ⟨a, if keyOf a ∈ s.attached then Tag.kept else .deleted⟩) ∘
        fun l => l.target) = olds := by
      refine (List.map_congr_left fun l hl => ?_).trans (List.map_id' _)
      have member : l ∈ s.links := split ▸ List.mem_append_left news hl
      have attached := attached_iff_of_mem w member
      rcases tags l hl with tag | tag
      · have present : keyOf l.target ∈ s.attached := attached.mpr (by simp [tag])
        rw [Function.comp_apply, if_pos present, ← tag]
      · have absent : keyOf l.target ∉ s.attached := fun there => attached.mp there tag
        rw [Function.comp_apply, if_neg absent, ← tag]
    have newsEq : news.map ((⟨·, Tag.created⟩) ∘ fun l => l.target) = news := by
      refine (List.map_congr_left fun l hl => ?_).trans (List.map_id' _)
      rw [Function.comp_apply, ← created l hl]
    rw [oldsEq, newsEq]
    exact split
  · intro a ha
    obtain ⟨l, hl, rfl⟩ := List.mem_map.mp ha
    have member : l ∈ s.links := split ▸ List.mem_append_right olds hl
    have kept : KeepsStored keyOf stored s.links := ⟨olds, news, split, places, tags, created⟩
    exact kept.created_new w.membership.nodup_keys
      (mem_keysTagged.mpr ⟨l, member, rfl, created l hl⟩)

theorem tag?_of_keepsStored (w : s.WellFormed) (h : KeepsStored keyOf stored s.links) (k : κ) :
    s.tag? k = if k ∈ stored.map (Link.key keyOf)
      then some (if k ∈ s.attached then .kept else .deleted)
      else if k ∈ s.attached then some .created else none := by
  obtain ⟨created, links, new⟩ := links_eq_of_keepsStored w h
  split
  · next old =>
    obtain ⟨a, ha, rfl⟩ := List.mem_map.mp (mem_keys_of_targets.mpr old)
    exact tag?_of_mem w (links ▸ List.mem_append_left _ (List.mem_map.mpr ⟨a, ha, rfl⟩))
  · next unknown =>
    cases tagged : s.tag? k with
    | none =>
      have absent : k ∉ s.attached := by
        rw [mem_attached_iff w, tagged]
        simp
      rw [if_neg absent]
    | some tag =>
      obtain ⟨l, hl, rfl, rfl⟩ := (tag?_eq_some_iff w).mp tagged
      have here := hl
      rw [links, List.mem_append, List.mem_map, List.mem_map] at here
      rcases here with ⟨a, ha, rfl⟩ | ⟨a, _, rfl⟩
      · exact absurd (mem_keys_of_targets.mp (List.mem_map.mpr ⟨a, ha, rfl⟩)) unknown
      · have live : Tag.created ≠ .deleted := by decide
        rw [if_pos ((attached_iff_of_mem w hl).mpr live)]

/-- Where the stored candidates are attached and no others, nothing is left of any edit. -/
theorem links_of_attached_eq (w : s.WellFormed) (h : KeepsStored keyOf stored s.links)
    (same : ∀ k, k ∈ s.attached ↔ k ∈ stored.map (Link.key keyOf)) :
    s.links = (targets keyOf stored).values.map .stored := by
  obtain ⟨created, links, new⟩ := links_eq_of_keepsStored w h
  have nothing : created = [] := by
    refine List.eq_nil_iff_forall_not_mem.mpr fun a ha => new a ha ?_
    have member : (⟨a, .created⟩ : Link α) ∈ s.links :=
      links ▸ List.mem_append_right _ (List.mem_map.mpr ⟨a, ha, rfl⟩)
    exact (same _).mp ((attached_iff_of_mem w member).mpr nofun)
  rw [links, nothing, List.map_nil, List.append_nil]
  refine List.map_congr_left fun a ha => ?_
  have present : keyOf a ∈ s.attached :=
    (same _).mpr (mem_keys_of_targets.mp (List.mem_map.mpr ⟨a, ha, rfl⟩))
  rw [if_pos present]
  rfl

/-! ## Clicks on checkboxes -/

/-- The keys of the loaded candidates whose checkboxes are clicked, click by click. -/
def clicks (s : Sync keyOf) : List (Edit α κ) → List κ
  | [] => []
  | e :: rest =>
    match e with
    | .toggle k => if s.pool.contains k then k :: (s.edit e).clicks rest else (s.edit e).clicks rest
    | _ => (s.edit e).clicks rest

theorem mem_attached_toggle (w : s.WellFormed) (h : s.InStep) (k : κ) :
    j ∈ (s.toggle k).1.attached ↔
      if j = k ∧ k ∈ s.pool.keys then j ∉ s.attached else j ∈ s.attached := by
  have selected : WellFormed { s with pool := (s.pool.toggle k).1 } :=
    ⟨w.pool.toggle k, w.membership⟩
  have reports := Keyed.reports_toggle s.pool k
  refine (mem_attached_apply selected (s.pool.toggle k).2).trans ?_
  rw [reports.mem_added, reports.mem_removed, w.pool.mem_selected_toggle]
  by_cases here : j = k ∧ k ∈ s.pool.keys
  · have loaded : j ∈ s.pool.keys := here.1 ▸ here.2
    have present : j ∈ ({ s with pool := (s.pool.toggle k).1 } : Sync keyOf).pool.keys :=
      reports.keys_eq ▸ loaded
    rw [if_pos here, if_pos here]
    by_cases old : j ∈ s.attached
    · have checked := (h j).mpr ⟨loaded, old⟩
      simp [checked, old]
    · have unchecked : j ∉ s.pool.selected := fun checked => old ((h j).mp checked).2
      simp [unchecked, old, present]
  · rw [if_neg here, if_neg here]
    constructor
    · rintro ⟨old | ⟨⟨new, unchecked⟩, _⟩, _⟩
      · exact old
      · exact absurd new unchecked
    · intro old
      exact ⟨Or.inl old, fun gone => gone.2 gone.1⟩

/-- A candidate is attached as before exactly if it was clicked an even number of times. -/
theorem attached_iff_even (w : s.WellFormed) (h : s.InStep) {es : List (Edit α κ)}
    (browsing : ∀ e ∈ es, e.isBrowsing = true) (k : κ) :
    k ∈ (s.edits es).attached ↔ (k ∈ s.attached ↔ Even ((s.clicks es).count k)) := by
  induction es generalizing s with
  | nil =>
    rw [clicks, List.count_nil]
    simp [edits]
  | cons e rest ih =>
    obtain ⟨first, others⟩ := List.forall_mem_cons.mp browsing
    have w' : (s.edit e).WellFormed := w.moves (moves_edit w e)
    cases e with
    | offer candidates =>
      have h' : (s.offer candidates).InStep := inStep_checkAttached _
      exact ih w' h' others
    | toggle j =>
      have h' : (s.toggle j).1.InStep := h.act w (a := .edit (.toggle j)) rfl
      have after := (ih w' h' others).trans (iff_congr (mem_attached_toggle w h j) Iff.rfl)
      refine after.trans ?_
      by_cases loaded : j ∈ s.pool.keys
      · rw [clicks, if_pos (Keyed.contains_iff.mpr loaded), List.count_cons]
        by_cases same : k = j
        · subst same
          rw [if_pos ⟨rfl, loaded⟩, if_pos (beq_self_eq_true k), Nat.even_add_one]
          exact not_iff_comm.trans Iff.comm
        · simp [same, Ne.symm same]
      · rw [clicks, if_neg (mt Keyed.contains_iff.mp loaded), if_neg fun here => loaded here.2]
    | apply _ | check _ | uncheck _ | toggleAll | strike _ => cases first

theorem mem_attached_takeStored (s : Sync keyOf) (stored : List (Link α))
    (w : (s.takeStored stored).WellFormed) :
    k ∈ (s.takeStored stored).attached ↔ k ∈ stored.map (Link.key keyOf) := by
  have before : (targets keyOf stored).KeyedBy keyOf := keyedBy_targets stored
  rw [mem_attached_iff w, ← mem_keys_targets, ← keys_map_stored before]
  constructor
  · rintro ⟨tag, tagged, _⟩
    obtain ⟨l, hl, rfl, _⟩ := (tag?_eq_some_iff w).mp tagged
    rw [links_takeStored] at hl
    exact List.mem_map.mpr ⟨l, hl, rfl⟩
  · intro stored
    obtain ⟨l, hl, rfl⟩ := List.mem_map.mp stored
    obtain ⟨a, _, rfl⟩ := List.mem_map.mp hl
    exact ⟨.kept, tag?_of_mem w (links_takeStored s _ ▸ hl), nofun⟩

/-- However stored links were edited since they were taken over, each is in its place, with its
target, kept or deleted, and all others are to be created: the tag of a candidate depends on whether
it was stored and whether it is attached. Where the stored ones are attached and no others, and so
after an even number of clicks on each checkbox, the links are as they were and nothing is
pending. -/
theorem tags_of_edited (keyOf : α → κ) (stored : List (Link α)) (h : History α κ) :
    let loaded := Keyed.latestByKey keyOf (stored.map (·.target))
    let taken := edited keyOf stored ⟨h.before, []⟩
    let s := edited keyOf stored h
    taken.links = loaded.map .stored ∧
    (s.links.map (Link.key keyOf)).Nodup ∧
    (∃ created : List α, s.links =
        loaded.map (fun a => ⟨a, if keyOf a ∈ s.attached then .kept else .deleted⟩) ++
          created.map (⟨·, .created⟩) ∧
      ∀ a ∈ created, keyOf a ∉ stored.map (Link.key keyOf)) ∧
    (∀ k, s.tag? k = if k ∈ stored.map (Link.key keyOf)
      then some (if k ∈ s.attached then .kept else .deleted)
      else if k ∈ s.attached then some .created else none) ∧
    (∀ k, ¬ (k ∈ keysTagged keyOf .created s.links ∧ k ∈ keysTagged keyOf .deleted s.links)) ∧
    ((∀ k, k ∈ s.attached ↔ k ∈ stored.map (Link.key keyOf)) →
      s.links = taken.links ∧ s.isPending = false) ∧
    ((∀ e ∈ h.since, e.isBrowsing = true) → (∀ k, Even ((taken.clicks h.since).count k)) →
      s.links = taken.links ∧ s.isPending = false) := by
  intro loaded taken s
  have values : (targets keyOf stored).values = loaded :=
    Keyed.toList_load (s := (.empty : Keyed keyOf)) (stored.map Link.target)
  have w : s.WellFormed := wellFormed_edited keyOf stored h
  have kept : KeepsStored keyOf stored s.links := keepsStored_edited keyOf stored h
  have start : taken.links = loaded.map .stored := by
    rw [← values]
    exact links_takeStored _ stored
  have reverted : (∀ k, k ∈ s.attached ↔ k ∈ stored.map (Link.key keyOf)) →
      s.links = taken.links ∧ s.isPending = false := by
    intro same
    have links := links_of_attached_eq w kept same
    refine ⟨links.trans (values ▸ start.symm), isPending_eq_false_iff.mpr fun l hl => ?_⟩
    rw [links] at hl
    obtain ⟨a, _, rfl⟩ := List.mem_map.mp hl
    rfl
  refine ⟨start, w.membership.nodup_keys, ?_, tag?_of_keepsStored w kept, ?_, reverted, ?_⟩
  · rw [← values]
    exact links_eq_of_keepsStored w kept
  · rintro k ⟨created, deleted⟩
    cases tag_unique w.membership.nodup_keys created deleted
  · intro browsing even
    refine reverted fun k => ?_
    have begun : taken.WellFormed := wellFormed_edited keyOf stored ⟨h.before, []⟩
    have inStep : taken.InStep := inStep_checkAttached _
    have clicked : k ∈ s.attached ↔ (k ∈ taken.attached ↔ Even ((taken.clicks h.since).count k)) :=
      attached_iff_even begun inStep browsing k
    rw [clicked, iff_true_right (even k)]
    exact mem_attached_takeStored _ stored begun

/-- A stored candidate and a new one are clicked twice each, by turns and on different pages. -/
theorem links_of_even_clicks :
    let stored : List (Link Nat) := [⟨1, .deleted⟩, ⟨2, .updated⟩, ⟨1, .kept⟩]
    let h : History Nat Nat := ⟨[.edit (.offer [2, 4])],
      [.toggle 2, .toggle 4, .offer [4, 5], .toggle 2, .toggle 4, .offer [1, 2], .toggle 2]⟩
    let taken := edited id stored ⟨h.before, []⟩
    let s := edited id stored h
    (∀ e ∈ h.since, e.isBrowsing = true) ∧ taken.clicks h.since = [2, 4, 4, 2] ∧
      s.links = [⟨1, .kept⟩, ⟨2, .kept⟩] ∧ s.links = taken.links ∧ s.isPending = false := by
  intro stored h taken s
  have browsing : ∀ e ∈ h.since, e.isBrowsing = true := by decide
  have clicks : taken.clicks h.since = [2, 4, 4, 2] := by decide
  have even : ∀ k, Even ((taken.clicks h.since).count k) := by
    intro k
    rw [clicks]
    by_cases two : k = 2
    · subst two
      decide
    · by_cases four : k = 4
      · subst four
        decide
      · rw [List.count_eq_zero_of_not_mem (by simp [two, four])]
        exact Even.zero
  obtain ⟨_, _, _, _, _, _, reverted⟩ := tags_of_edited id stored h
  exact ⟨browsing, clicks, by decide, reverted browsing even⟩

end Sync

end BackOffice.Association
