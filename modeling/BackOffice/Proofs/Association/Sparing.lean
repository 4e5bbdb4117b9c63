import BackOffice.Proofs.Association.Applying
import BackOffice.Proofs.Association.Checking

/-!
# What a click reaches

The header checkbox of the pool attaches the whole page that is loaded, or detaches it if all of it
was attached. Neither it nor any other checkbox reaches further than the change that it reports:
members of other keys, and so all that are not loaded, keep their targets, their tags and their
order, and no member changes places with another.
-/
namespace BackOffice.Association.Sync

variable {α κ : Type} [DecidableEq κ] {keyOf : α → κ} {s : Sync keyOf} {k : κ}

/-- An operation on the pool reports loaded candidates only, and leaves alone what it does not
report: the links of other keys as they are and in their order. What is left of the links that it
does report has its place, too; those that are created come last. -/
structure Spares (s : Sync keyOf) (result : Sync keyOf × KeyChange κ) : Prop where
  loaded : ∀ k, k ∈ result.2.added ∨ k ∈ result.2.removed → k ∈ s.pool.keys
  unreported : result.1.links.filter
      (fun l => l.key keyOf ∉ result.2.added ∧ l.key keyOf ∉ result.2.removed) =
    s.links.filter fun l => l.key keyOf ∉ result.2.added ∧ l.key keyOf ∉ result.2.removed
  unloaded : result.1.links.filter (fun l => l.key keyOf ∉ s.pool.keys) =
    s.links.filter fun l => l.key keyOf ∉ s.pool.keys
  places : ∃ left created, result.1.links = left ++ created ∧
    (left.map (·.target)).Sublist (s.links.map (·.target)) ∧
    ∀ l ∈ created, l.key keyOf ∈ result.2.added

/-- What the pool reports is all that the membership is told of. -/
theorem spares_follow (w : s.WellFormed) {result : Keyed keyOf × KeyChange κ}
    (wellFormed : result.1.WellFormed) (reports : Keyed.Reports s.pool result) :
    Spares s (s.follow result) := by
  have selected : WellFormed { s with pool := result.1 } := ⟨wellFormed, w.membership⟩
  have follows := follows_apply selected result.2
  have loaded : ∀ k, k ∈ result.2.added ∨ k ∈ result.2.removed → k ∈ s.pool.keys := by
    rintro k (added | removed)
    · rw [← reports.keys_eq]
      exact wellFormed.selected_loaded k ((reports.mem_added k).mp added).1
    · exact w.pool.selected_loaded k ((reports.mem_removed k).mp removed).1
  refine ⟨loaded, ?unreported, ?unloaded, ?places⟩
  case unreported =>
    exact follows.filter_links (p := fun k => k ∉ result.2.added ∧ k ∉ result.2.removed)
      fun k spared => of_decide_eq_true spared
  case unloaded =>
    refine follows.filter_links (p := fun k => k ∉ s.pool.keys) fun k spared => ?_
    have missing : k ∉ s.pool.keys := of_decide_eq_true spared
    exact ⟨fun added => missing (loaded k (.inl added)),
      fun removed => missing (loaded k (.inr removed))⟩
  case places =>
    obtain ⟨created, links, new⟩ := follows.links
    exact ⟨_, created, links, Link.targets_changed? s.links, fun l hl => (new l hl).added⟩

/-- The header checkbox attaches a loaded candidate unless all of them were attached. -/
theorem mem_attached_toggleAll (w : s.WellFormed) (h : s.InStep) (loaded : k ∈ s.pool.keys) :
    k ∈ s.toggleAll.1.attached ↔ ∃ j ∈ s.pool.keys, j ∉ s.attached := by
  have inStep : s.toggleAll.1.InStep := h.follow w w.pool.toggleAll w.pool.reports_toggleAll
  have pool : s.toggleAll.1.pool = s.pool.toggleAll.1 := pool_apply _ _
  have keys : s.toggleAll.1.pool.keys = s.pool.keys := by
    rw [pool, Keyed.keys, Keyed.toggleAll_items, Keyed.keys]
  have checked : k ∈ s.toggleAll.1.pool.selected ↔ k ∈ s.toggleAll.1.attached := by
    rw [inStep k, keys]
    exact and_iff_right loaded
  rw [← checked, pool, Keyed.mem_selected_toggleAll loaded]
  refine exists_congr fun j => and_congr_right fun present => not_congr ?_
  exact (h j).trans (and_iff_right present)

/-- Whatever an association takes over and however it is edited, the header checkbox attaches each
loaded candidate, or detaches each of them if all were attached. It and the checkboxes of single
candidates spare the members that they do not report, with their targets, tags and order, and so all
members that are not loaded. -/
theorem spares_along_run (keyOf : α → κ) (acts : List (Act α κ))
    (own : ∀ a ∈ acts, a.isOwn = true) :
    let s := (empty : Sync keyOf).run acts
    (∀ k ∈ s.pool.keys, (k ∈ s.toggleAll.1.attached ↔ ∃ j ∈ s.pool.keys, j ∉ s.attached)) ∧
    Spares s s.toggleAll ∧
    ∀ k, Spares s (s.check k) ∧ Spares s (s.uncheck k) ∧ Spares s (s.toggle k) := by
  intro s
  have w : s.WellFormed := wellFormed_run acts
  refine ⟨?header, ?page, ?single⟩
  case header =>
    intro k loaded
    exact mem_attached_toggleAll w (inStep_run own) loaded
  case page => exact spares_follow w w.pool.toggleAll w.pool.reports_toggleAll
  case single =>
    intro k
    exact ⟨spares_follow w (w.pool.select k) (Keyed.reports_select s.pool k),
      spares_follow w (w.pool.deselect k) (Keyed.reports_deselect s.pool k),
      spares_follow w (w.pool.toggle k) (Keyed.reports_toggle s.pool k)⟩

/-- Five members with a tag each, of which two are loaded between other candidates. The header
checkbox restores one and creates two; the three members that are not loaded stand as before. -/
theorem spares_of_draft :
    let acts : List (Act Nat Nat) := [.takeDraft [⟨1, .updated⟩, ⟨2, .deleted⟩, ⟨3, .created⟩,
      ⟨4, .statusChanged⟩, ⟨5, .deleted⟩], .edit (.offer [6, 5, 1, 7])]
    let s := (empty : Sync (id : Nat → Nat)).run acts
    (∀ a ∈ acts, a.isOwn = true) ∧
      s.toggleAll.1.links = [⟨1, .updated⟩, ⟨2, .deleted⟩, ⟨3, .created⟩, ⟨4, .statusChanged⟩,
        ⟨5, .kept⟩, ⟨6, .created⟩, ⟨7, .created⟩] ∧
      (∀ k ∈ s.pool.keys, (k ∈ s.toggleAll.1.attached ↔ ∃ j ∈ s.pool.keys, j ∉ s.attached)) ∧
      Spares s s.toggleAll ∧
      ∀ k, Spares s (s.check k) ∧ Spares s (s.uncheck k) ∧ Spares s (s.toggle k) := by
  intro acts s
  have own : ∀ a ∈ acts, a.isOwn = true := by decide
  exact ⟨own, by decide, spares_along_run id acts own⟩

end BackOffice.Association.Sync
