import BackOffice.Proofs.Association.Tagging
import BackOffice.Proofs.Keyed.Selecting

/-!
# Checkboxes show the membership

A candidate is checked exactly if it is loaded and attached. Operations on the pool change the
selection first and carry the change over to the membership; removal from the membership goes the
other way, and loading either list checks the candidates anew. All of them leave the two lists in
step, whatever tags the members have and whichever candidates are loaded.

A change that is applied from elsewhere does not: it attaches candidates without checking them.
-/
namespace BackOffice.Association

variable {α κ : Type} [DecidableEq κ] {keyOf : α → κ}

/-- The act is not a change from elsewhere. -/
def Act.isOwn : Act α κ → Bool
  | .edit (.apply _) => false
  | _ => true

namespace Sync

variable {s : Sync keyOf} {k j : κ}

/-- The checked candidates are those that are loaded and attached. -/
def InStep (s : Sync keyOf) : Prop :=
  ∀ k, k ∈ s.pool.selected ↔ k ∈ s.pool.keys ∧ k ∈ s.attached

theorem inStep_checkAttached (s : Sync keyOf) : s.checkAttached.InStep := by
  intro k
  have keys : s.checkAttached.pool.keys = s.pool.keys := by
    refine List.foldlRecOn (motive := fun pool : Keyed keyOf => pool.keys = s.pool.keys)
      s.attached _ rfl ?_
    intro pool same k _
    exact (Keyed.keys_select pool k).trans same
  have checked := Keyed.mem_selected_foldl_select (s := s.pool.clearSelection.1) (j := k) s.attached
  have none : k ∉ s.pool.clearSelection.1.selected := nofun
  rw [keys]
  refine checked.trans ?_
  rw [or_iff_right none, and_comm]
  rfl

/-- What the pool reports is what the membership has to follow. -/
theorem InStep.follow (h : s.InStep) (w : s.WellFormed) {result : Keyed keyOf × KeyChange κ}
    (wellFormed : result.1.WellFormed) (reports : Keyed.Reports s.pool result) :
    (s.follow result).1.InStep := by
  intro k
  have selected : WellFormed { s with pool := result.1 } := ⟨wellFormed, w.membership⟩
  have pool : (s.follow result).1.pool = result.1 := pool_apply _ _
  have attached : k ∈ (s.follow result).1.attached ↔
      (k ∈ s.attached ∨ (k ∈ result.2.added ∧ k ∈ result.1.keys)) ∧ k ∉ result.2.removed :=
    mem_attached_apply selected result.2
  rw [pool, attached]
  constructor
  · intro checked
    have loaded := wellFormed.selected_loaded k checked
    rcases reports.mem_selected.mp checked with ⟨stays, old | new⟩
    · exact ⟨loaded, Or.inl ((h k).mp old).2, stays⟩
    · exact ⟨loaded, Or.inr ⟨new, loaded⟩, stays⟩
  · rintro ⟨loaded, old | ⟨new, _⟩, stays⟩
    · rw [reports.keys_eq] at loaded
      exact reports.mem_selected.mpr ⟨stays, Or.inl ((h k).mpr ⟨loaded, old⟩)⟩
    · exact reports.mem_selected.mpr ⟨stays, Or.inr new⟩

theorem InStep.strike (h : s.InStep) (w : s.WellFormed) (k : κ) : (s.strike k).1.InStep := by
  rcases strike_cases s k with ⟨_, same⟩ | ⟨deleted, restored⟩ | detached
  · rw [same]
    exact h
  · rw [restored]
    intro j
    have member : s.tag? k ≠ none := by simp [deleted]
    have attached := mem_attached_restored (j := j) w member
    change j ∈ (s.pool.select k).1.selected ↔
      j ∈ (s.pool.select k).1.keys ∧ j ∈ (s.setTag k .kept).attached
    rw [Keyed.mem_selected_select, Keyed.keys_select, attached, h j, and_or_left]
    exact or_congr_right and_comm
  · rw [detached]
    intro j
    have attached := mem_attached_detach (j := j) w k
    change j ∈ (s.pool.deselect k).1.selected ↔
      j ∈ (s.pool.deselect k).1.keys ∧ j ∈ (s.detach k).attached
    rw [Keyed.mem_selected_deselect, Keyed.keys_deselect, attached, h j]
    exact and_assoc

theorem InStep.act (h : s.InStep) (w : s.WellFormed) {a : Act α κ} (own : a.isOwn = true) :
    (s.act a).InStep := by
  cases a with
  | takeStored links => exact inStep_checkAttached _
  | takeDraft links => exact inStep_checkAttached _
  | edit e =>
    cases e with
    | offer candidates => exact inStep_checkAttached _
    | apply change => cases own
    | check k => exact h.follow w (w.pool.select k) (Keyed.reports_select s.pool k)
    | uncheck k => exact h.follow w (w.pool.deselect k) (Keyed.reports_deselect s.pool k)
    | toggle k => exact h.follow w (w.pool.toggle k) (Keyed.reports_toggle s.pool k)
    | toggleAll => exact h.follow w w.pool.toggleAll w.pool.reports_toggleAll
    | strike k => exact h.strike w k

omit [DecidableEq κ] in
theorem inStep_empty : (empty : Sync keyOf).InStep := by
  intro k
  constructor
  · exact nofun
  · rintro ⟨loaded, _⟩
    cases loaded

theorem inStep_run {acts : List (Act α κ)} (own : ∀ a ∈ acts, a.isOwn = true) :
    ((empty : Sync keyOf).run acts).InStep := by
  have both : ((empty : Sync keyOf).run acts).WellFormed ∧
      ((empty : Sync keyOf).run acts).InStep := by
    refine List.foldlRecOn (motive := fun s : Sync keyOf => s.WellFormed ∧ s.InStep) acts Sync.act
      ⟨wellFormed_empty, inStep_empty⟩ ?_
    rintro s ⟨w, h⟩ a given
    exact ⟨w.act a, h.act w (own a given)⟩
  exact both.2

/-- Whatever an association takes over and however it is edited, from the pool or from the
membership, a candidate is checked exactly if it is loaded and a member that is not marked for
deletion. Both lists hold each key once, under the key of its item, and loading candidates leaves
the membership alone. -/
theorem checked_along_run (keyOf : α → κ) (acts : List (Act α κ))
    (own : ∀ a ∈ acts, a.isOwn = true) :
    let s := (empty : Sync keyOf).run acts
    (∀ k, s.pool.isSelected k = true ↔
      s.pool.contains k = true ∧ ∃ tag, s.tag? k = some tag ∧ tag ≠ .deleted) ∧
    s.pool.items.KeyedBy keyOf ∧ s.membership.items.KeyedBy (Link.key keyOf) ∧
    ∀ candidates, (s.offer candidates).membership = s.membership := by
  intro s
  have w : s.WellFormed := wellFormed_run acts
  refine ⟨?_, w.pool.items, w.membership.items, fun _ => rfl⟩
  intro k
  rw [Keyed.isSelected_iff, Keyed.contains_iff, ← mem_attached_iff w]
  exact inStep_run own k

/-- One of three links of a draft is deleted. It is restored from the membership, the updated one is
unchecked, all are checked, the fourth candidate is struck again, and another page is loaded. -/
theorem checked_of_draft :
    let acts : List (Act Nat Nat) := [.takeDraft [⟨1, .updated⟩, ⟨2, .deleted⟩, ⟨3, .created⟩],
      .edit (.offer [1, 2, 3, 4]), .edit (.strike 2), .edit (.toggle 1), .edit .toggleAll,
      .edit (.strike 4), .edit (.offer [4, 3, 1])]
    let s := (empty : Sync (id : Nat → Nat)).run acts
    (∀ a ∈ acts, a.isOwn = true) ∧ s.pool.selected = [1, 3] ∧
      s.links = [⟨1, .kept⟩, ⟨2, .kept⟩, ⟨3, .created⟩] ∧
      (∀ k, s.pool.isSelected k = true ↔
        s.pool.contains k = true ∧ ∃ tag, s.tag? k = some tag ∧ tag ≠ .deleted) ∧
      s.pool.items.KeyedBy id ∧ s.membership.items.KeyedBy (Link.key id) ∧
      ∀ candidates, (s.offer candidates).membership = s.membership := by
  intro acts s
  have own : ∀ a ∈ acts, a.isOwn = true := by decide
  exact ⟨own, by decide, by decide, checked_along_run id acts own⟩

end Sync

end BackOffice.Association
