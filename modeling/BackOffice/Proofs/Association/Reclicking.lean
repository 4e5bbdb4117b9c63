import BackOffice.Proofs.Association.Checking

/-!
# Clicking a checkbox twice

A click on the checkbox of a loaded candidate changes its tag in a way that depends on that tag
alone, and no other tag. A second click takes the first one back, whatever was pending before, with
one exception: a member that was to be updated comes back as one that is kept. Detaching it marks it
for deletion, and a mark that is taken off leaves nothing of the tag that was there before.
-/
namespace BackOffice.Association

namespace Tag

/-- The tag of a candidate after its checkbox was clicked. -/
def clicked : Option Tag → Option Tag
  | none => some created
  | some created => none
  | some deleted => some kept
  | some kept | some updated | some statusChanged => some deleted

/-- The tag asks for a change of the stored target. -/
def isChange : Option Tag → Bool
  | some updated | some statusChanged => true
  | _ => false

theorem clicked_of_attached {tag : Tag} (attached : tag ≠ deleted) :
    clicked (some tag) = detaching (some tag) := by
  cases tag with
  | deleted => exact absurd rfl attached
  | kept | created | updated | statusChanged => rfl

theorem clicked_of_detached {tag : Option Tag} (detached : ∀ t, tag = some t → t = deleted) :
    clicked tag = some (attaching tag) := by
  cases tag with
  | none => rfl
  | some t =>
    cases detached t rfl
    rfl

theorem clicked_clicked (tag : Option Tag) :
    clicked (clicked tag) = if isChange tag then some kept else tag := by
  cases tag with
  | none => rfl
  | some t => cases t <;> rfl

end Tag

variable {α κ : Type} [DecidableEq κ] {keyOf : α → κ}

namespace Sync

variable {s : Sync keyOf} {k j : κ}

/-- A click detaches a candidate that is attached and attaches any other, if it is loaded. -/
theorem toggle_cases (w : s.WellFormed) (h : s.InStep) (loaded : k ∈ s.pool.keys) :
    let clicked : Sync keyOf := { s with pool := (s.pool.toggle k).1 }
    (k ∈ s.attached ∧ (s.toggle k).1 = clicked.detach k) ∨
      k ∉ s.attached ∧ ∃ a, keyOf a = k ∧ (s.toggle k).1 = clicked.attach (keyOf a) a := by
  intro clicked
  by_cases checked : k ∈ s.pool.selected
  · have change : (s.pool.toggle k).2 = ⟨[], [k]⟩ := by
      rw [Keyed.toggle, Keyed.deselect, Keyed.isSelected_iff.mpr checked]
      rfl
    refine Or.inl ⟨((h k).mp checked).2, ?_⟩
    rw [toggle, follow, change]
    rfl
  · have change : (s.pool.toggle k).2 = ⟨[k], []⟩ := by
      rw [Keyed.toggle, Keyed.select, Keyed.isSelected_eq_false_iff.mpr checked,
        Keyed.contains_iff.mpr loaded]
      rfl
    have items : clicked.pool.items = s.pool.items := Keyed.toggle_items s.pool k
    cases found : s.pool.find? k with
    | none => exact absurd loaded (OrderedMap.get?_eq_none_iff.mp found)
    | some a =>
      have there : clicked.pool.find? k = some a := by rw [Keyed.find?, items, ← Keyed.find?, found]
      have own : keyOf a = k := (w.pool.find?_eq_some_iff.mp found).2
      refine Or.inr ⟨fun attached => checked ((h k).mpr ⟨loaded, attached⟩), a, own, ?_⟩
      have done : (s.toggle k).1 = clicked.attachLoaded k := by
        rw [toggle, follow, change]
        rfl
      rw [done, attachLoaded, there, own]

theorem tag?_toggle (w : s.WellFormed) (h : s.InStep) (loaded : k ∈ s.pool.keys) :
    (s.toggle k).1.tag? j = if j = k then Tag.clicked (s.tag? j) else s.tag? j := by
  have selected : WellFormed { s with pool := (s.pool.toggle k).1 } :=
    ⟨w.pool.toggle k, w.membership⟩
  rcases toggle_cases w h loaded with ⟨attached, done⟩ | ⟨detached, a, own, done⟩
  · rw [done, tag?_detach selected]
    split
    · next same =>
      obtain ⟨tag, tagged, live⟩ := (mem_attached_iff w).mp (same ▸ attached)
      rw [tagged, Tag.clicked_of_attached live]
      exact congrArg Tag.detaching tagged
    · rfl
  · rw [done, tag?_attach selected, own]
    split
    · next same =>
      refine (Tag.clicked_of_detached fun t tagged => ?_).symm
      by_contra live
      exact detached ((mem_attached_iff w).mpr ⟨t, same ▸ tagged, live⟩)
    · rfl

/-- Two clicks on a loaded candidate, and what they do to the tags. -/
theorem tag?_toggle_toggle (w : s.WellFormed) (h : s.InStep) (loaded : k ∈ s.pool.keys) :
    ((s.toggle k).1.toggle k).1.tag? j =
      if j = k ∧ Tag.isChange (s.tag? j) then some .kept else s.tag? j := by
  have w' : (s.toggle k).1.WellFormed := w.moves (moves_edit w (.toggle k))
  have h' : (s.toggle k).1.InStep := h.act w (a := .edit (.toggle k)) rfl
  have loaded' : k ∈ (s.toggle k).1.pool.keys := by
    have pool : (s.toggle k).1.pool = (s.pool.toggle k).1 := pool_apply _ _
    rwa [pool, Keyed.keys, Keyed.toggle_items]
  rw [tag?_toggle w' h' loaded', tag?_toggle w h loaded]
  by_cases same : j = k
  · simp only [same, true_and, if_true, Tag.clicked_clicked]
  · simp only [same, false_and, if_false]

/-- Two clicks leave every checkbox as it was. -/
theorem mem_selected_toggle_toggle (w : s.WellFormed) :
    j ∈ ((s.toggle k).1.toggle k).1.pool.selected ↔ j ∈ s.pool.selected := by
  have pool (t : Sync keyOf) : (t.toggle k).1.pool = (t.pool.toggle k).1 := pool_apply _ _
  have keys : (s.pool.toggle k).1.keys = s.pool.keys := by
    rw [Keyed.keys, Keyed.toggle_items, Keyed.keys]
  rw [pool, pool, (w.pool.toggle k).mem_selected_toggle, w.pool.mem_selected_toggle, keys]
  split
  · exact not_not
  · rfl

/-- Whatever an association took over and however it was edited, two clicks on the checkbox of a
loaded candidate leave it with the tag that it had, or without one if it had none, unless it was to
be updated or to change its status: it is kept then. No other tag and no checkbox is changed. -/
theorem tag?_of_two_clicks (keyOf : α → κ) (acts : List (Act α κ))
    (own : ∀ a ∈ acts, a.isOwn = true) (k : κ)
    (loaded : ((empty : Sync keyOf).run acts).pool.contains k = true) :
    let s := (empty : Sync keyOf).run acts
    let t := ((s.toggle k).1.toggle k).1
    (s.tag? k ≠ some .updated → s.tag? k ≠ some .statusChanged → t.tag? k = s.tag? k) ∧
    (s.tag? k = some .updated ∨ s.tag? k = some .statusChanged → t.tag? k = some .kept) ∧
    (∀ j, j ≠ k → t.tag? j = s.tag? j) ∧
    ∀ j, t.pool.isSelected j = s.pool.isSelected j := by
  intro s t
  have w : s.WellFormed := wellFormed_run acts
  have h : s.InStep := inStep_run own
  have present : k ∈ s.pool.keys := Keyed.contains_iff.mp loaded
  refine ⟨?restored, ?lost, ?others, ?checkboxes⟩
  case restored =>
    intro update status
    refine (tag?_toggle_toggle w h present).trans (if_neg fun change => ?_)
    cases tagged : s.tag? k with
    | none => simp [tagged, Tag.isChange] at change
    | some tag =>
      cases tag with
      | updated => exact update tagged
      | statusChanged => exact status tagged
      | kept | created | deleted => simp [tagged, Tag.isChange] at change
  case lost =>
    intro change
    refine (tag?_toggle_toggle w h present).trans (if_pos ⟨rfl, ?_⟩)
    rcases change with tagged | tagged <;> rw [tagged] <;> rfl
  case others =>
    intro j other
    exact (tag?_toggle_toggle w h present).trans (if_neg fun change => other change.1)
  case checkboxes =>
    intro j
    rw [Bool.eq_iff_iff, Keyed.isSelected_iff, Keyed.isSelected_iff]
    exact mem_selected_toggle_toggle w

/-- A link to be created and one to be deleted, each clicked twice. -/
theorem tags_of_two_clicks :
    let acts : List (Act Nat Nat) := [.takeDraft [⟨1, .created⟩, ⟨2, .deleted⟩, ⟨3, .updated⟩],
      .edit (.offer [4, 3, 2, 1])]
    let s := (empty : Sync (id : Nat → Nat)).run acts
    let t := ((s.toggle 1).1.toggle 1).1
    let u := ((s.toggle 2).1.toggle 2).1
    (∀ a ∈ acts, a.isOwn = true) ∧ s.pool.contains 1 = true ∧ s.pool.contains 2 = true ∧
      t.tag? 1 = some .created ∧ t.tag? 3 = some .updated ∧ u.tag? 2 = some .deleted := by
  intro acts s t u
  have own : ∀ a ∈ acts, a.isOwn = true := by decide
  obtain ⟨first, _, others, _⟩ := tag?_of_two_clicks id acts own 1 (by decide)
  obtain ⟨second, _⟩ := tag?_of_two_clicks id acts own 2 (by decide)
  exact ⟨own, by decide, by decide, first (by decide) (by decide), others 3 (by decide),
    second (by decide) (by decide)⟩

/-- A link of a draft is to be updated. Its checkbox is clicked twice, and the update is lost. -/
theorem update_lost_by_two_clicks :
    let acts : List (Act Nat Nat) := [.takeDraft [⟨1, .updated⟩], .edit (.offer [1])]
    let s := (empty : Sync (id : Nat → Nat)).run acts
    let t := ((s.toggle 1).1.toggle 1).1
    (∀ a ∈ acts, a.isOwn = true) ∧ s.pool.contains 1 = true ∧ s.tag? 1 = some .updated ∧
      t.tag? 1 = some .kept ∧ t.tag? 1 ≠ s.tag? 1 := by
  decide

end Sync

end BackOffice.Association
