import BackOffice.Proofs.Keyed.Run
import BackOffice.Proofs.Keyed.Selecting

/-!
# Following a selection

A listener that knows the selected keys, and takes over each change that is reported, knows them
after any run of operations on the selection, in the order in which they were selected. It needs to
ask nothing and to see no item: the changes leave out nothing and report nothing twice.
-/
namespace BackOffice

/-- The selected keys after a change: those it removes are gone, those it adds come last. -/
def KeyChange.replay {κ : Type} [DecidableEq κ] (selected : List κ) (c : KeyChange κ) : List κ :=
  selected.filter (· ∉ c.removed) ++ c.added

namespace Keyed

/-- What can be done to the selection. -/
inductive Choice (κ : Type) where
  | select (k : κ)
  | deselect (k : κ)
  | toggle (k : κ)
  | selectAll
  | clearSelection
  | toggleAll

variable {α κ : Type} [DecidableEq κ] {keyOf : α → κ} {s : Keyed keyOf} {k : κ}

def choose (s : Keyed keyOf) : Choice κ → Keyed keyOf × KeyChange κ
  | .select k => s.select k
  | .deselect k => s.deselect k
  | .toggle k => s.toggle k
  | .selectAll => s.selectAll
  | .clearSelection => s.clearSelection
  | .toggleAll => s.toggleAll

/-- The list after a run of operations on the selection, and the changes that they reported. -/
def chooses (s : Keyed keyOf) : List (Choice κ) → Keyed keyOf × List (KeyChange κ)
  | [] => (s, [])
  | c :: rest =>
    let after := (s.choose c).1.chooses rest
    (after.1, (s.choose c).2 :: after.2)

theorem WellFormed.choose (w : s.WellFormed) (c : Choice κ) : (s.choose c).1.WellFormed := by
  cases c with
  | select k => exact w.select k
  | deselect k => exact w.deselect k
  | toggle k => exact w.toggle k
  | selectAll => exact w.selectAll
  | clearSelection => exact w.clearSelection
  | toggleAll => exact w.toggleAll

theorem WellFormed.reports_choose (w : s.WellFormed) (c : Choice κ) : Reports s (s.choose c) := by
  cases c with
  | select k => exact reports_select s k
  | deselect k => exact reports_deselect s k
  | toggle k => exact reports_toggle s k
  | selectAll => exact w.reports_selectAll
  | clearSelection => exact w.reports_clearSelection
  | toggleAll => exact w.reports_toggleAll

/-! ## One change -/

theorem replay_adding (selected added : List κ) :
    KeyChange.replay selected ⟨added, []⟩ = selected ++ added := by
  rw [KeyChange.replay, List.filter_eq_self.mpr]
  intro k _
  exact decide_eq_true List.not_mem_nil

theorem replay_none (selected : List κ) : KeyChange.replay selected .none = selected :=
  (replay_adding selected []).trans (List.append_nil selected)

theorem replay_select (s : Keyed keyOf) (k : κ) :
    (s.select k).2.replay s.selected = (s.select k).1.selected := by
  rw [select]
  split
  · exact replay_adding s.selected [k]
  · exact replay_none s.selected

theorem replay_deselect (s : Keyed keyOf) (k : κ) :
    (s.deselect k).2.replay s.selected = (s.deselect k).1.selected := by
  rw [deselect]
  split
  · rw [KeyChange.replay, List.append_nil]
    exact List.filter_congr fun j _ => decide_eq_decide.mpr (not_congr List.mem_singleton)
  · exact replay_none s.selected

theorem replay_selectAll (s : Keyed keyOf) :
    s.selectAll.2.replay s.selected = s.selectAll.1.selected :=
  replay_adding s.selected _

theorem replay_clearSelection (s : Keyed keyOf) :
    s.clearSelection.2.replay s.selected = s.clearSelection.1.selected := by
  rw [clearSelection, KeyChange.replay, List.append_nil, List.filter_eq_nil_iff]
  intro k selected kept
  exact of_decide_eq_true kept selected

/-- A change tells what became of the selection. -/
theorem replay_choose (s : Keyed keyOf) (c : Choice κ) :
    (s.choose c).2.replay s.selected = (s.choose c).1.selected := by
  cases c with
  | select k => exact replay_select s k
  | deselect k => exact replay_deselect s k
  | toggle k =>
    rw [choose, toggle]
    split
    · exact replay_deselect s k
    · exact replay_select s k
  | selectAll => exact replay_selectAll s
  | clearSelection => exact replay_clearSelection s
  | toggleAll =>
    rw [choose, toggleAll]
    split
    · exact replay_clearSelection s
    · exact replay_selectAll s

/-! ## A run of changes -/

theorem items_chooses (w : s.WellFormed) (cs : List (Choice κ)) :
    (s.chooses cs).1.items = s.items := by
  induction cs generalizing s with
  | nil => rfl
  | cons c rest ih => exact (ih (w.choose c)).trans (w.reports_choose c).items

theorem foldl_replay_chooses (s : Keyed keyOf) (cs : List (Choice κ)) :
    (s.chooses cs).2.foldl KeyChange.replay s.selected = (s.chooses cs).1.selected := by
  induction cs generalizing s with
  | nil => rfl
  | cons c rest ih =>
    rw [chooses, List.foldl_cons, replay_choose]
    exact ih (s.choose c).1

/-- Whatever was done to a list before, each operation on its selection reports exactly the keys
that became selected and those that ceased to be, each once, and touches no item. Who takes over the
changes of any run of them, starting from the keys that are selected before it, ends with those that
are selected after it. The header checkbox selects all that is loaded, or nothing if all of it was
selected. -/
theorem followed_along_choices (keyOf : α → κ) (es : List (Edit α κ)) :
    let s := (empty : Keyed keyOf).edits es
    (∀ c : Choice κ, Reports s (s.choose c)) ∧
    (∀ cs : List (Choice κ), (s.chooses cs).1.items = s.items ∧
      (s.chooses cs).2.foldl KeyChange.replay s.selected = (s.chooses cs).1.selected) ∧
    ∀ k ∈ s.keys, (s.toggleAll.1.isSelected k = true ↔ ∃ j ∈ s.keys, s.isSelected j = false) := by
  intro s
  have w : s.WellFormed := wellFormed_empty.edits es
  refine ⟨w.reports_choose, fun cs => ⟨items_chooses w cs, foldl_replay_chooses s cs⟩, ?_⟩
  intro k loaded
  rw [isSelected_iff, mem_selected_toggleAll loaded]
  simp only [isSelected_eq_false_iff]

end Keyed

end BackOffice
