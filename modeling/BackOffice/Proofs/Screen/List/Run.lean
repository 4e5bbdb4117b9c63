import BackOffice.Proofs.Keyed
import BackOffice.Screen.List

/-!
# Runs of a list screen

What can happen to a list screen, in any order: calls are made, rows are selected, calls under way
are answered or crash, and the screen is closed. `Step` tells everything that one act can do. A call
that crashes while others are under way is lost: it is over, but the screen goes on to count it. The
searches and deletions that the screen takes to be under way are those in flight and the lost ones.
-/
namespace BackOffice.Screen

open BackOffice.Query

namespace Call

variable {κ : Type}

def sequence? : Call κ → Option Nat
  | search sequence _ => some sequence
  | delete .. => none

def key? : Call κ → Option κ
  | search .. => none
  | delete k _ => some k

end Call

/-- A change of which rows are selected. -/
inductive Pick (κ : Type) where
  | select (k : κ)
  | deselect (k : κ)
  | toggle (k : κ)
  | toggleAll
  | selectAll
  | clear

namespace Pick

variable {κ : Type} [DecidableEq κ] {keyOf : Record → κ} {rows : Keyed keyOf}

def apply (rows : Keyed keyOf) : Pick κ → Keyed keyOf
  | select k => (rows.select k).1
  | deselect k => (rows.deselect k).1
  | toggle k => (rows.toggle k).1
  | toggleAll => rows.toggleAll.1
  | selectAll => rows.selectAll.1
  | clear => rows.clearSelection.1

theorem apply_items (p : Pick κ) : (p.apply rows).items = rows.items := by
  cases p with
  | select k => exact rows.select_items k
  | deselect k => exact rows.deselect_items k
  | toggle k => exact rows.toggle_items k
  | toggleAll => exact rows.toggleAll_items
  | selectAll | clear => rfl

theorem wellFormed_apply (w : rows.WellFormed) (p : Pick κ) : (p.apply rows).WellFormed := by
  cases p with
  | select k => exact w.select k
  | deselect k => exact w.deselect k
  | toggle k => exact w.toggle k
  | toggleAll => exact w.toggleAll
  | selectAll => exact w.selectAll
  | clear => exact w.clearSelection

end Pick

namespace ListScreen

inductive Act (κ : Type) where
  | search (criteria : Criteria)
  | refresh
  | reset
  | sortBy (field : String)
  | turnTo (page : UInt64)
  | delete (record : Record)
  | pick (p : Pick κ)
  | deliver (number : Nat) (reply : Reply)
  | close

variable {κ : Type} [DecidableEq κ] {keyOf : Record → κ}

/-- One act and the event that it leads to. A refused call leaves the screen as it is. -/
def step (s : ListScreen keyOf) : Act κ → ListScreen keyOf × Option (Event κ)
  | .search criteria => ((s.search criteria).toOption.elim s (·.1), none)
  | .refresh => (s.refresh.toOption.elim s (·.1), none)
  | .reset => (s.reset.toOption.elim s (·.1), none)
  | .sortBy field => ((s.sortBy field).toOption.elim s (·.1), none)
  | .turnTo page => ((s.turnTo page).toOption.elim s (·.1), none)
  | .delete record => ((s.delete record).toOption.getD s, none)
  | .pick p => ({ s with rows := p.apply s.rows }, none)
  | .deliver number reply => s.deliver number reply
  | .close => (s.close, none)

def run (s : ListScreen keyOf) (acts : List (Act κ)) : ListScreen keyOf :=
  acts.foldl (fun s act => (s.step act).1) s

def events (s : ListScreen keyOf) : List (Act κ) → List (Event κ)
  | [] => []
  | act :: rest => (s.step act).2.toList ++ (s.step act).1.events rest

variable {s t : ListScreen keyOf} {act : Act κ} {event : Option (Event κ)}

theorem run_append (s : ListScreen keyOf) (before after : List (Act κ)) :
    s.run (before ++ after) = (s.run before).run after :=
  List.foldl_append

/-! ## What a step can do -/

def asking (s : ListScreen keyOf) (criteria : Criteria) : ListScreen keyOf :=
  let sequence := s.sequence + 1
  { s with criteria, sequence, searching := s.searching ++ [sequence] }.issue
    (.search sequence criteria)

def without (s : ListScreen keyOf) (number : Nat) : ListScreen keyOf :=
  { s with inFlight := s.inFlight.filter (·.1 ≠ number) }

/-- An act, the screen after it and the event. -/
inductive Step (s : ListScreen keyOf) : Act κ → ListScreen keyOf → Option (Event κ) → Prop
  | idle {act : Act κ} (kept : act = .close → s.isClosed = true) : Step s act s none
  | asked {act : Act κ} (kept : act ≠ .close) (isOpen : s.isClosed = false)
      (criteria : Criteria) : Step s act (s.asking criteria) none
  | deletion {record : Record} {id : Uuid} (isOpen : s.isClosed = false)
      (saved : record.id = some id) (idle : keyOf record ∉ s.deleting) :
      Step s (.delete record)
        ({ s with deleting := s.deleting ++ [keyOf record] }.issue (.delete (keyOf record) id)) none
  | picked (p : Pick κ) : Step s (.pick p) { s with rows := p.apply s.rows } none
  | applied {number : Nat} {criteria : Criteria} {page : Page Record}
      (found : s.callNumbered? number = some (.search s.sequence criteria)) :
      Step s (.deliver number (.searched (.ok page)))
        { s.without number with
          searching := s.searching.filter (· ≠ s.sequence)
          rows := s.rows.load page.items
          info := some page.info
          message := none }
        (some (.applied s.sequence page.items.length))
  | searchFailed {number : Nat} {criteria : Criteria} {p : Problem}
      (found : s.callNumbered? number = some (.search s.sequence criteria)) :
      Step s (.deliver number (.searched (.error p)))
        { s.without number with
          searching := s.searching.filter (· ≠ s.sequence)
          message := some p.message }
        (some (.searchFailed s.sequence p))
  | stale {number q : Nat} {criteria : Criteria} {result : Except Problem (Page Record)}
      (found : s.callNumbered? number = some (.search q criteria)) (old : q ≠ s.sequence) :
      Step s (.deliver number (.searched result))
        { s.without number with searching := s.searching.filter (· ≠ q) }
        (some (.stale q))
  | deleted {number : Nat} {k : κ} {id : Uuid}
      (found : s.callNumbered? number = some (.delete k id)) :
      Step s (.deliver number (.deleted (.ok ())))
        { s.without number with
          deleting := s.deleting.filter (· ≠ k)
          rows := s.rows.remove k
          message := none }
        (some (.deleted k))
  | deleteFailed {number : Nat} {k : κ} {id : Uuid} {p : Problem}
      (found : s.callNumbered? number = some (.delete k id)) :
      Step s (.deliver number (.deleted (.error p)))
        { s.without number with
          deleting := s.deleting.filter (· ≠ k)
          message := some p.message }
        (some (.deleteFailed k p))
  | crashed {number : Nat} {call : Call κ} {reply : Reply}
      (found : s.callNumbered? number = some call) (others : (s.without number).inFlight ≠ []) :
      Step s (.deliver number reply)
        { s.without number with message := some abortedMessage } (some .aborted)
  | crashedLast {number : Nat} {call : Call κ} {reply : Reply}
      (found : s.callNumbered? number = some call) (last : (s.without number).inFlight = []) :
      Step s (.deliver number reply)
        { s.without number with
          message := some abortedMessage
          searching := []
          deleting := [] }
        (some .aborted)
  | closed (isOpen : s.isClosed = false) :
      Step s .close
        { s with isClosed := true, searching := [], deleting := [], inFlight := [] } none

theorem step_search (s : ListScreen keyOf) (criteria : Criteria) (kept : act ≠ .close) :
    Step s act ((s.search criteria).toOption.elim s (·.1)) none := by
  cases isOpen : s.isClosed with
  | true =>
    rw [search, if_pos isOpen]
    exact .idle fun h => absurd h kept
  | false =>
    rw [search, if_neg (by rw [isOpen]; decide)]
    exact .asked kept isOpen criteria

theorem step_delete (s : ListScreen keyOf) (record : Record) :
    Step s (.delete record) ((s.delete record).toOption.getD s) none := by
  rw [delete]
  split
  · exact .idle nofun
  · next isOpen =>
    split
    · exact .idle nofun
    · next id saved =>
      dsimp only
      split
      · exact .idle nofun
      · next idle =>
        rw [isDeleting, List.contains_iff_mem] at idle
        exact .deletion (Bool.eq_false_iff.mpr isOpen) saved idle

theorem step_crash (reply : Reply) {number : Nat} {call : Call κ}
    (found : s.callNumbered? number = some call) :
    Step s (.deliver number reply) (s.without number).applyCrash.1
      (some (s.without number).applyCrash.2) := by
  by_cases last : (s.without number).inFlight = []
  · rw [applyCrash, if_pos (List.isEmpty_iff.mpr last)]
    exact .crashedLast found last
  · rw [applyCrash, if_neg (mt List.isEmpty_iff.mp last)]
    exact .crashed found last

theorem step_deliver (s : ListScreen keyOf) (number : Nat) (reply : Reply) :
    Step s (.deliver number reply) (s.deliver number reply).1 (s.deliver number reply).2 := by
  cases found : s.callNumbered? number with
  | none =>
    rw [deliver, found]
    exact .idle nofun
  | some call =>
    rw [deliver, found]
    cases call with
    | search q criteria =>
      cases reply with
      | searched result =>
        by_cases latest : q = s.sequence
        · subst latest
          simp only [applyReply, applySearch, ne_eq, not_true_eq_false, if_false]
          cases result with
          | ok page => exact .applied found
          | error p => exact .searchFailed found
        · simp only [applyReply, applySearch]
          rw [if_pos latest]
          exact .stale found latest
      | deleted result => exact step_crash (.deleted result) found
      | crashed => exact step_crash .crashed found
    | delete k id =>
      cases reply with
      | searched result => exact step_crash (.searched result) found
      | deleted result =>
        cases result with
        | ok _ => exact .deleted found
        | error p => exact .deleteFailed found
      | crashed => exact step_crash .crashed found

theorem step_close (s : ListScreen keyOf) : Step s .close s.close none := by
  cases isOpen : s.isClosed with
  | true =>
    rw [close, if_pos isOpen]
    exact .idle fun _ => isOpen
  | false =>
    rw [close, if_neg (by rw [isOpen]; decide)]
    exact .closed isOpen

theorem step_cases (s : ListScreen keyOf) (act : Act κ) :
    Step s act (s.step act).1 (s.step act).2 := by
  cases act with
  | search criteria => exact s.step_search criteria nofun
  | refresh => exact s.step_search s.criteria nofun
  | reset => exact s.step_search (.ofSize s.defaultSize) nofun
  | sortBy field => exact s.step_search { s.criteria.sortBy field with page := 0 } nofun
  | turnTo page => exact s.step_search { s.criteria with page } nofun
  | delete record => exact s.step_delete record
  | pick p => exact .picked p
  | deliver number reply => exact s.step_deliver number reply
  | close => exact s.step_close

/-! ## What every step keeps -/

theorem Step.sequence_le (made : Step s act t event) : s.sequence ≤ t.sequence := by
  cases made with
  | asked => exact Nat.le_succ s.sequence
  | idle | deletion | picked | applied | searchFailed | stale | deleted | deleteFailed | crashed
  | crashedLast | closed => exact Nat.le_refl s.sequence

theorem sequence_le_run (s : ListScreen keyOf) (acts : List (Act κ)) :
    s.sequence ≤ (s.run acts).sequence := by
  induction acts generalizing s with
  | nil => exact Nat.le_refl s.sequence
  | cons act rest ih => exact Nat.le_trans (s.step_cases act).sequence_le (ih (s.step act).1)

/-- A search that comes under way gets a number beyond all before it. -/
theorem Step.search_inFlight {number q : Nat} {criteria : Criteria} (made : Step s act t event)
    (h : (number, .search q criteria) ∈ t.inFlight) :
    (number, .search q criteria) ∈ s.inFlight ∨ s.sequence < q := by
  cases made with
  | asked kept isOpen asked =>
    rcases List.mem_append.mp h with old | new
    · exact Or.inl old
    · cases List.mem_singleton.mp new
      exact Or.inr (Nat.lt_succ_self s.sequence)
  | deletion =>
    rcases List.mem_append.mp h with old | new
    · exact Or.inl old
    · cases List.mem_singleton.mp new
  | idle | picked => exact Or.inl h
  | applied | searchFailed | stale | deleted | deleteFailed | crashed | crashedLast =>
    exact Or.inl (List.mem_filter.mp h).1
  | closed => cases h

/-- A call in flight was in flight before, or was just made under the next number. -/
theorem Step.inFlight_cases {number : Nat} {call : Call κ} (made : Step s act t event)
    (h : (number, call) ∈ t.inFlight) :
    (number, call) ∈ s.inFlight ∨ number = s.issued + 1 ∧
      ((∃ criteria, call = .search t.sequence criteria) ∨
        ∃ record id, record.id = some id ∧ call = .delete (keyOf record) id) := by
  cases made with
  | asked kept isOpen criteria =>
    rcases List.mem_append.mp h with old | new
    · exact Or.inl old
    · cases List.mem_singleton.mp new
      exact Or.inr ⟨rfl, Or.inl ⟨criteria, rfl⟩⟩
  | @deletion record id isOpen saved idle =>
    rcases List.mem_append.mp h with old | new
    · exact Or.inl old
    · cases List.mem_singleton.mp new
      exact Or.inr ⟨rfl, Or.inr ⟨record, id, saved, rfl⟩⟩
  | idle | picked => exact Or.inl h
  | applied | searchFailed | stale | deleted | deleteFailed | crashed | crashedLast =>
    exact Or.inl (List.mem_filter.mp h).1
  | closed => cases h

theorem Step.issued_le (made : Step s act t event) : s.issued ≤ t.issued := by
  cases made with
  | asked | deletion => exact Nat.le_succ s.issued
  | idle | picked | applied | searchFailed | stale | deleted | deleteFailed | crashed | crashedLast
  | closed => exact Nat.le_refl s.issued

theorem Step.isClosed (made : Step s act t event) (h : s.isClosed = true) : t.isClosed = true := by
  cases made with
  | closed => rfl
  | idle | asked | deletion | picked | applied | searchFailed | stale | deleted | deleteFailed
  | crashed | crashedLast => exact h

theorem isClosed_run (h : s.isClosed = true) (acts : List (Act κ)) :
    (s.run acts).isClosed = true := by
  induction acts generalizing s with
  | nil => exact h
  | cons act rest ih => exact ih ((s.step_cases act).isClosed h)

omit [DecidableEq κ] in
theorem isClosed_close (s : ListScreen keyOf) : s.close.isClosed = true := by
  rw [close]
  split
  · assumption
  · rfl

end ListScreen

end BackOffice.Screen
