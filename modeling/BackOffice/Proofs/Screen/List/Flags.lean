import BackOffice.Proofs.Screen.List.Calls

/-!
# What a list screen believes to be under way

A list screen is busy while calls are in flight, and a record is being deleted while a deletion of
it is. This is so unless a call crashed while others were in flight: a lost call is counted until
the only call in flight crashes or the screen is closed. Where nothing else is left, the screen
stays busy, and a lost deletion is refused when it is tried again.
-/
namespace BackOffice.Screen.ListScreen

open BackOffice.Query

variable {κ : Type} {keyOf : Record → κ} {s : ListScreen keyOf} {calls lost : List (Call κ)}

theorem mem_pending_iff {call : Call κ} :
    call ∈ s.pending lost ↔ (∃ number, (number, call) ∈ s.inFlight) ∨ call ∈ lost := by
  rw [pending, List.mem_append, List.mem_map]
  constructor
  · rintro (⟨⟨number, _⟩, h, rfl⟩ | h)
    · exact Or.inl ⟨number, h⟩
    · exact Or.inr h
  · rintro (⟨number, h⟩ | h)
    · exact Or.inl ⟨(number, call), h, rfl⟩
    · exact Or.inr h

theorem pending_eq_nil_iff : s.pending lost = [] ↔ s.inFlight = [] ∧ lost = [] := by
  rw [pending, List.append_eq_nil_iff, List.map_eq_nil_iff]

theorem Tallies.isBusy_iff (h : Tallies s calls) : s.isBusy = true ↔ calls ≠ [] := by
  rw [isBusy, Bool.or_eq_true, Bool.not_eq_true', Bool.not_eq_true',
    List.isEmpty_eq_false_iff_exists_mem, List.isEmpty_eq_false_iff_exists_mem]
  constructor
  · rintro (⟨q, hq⟩ | ⟨k, hk⟩) rfl
    · exact nomatch (h.searching q).mp hq
    · exact nomatch (h.deleting k).mp hk
  · intro some
    obtain ⟨call, hc⟩ := List.exists_mem_of_ne_nil calls some
    cases call with
    | search q criteria =>
      exact Or.inl ⟨q, (h.searching q).mpr (List.mem_filterMap.mpr ⟨_, hc, rfl⟩)⟩
    | delete k id =>
      exact Or.inr ⟨k, (h.deleting k).mpr (List.mem_filterMap.mpr ⟨_, hc, rfl⟩)⟩

theorem mem_keys_iff {k : κ} : k ∈ calls.filterMap Call.key? ↔ ∃ id, .delete k id ∈ calls := by
  rw [List.mem_filterMap]
  constructor
  · rintro ⟨call, hc, key⟩
    cases call with
    | search => cases key
    | delete k id =>
      cases key
      exact ⟨id, hc⟩
  · rintro ⟨id, hc⟩
    exact ⟨.delete k id, hc, rfl⟩

/-- A key whose deletion is in flight was not lost in another one. -/
theorem Tallies.deletion_not_lost (h : Tallies s (s.pending lost)) {k : κ} {number : Nat}
    {id : Uuid} (inFlight : (number, .delete k id) ∈ s.inFlight) (other : Uuid) :
    .delete k other ∉ lost := by
  intro again
  have keys := h.keys
  rw [pending, List.filterMap_append, List.nodup_append'] at keys
  refine keys.2.2 (mem_keys_iff.mpr ⟨id, ?_⟩) (mem_keys_iff.mpr ⟨other, again⟩)
  exact List.mem_map.mpr ⟨_, inFlight, rfl⟩

variable [DecidableEq κ]

theorem Tallies.isDeleting_iff (h : Tallies s calls) {k : κ} :
    s.isDeleting k = true ↔ ∃ id, .delete k id ∈ calls := by
  rw [isDeleting, List.contains_iff_mem, h.deleting, mem_keys_iff]

theorem delete_eq_busy_iff (s : ListScreen keyOf) (record : Record) :
    s.delete record = .error (.busy ("delete " ++ s.resource)) ↔
      s.isClosed = false ∧ record.isSaved = true ∧ s.isDeleting (keyOf record) = true := by
  rw [delete, Record.isSaved]
  cases s.isClosed with
  | true => simp
  | false =>
    cases record.id with
    | none => simp
    | some id =>
      cases busy : s.isDeleting (keyOf record) with
      | true => simp [busy]
      | false => simp [busy]

/-- The screen is busy while calls are in flight, and a key is being deleted while a deletion of it
is. -/
structure FlagsExact (s : ListScreen keyOf) : Prop where
  busy : s.isBusy = true ↔ s.inFlight ≠ []
  deleting : ∀ k, s.isDeleting k = true ↔ ∃ number id, (number, .delete k id) ∈ s.inFlight

theorem Tallies.flagsExact_iff (h : Tallies s (s.pending lost)) :
    FlagsExact s ↔ (s.inFlight = [] → lost = []) ∧ ∀ k id, Call.delete k id ∉ lost := by
  constructor
  · intro exact
    refine ⟨?_, ?_⟩
    · intro quiet
      by_contra some
      have busy := h.isBusy_iff.mpr fun none => some (pending_eq_nil_iff.mp none).2
      exact exact.busy.mp busy quiet
    · intro k id gone
      have deleting := h.isDeleting_iff.mpr ⟨id, mem_pending_iff.mpr (Or.inr gone)⟩
      obtain ⟨number, other, inFlight⟩ := (exact.deleting k).mp deleting
      exact h.deletion_not_lost inFlight id gone
  · rintro ⟨quiet, kept⟩
    refine ⟨?_, ?_⟩
    · rw [h.isBusy_iff, ne_eq, pending_eq_nil_iff]
      exact not_congr ⟨And.left, fun none => ⟨none, quiet none⟩⟩
    · intro k
      rw [h.isDeleting_iff]
      constructor
      · rintro ⟨id, hc⟩
        rcases mem_pending_iff.mp hc with ⟨number, inFlight⟩ | gone
        · exact ⟨number, id, inFlight⟩
        · exact absurd gone (kept k id)
      · rintro ⟨number, id, inFlight⟩
        exact ⟨id, mem_pending_iff.mpr (Or.inl ⟨number, inFlight⟩)⟩

/-- Along every run, a screen is busy exactly while a call is in flight or lost, and refuses to
delete a saved record exactly while a deletion of its key is. So the screen believes to be under way
what is in flight exactly when no deletion is lost and, with nothing in flight, no search either. -/
theorem flags_along_run (keyOf : Record → κ) (resource : String) (size : UInt64)
    (acts : List (Act κ)) :
    let start : ListScreen keyOf := openWith resource size
    let s := start.run acts
    let lost := start.lostAlong [] acts
    (s.isBusy = true ↔ s.inFlight ≠ [] ∨ lost ≠ []) ∧
    (∀ k, s.isDeleting k = true ↔
      (∃ number id, (number, .delete k id) ∈ s.inFlight) ∨ ∃ id, .delete k id ∈ lost) ∧
    (∀ record, s.delete record = .error (.busy ("delete " ++ s.resource)) ↔
      s.isClosed = false ∧ record.isSaved = true ∧
        ((∃ number id, (number, .delete (keyOf record) id) ∈ s.inFlight) ∨
          ∃ id, .delete (keyOf record) id ∈ lost)) ∧
    (FlagsExact s ↔ (s.inFlight = [] → lost = []) ∧ ∀ k id, Call.delete k id ∉ lost) := by
  intro start s lost
  have books : Tallies start (start.pending []) := .nil rfl rfl
  have tallies : Tallies s (s.pending lost) :=
    books.run (wellFormed_openWith resource size) acts
  have deleting (k : κ) : s.isDeleting k = true ↔
      (∃ number id, (number, .delete k id) ∈ s.inFlight) ∨ ∃ id, .delete k id ∈ lost := by
    simp only [tallies.isDeleting_iff, mem_pending_iff, exists_or]
    exact or_congr exists_comm Iff.rfl
  refine ⟨?_, deleting, ?_, tallies.flagsExact_iff⟩
  · rw [tallies.isBusy_iff, ne_eq, pending_eq_nil_iff, not_and_or]
  · intro record
    rw [delete_eq_busy_iff, deleting]

/-- A deletion crashes while a search is in flight, which then succeeds. Nothing is in flight any
more, but the screen stays busy and refuses to try the deletion again. -/
theorem stuck_after_crash :
    let r : Record := ⟨some (.ofNat 1), Record.activeStatus, [], []⟩
    let s : ListScreen Record.key := (openWith "role" 20).run
      [.delete r, .refresh, .deliver 1 .crashed,
        .deliver 2 (.searched (.ok (.slice [r] .initial)))]
    s.isClosed = false ∧ s.inFlight = [] ∧ s.isBusy = true ∧ s.isDeleting r.key = true ∧
      s.delete r = .error (.busy "delete role") ∧ ¬ FlagsExact s := by
  intro r s
  have quiet : s.inFlight = [] := rfl
  have busy : s.isBusy = true := by decide
  exact ⟨rfl, quiet, busy, by decide, rfl, fun exact => exact.busy.mp busy quiet⟩

end BackOffice.Screen.ListScreen
