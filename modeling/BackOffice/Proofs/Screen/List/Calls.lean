import BackOffice.Proofs.Screen.List.Run

/-!
# The calls of a list screen

Along every run the calls in flight have numbers of their own, and what the screen keeps about its
searches and deletions tallies with the calls that are pending: those in flight and those that were
lost in a crash. No two pending searches have the same sequence number and no two pending deletions
the same key.
-/
namespace BackOffice.Screen.ListScreen

open BackOffice.Query

variable {κ : Type} {keyOf : Record → κ} {s t : ListScreen keyOf} {number : Nat} {call : Call κ}

structure WellFormed (s : ListScreen keyOf) : Prop where
  rows : s.rows.WellFormed
  numbers : (s.inFlight.map (·.1)).Nodup
  issued : ∀ n ∈ s.inFlight.map (·.1), n ≤ s.issued
  closed : s.isClosed = true → s.inFlight = []

theorem wellFormed_openWith (resource : String) (size : UInt64) :
    (openWith resource size : ListScreen keyOf).WellFormed where
  rows := Keyed.wellFormed_empty
  numbers := List.nodup_nil
  issued _ h := nomatch h
  closed _ := rfl

theorem WellFormed.issue (w : s.WellFormed) (isOpen : s.isClosed = false) (call : Call κ) :
    (s.issue call).WellFormed where
  rows := w.rows
  numbers := by
    rw [ListScreen.issue, List.map_append, List.map_singleton]
    refine List.nodup_append_comm.mp (List.nodup_cons.mpr ⟨fun used => ?_, w.numbers⟩)
    exact absurd (w.issued _ used) (Nat.not_succ_le_self s.issued)
  issued n h := by
    rw [ListScreen.issue, List.map_append, List.mem_append, List.map_singleton,
      List.mem_singleton] at h
    rcases h with old | new
    · exact Nat.le_succ_of_le (w.issued n old)
    · exact Nat.le_of_eq new
  closed h := absurd (isOpen.symm.trans h) (by decide)

theorem WellFormed.without (w : s.WellFormed) (number : Nat) : (s.without number).WellFormed where
  rows := w.rows
  numbers := w.numbers.sublist (List.filter_sublist.map _)
  issued n h := w.issued n ((List.filter_sublist.map _).subset h)
  closed h := by rw [ListScreen.without, w.closed h, List.filter_nil]

theorem mem_of_callNumbered? (found : s.callNumbered? number = some call) :
    (number, call) ∈ s.inFlight :=
  OrderedMap.mem_of_get? (m := ⟨s.inFlight⟩) found

theorem WellFormed.callNumbered?_eq_some_iff (w : s.WellFormed) :
    s.callNumbered? number = some call ↔ (number, call) ∈ s.inFlight :=
  OrderedMap.get?_eq_some_iff (m := ⟨s.inFlight⟩) w.numbers

theorem WellFormed.inFlight_perm (w : s.WellFormed)
    (found : s.callNumbered? number = some call) :
    s.inFlight.Perm ((number, call) :: (s.without number).inFlight) := by
  have distinct : s.inFlight.Nodup := w.numbers.of_map
  have gone : (number, call) ∉ (s.without number).inFlight := fun h =>
    absurd rfl (of_decide_eq_true (List.mem_filter.mp h).2)
  refine (List.perm_ext_iff_of_nodup distinct
    (List.nodup_cons.mpr ⟨gone, distinct.filter _⟩)).mpr ?_
  rintro ⟨n, c⟩
  rw [List.mem_cons, ListScreen.without, List.mem_filter]
  constructor
  · intro h
    by_cases same : n = number
    · subst same
      have known := w.callNumbered?_eq_some_iff.mpr h
      exact Or.inl (congrArg _ (Option.some.inj (known.symm.trans found)))
    · exact Or.inr ⟨h, decide_eq_true same⟩
  · rintro (same | ⟨h, _⟩)
    · exact same ▸ mem_of_callNumbered? found
    · exact h

/-! ## Pending calls -/

def pending (s : ListScreen keyOf) (lost : List (Call κ)) : List (Call κ) :=
  s.inFlight.map (·.2) ++ lost

/-- What the screen keeps about its searches and deletions is about these calls. -/
structure Tallies (s : ListScreen keyOf) (calls : List (Call κ)) : Prop where
  searching : ∀ q, q ∈ s.searching ↔ q ∈ calls.filterMap Call.sequence?
  deleting : ∀ k, k ∈ s.deleting ↔ k ∈ calls.filterMap Call.key?
  sequences : (calls.filterMap Call.sequence?).Nodup
  keys : (calls.filterMap Call.key?).Nodup
  latest : ∀ q ∈ calls.filterMap Call.sequence?, q ≤ s.sequence

namespace Tallies

variable {calls others lost : List (Call κ)}

theorem nil (searching : s.searching = []) (deleting : s.deleting = []) : Tallies s [] where
  searching q := by rw [searching, List.filterMap_nil]
  deleting k := by rw [deleting, List.filterMap_nil]
  sequences := List.nodup_nil
  keys := List.nodup_nil
  latest _ h := nomatch h

theorem perm (h : Tallies s calls) (same : calls.Perm others) : Tallies s others where
  searching q := (h.searching q).trans (same.filterMap _).mem_iff
  deleting k := (h.deleting k).trans (same.filterMap _).mem_iff
  sequences := (same.filterMap _).nodup_iff.mp h.sequences
  keys := (same.filterMap _).nodup_iff.mp h.keys
  latest q hq := h.latest q ((same.filterMap _).mem_iff.mpr hq)

theorem asking (h : Tallies s calls) (criteria : Criteria) :
    Tallies (s.asking criteria) (.search (s.sequence + 1) criteria :: calls) where
  searching q := by
    rw [ListScreen.asking, ListScreen.issue, List.filterMap_cons, Call.sequence?, List.mem_append,
      List.mem_singleton, List.mem_cons, h.searching, or_comm]
  deleting := h.deleting
  sequences := List.nodup_cons.mpr
    ⟨fun used => absurd (h.latest _ used) (Nat.not_succ_le_self s.sequence), h.sequences⟩
  keys := h.keys
  latest q hq := by
    rcases List.mem_cons.mp hq with rfl | old
    · exact Nat.le_refl _
    · exact Nat.le_succ_of_le (h.latest q old)

theorem deletion (h : Tallies s calls) {k : κ} (idle : k ∉ s.deleting) (id : Uuid) :
    Tallies ({ s with deleting := s.deleting ++ [k] }.issue (.delete k id))
      (.delete k id :: calls) where
  searching := h.searching
  deleting j := by
    rw [ListScreen.issue, List.filterMap_cons, Call.key?, List.mem_append, List.mem_singleton,
      List.mem_cons, h.deleting, or_comm]
  sequences := h.sequences
  keys := List.nodup_cons.mpr ⟨fun used => idle ((h.deleting k).mpr used), h.keys⟩
  latest := h.latest

theorem mem_others_iff {β : Type} [DecidableEq β] {b : β} {kept rest : List β}
    (distinct : (b :: rest).Nodup) (same : ∀ c, c ∈ kept ↔ c ∈ b :: rest) (c : β) :
    c ∈ kept.filter (· ≠ b) ↔ c ∈ rest := by
  have other := (List.nodup_cons.mp distinct).1
  rw [List.mem_filter, same, List.mem_cons, decide_eq_true_eq]
  constructor
  · rintro ⟨first | later, different⟩
    · exact absurd first different
    · exact later
  · intro later
    exact ⟨Or.inr later, fun first => other (first ▸ later)⟩

theorem search_over {q : Nat} {criteria : Criteria} (h : Tallies s (.search q criteria :: calls))
    (searching : t.searching = s.searching.filter (· ≠ q)) (deleting : t.deleting = s.deleting)
    (sequence : t.sequence = s.sequence) : Tallies t calls where
  searching p := by rw [searching]; exact mem_others_iff h.sequences h.searching p
  deleting k := by rw [deleting]; exact h.deleting k
  sequences := (List.nodup_cons.mp h.sequences).2
  keys := h.keys
  latest p hp := sequence ▸ h.latest p (List.mem_cons_of_mem _ hp)

theorem delete_over [DecidableEq κ] {k : κ} {id : Uuid} (h : Tallies s (.delete k id :: calls))
    (searching : t.searching = s.searching) (deleting : t.deleting = s.deleting.filter (· ≠ k))
    (sequence : t.sequence = s.sequence) : Tallies t calls where
  searching p := by rw [searching]; exact h.searching p
  deleting j := by rw [deleting]; exact mem_others_iff h.keys h.deleting j
  sequences := h.sequences
  keys := (List.nodup_cons.mp h.keys).2
  latest p hp := sequence ▸ h.latest p hp

end Tallies

variable {lost : List (Call κ)}

theorem pending_issue (s : ListScreen keyOf) (call : Call κ) (lost : List (Call κ)) :
    (call :: s.pending lost).Perm ((s.issue call).pending lost) := by
  rw [pending, pending, issue, List.map_append, List.map_singleton, List.append_assoc]
  exact List.perm_middle.symm

theorem WellFormed.pending_perm (w : s.WellFormed) (found : s.callNumbered? number = some call) :
    (s.pending lost).Perm (call :: (s.without number).pending lost) :=
  ((w.inFlight_perm found).map _).append_right lost

/-! ## Along a run -/

variable [DecidableEq κ] {act : Act κ} {event : Option (Event κ)}

theorem WellFormed.step (w : s.WellFormed) (h : Step s act t event) : t.WellFormed := by
  cases h with
  | idle => exact w
  | asked _ isOpen criteria =>
    have asking : WellFormed { s with
        criteria
        sequence := s.sequence + 1
        searching := s.searching ++ [s.sequence + 1] } :=
      ⟨w.rows, w.numbers, w.issued, w.closed⟩
    exact asking.issue isOpen _
  | @deletion record id isOpen saved idle =>
    have busy : WellFormed { s with deleting := s.deleting ++ [keyOf record] } :=
      ⟨w.rows, w.numbers, w.issued, w.closed⟩
    exact busy.issue isOpen _
  | picked p => exact ⟨p.wellFormed_apply w.rows, w.numbers, w.issued, w.closed⟩
  | @applied number criteria page found =>
    have v := w.without number
    exact ⟨w.rows.load page.items, v.numbers, v.issued, v.closed⟩
  | @deleted number k id found =>
    have v := w.without number
    exact ⟨w.rows.remove k, v.numbers, v.issued, v.closed⟩
  | @searchFailed number | @stale number | @deleteFailed number | @crashed number
  | @crashedLast number =>
    have v := w.without number
    exact ⟨w.rows, v.numbers, v.issued, v.closed⟩
  | closed isOpen => exact ⟨w.rows, List.nodup_nil, nofun, fun _ => rfl⟩

theorem WellFormed.run (w : s.WellFormed) (acts : List (Act κ)) : (s.run acts).WellFormed := by
  induction acts generalizing s with
  | nil => exact w
  | cons act rest ih => exact ih (w.step (s.step_cases act))

/-- The calls that the screen goes on to count after they crashed. A crash of the only call in
flight makes the screen forget all of them. -/
def lostBy (s t : ListScreen keyOf) (lost : List (Call κ)) :
    Act κ → Option (Event κ) → List (Call κ)
  | .deliver number _, some .aborted =>
    if t.inFlight.isEmpty then [] else lost ++ (s.callNumbered? number).toList
  | .close, _ => if s.isClosed then lost else []
  | _, _ => lost

def lostAlong (s : ListScreen keyOf) (lost : List (Call κ)) : List (Act κ) → List (Call κ)
  | [] => lost
  | act :: rest =>
    let (t, event) := s.step act
    t.lostAlong (s.lostBy t lost act event) rest

theorem Tallies.step (w : s.WellFormed) (h : Tallies s (s.pending lost))
    (made : Step s act t event) : Tallies t (t.pending (s.lostBy t lost act event)) := by
  cases made with
  | idle kept =>
    cases act with
    | close =>
      rw [lostBy, if_pos (kept rfl)]
      exact h
    | search | refresh | reset | sortBy | turnTo | delete | pick | deliver => exact h
  | asked kept isOpen criteria =>
    have more := (h.asking criteria).perm (pending_issue _ _ lost)
    cases act with
    | close => exact absurd rfl kept
    | search | refresh | reset | sortBy | turnTo | delete | pick | deliver => exact more
  | @deletion record id isOpen saved idle =>
    exact (h.deletion idle id).perm (pending_issue _ _ lost)
  | picked p => exact ⟨h.searching, h.deleting, h.sequences, h.keys, h.latest⟩
  | applied found => exact (h.perm (w.pending_perm found)).search_over rfl rfl rfl
  | searchFailed found => exact (h.perm (w.pending_perm found)).search_over rfl rfl rfl
  | stale found old => exact (h.perm (w.pending_perm found)).search_over rfl rfl rfl
  | deleted found => exact (h.perm (w.pending_perm found)).delete_over rfl rfl rfl
  | deleteFailed found => exact (h.perm (w.pending_perm found)).delete_over rfl rfl rfl
  | @crashed number call reply found others =>
    rw [lostBy, if_neg (mt List.isEmpty_iff.mp others), found]
    -- the call goes from those in flight to the lost ones and is pending all the same
    have moved : (s.pending lost).Perm ((s.without number).pending (lost ++ [call])) := by
      refine (w.pending_perm found).trans (List.perm_append_singleton _ _).symm |>.trans ?_
      exact .of_eq (List.append_assoc _ _ _)
    have kept := h.perm moved
    exact ⟨kept.searching, kept.deleting, kept.sequences, kept.keys, kept.latest⟩
  | @crashedLast number call reply found last =>
    rw [lostBy, if_pos (List.isEmpty_iff.mpr last), pending, last]
    exact .nil rfl rfl
  | closed isOpen =>
    rw [lostBy, isOpen]
    exact .nil rfl rfl

theorem Tallies.run (w : s.WellFormed) (h : Tallies s (s.pending lost)) (acts : List (Act κ)) :
    Tallies (s.run acts) ((s.run acts).pending (s.lostAlong lost acts)) := by
  induction acts generalizing s lost with
  | nil => exact h
  | cons act rest ih =>
    have made := s.step_cases act
    exact ih (w.step made) (h.step w made)

end BackOffice.Screen.ListScreen
