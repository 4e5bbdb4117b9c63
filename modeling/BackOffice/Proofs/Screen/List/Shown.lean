import BackOffice.Proofs.Screen.List.Calls

/-!
# What a list screen shows

The rows and what is known about their page change in two ways only: the latest search succeeds, or
a deletion does. However the answers to older calls come in, a screen whose latest search was
applied shows the page of that search without the rows deleted since. A closed screen takes no
answer.
-/
namespace BackOffice.Screen

open BackOffice.Query

namespace Event

variable {κ : Type}

def applied? : Event κ → Option Nat
  | applied sequence _ => some sequence
  | _ => none

def removed? : Event κ → Option κ
  | deleted k => some k
  | _ => none

end Event

namespace ListScreen

variable {κ : Type} [DecidableEq κ] {keyOf : Record → κ} {s t : ListScreen keyOf} {number : Nat}
  {act : Act κ} {event : Option (Event κ)} {lost : List (Call κ)}

/-! ## One act -/

/-- What an act did to what is shown, told by its event. -/
def Shows (s t : ListScreen keyOf) (act : Act κ) : Option (Event κ) → Prop
  | some (.applied q count) => ∃ number criteria page,
      act = .deliver number (.searched (.ok page)) ∧
      (number, .search q criteria) ∈ s.inFlight ∧ q = s.sequence ∧ count = page.items.length ∧
      t.rows.toList = Keyed.latestByKey keyOf page.items ∧ t.info = some page.info ∧
      t.rows.selected = s.rows.selected.filter (· ∈ page.items.map keyOf)
  | some (.deleted k) =>
      (∃ number id,
        act = .deliver number (.deleted (.ok ())) ∧ (number, .delete k id) ∈ s.inFlight) ∧
      t.rows.toList = s.rows.toList.filter (keyOf · ≠ k) ∧ t.info = s.info ∧
      t.rows.selected = s.rows.selected.filter (· ≠ k)
  | some (.stale _) | some (.searchFailed ..) | some (.deleteFailed ..) | some .aborted =>
      t.rows = s.rows ∧ t.info = s.info
  | none =>
      t.rows.items = s.rows.items ∧ t.info = s.info ∧ (t.rows = s.rows ∨ ∃ p, act = .pick p)

theorem shows_step (w : s.WellFormed) (made : Step s act t event) : Shows s t act event := by
  cases made with
  | idle | asked | deletion | closed => exact ⟨rfl, rfl, Or.inl rfl⟩
  | picked p => exact ⟨p.apply_items, rfl, Or.inr ⟨p, rfl⟩⟩
  | @applied number criteria page found =>
    exact ⟨number, criteria, page, rfl, mem_of_callNumbered? found, rfl, rfl,
      Keyed.toList_load page.items, rfl, Keyed.selected_load page.items⟩
  | @deleted number k id found =>
    exact ⟨⟨number, id, rfl, mem_of_callNumbered? found⟩, Keyed.toList_remove w.rows, rfl, rfl⟩
  | searchFailed | stale | deleteFailed | crashed | crashedLast => exact ⟨rfl, rfl⟩

omit [DecidableEq κ] in
theorem sequence_search {criteria : Criteria} {q : Nat} (h : s.search criteria = .ok (t, q)) :
    s.sequence < q ∧ t.sequence = q := by
  rw [search] at h
  split at h
  · cases h
  · cases h
    exact ⟨Nat.lt_succ_self s.sequence, rfl⟩

theorem deliver_latest (w : s.WellFormed) {criteria : Criteria} (page : Page Record)
    (h : (number, .search s.sequence criteria) ∈ s.inFlight) :
    (s.deliver number (.searched (.ok page))).2 =
      some (.applied s.sequence page.items.length) := by
  rw [deliver, w.callNumbered?_eq_some_iff.mpr h]
  simp only [applyReply, applySearch, ne_eq, not_true_eq_false, if_false]

theorem deliver_deleted (w : s.WellFormed) {k : κ} {id : Uuid}
    (h : (number, .delete k id) ∈ s.inFlight) :
    (s.deliver number (.deleted (.ok ()))).2 = some (.deleted k) := by
  rw [deliver, w.callNumbered?_eq_some_iff.mpr h]
  rfl

/-! ## Applied searches -/

omit [DecidableEq κ] in
theorem Tallies.mem_searching (h : Tallies s (s.pending lost)) {q : Nat} {criteria : Criteria}
    (inFlight : (number, .search q criteria) ∈ s.inFlight) : q ∈ s.searching :=
  (h.searching q).mpr (List.mem_filterMap.mpr ⟨.search q criteria,
    List.mem_append_left lost (List.mem_map.mpr ⟨_, inFlight, rfl⟩), rfl⟩)

/-- No answer to the latest search is to come. -/
def Answered (s : ListScreen keyOf) : Prop :=
  ∀ number criteria, (number, Call.search s.sequence criteria) ∉ s.inFlight

theorem answered_of_applied (w : s.WellFormed) (tallies : Tallies s (s.pending lost))
    {q count : Nat} (made : Step s act t (some (.applied q count))) :
    q = s.sequence ∧ t.sequence = s.sequence ∧ t.Answered := by
  have tallied := tallies.step w made
  cases made with
  | applied found =>
    refine ⟨rfl, rfl, ?_⟩
    intro number criteria again
    have counted := tallied.mem_searching again
    exact of_decide_eq_true (List.mem_filter.mp counted).2 rfl

/-- These searches were applied, one after the other, and are over. -/
structure Superseded (s : ListScreen keyOf) (applied : List Nat) : Prop where
  increasing : applied.Pairwise (· < ·)
  bounded : ∀ q ∈ applied, q ≤ s.sequence
  ended : ∀ q ∈ applied, ∀ number criteria, (number, Call.search q criteria) ∉ s.inFlight

namespace Superseded

variable {applied : List Nat}

theorem stays (h : Superseded s applied) (made : Step s act t event) : Superseded t applied where
  increasing := h.increasing
  bounded q hq := Nat.le_trans (h.bounded q hq) made.sequence_le
  ended q hq number criteria inFlight := by
    rcases made.search_inFlight inFlight with old | later
    · exact h.ended q hq number criteria old
    · exact absurd (h.bounded q hq) (Nat.not_le_of_lt later)

theorem step (w : s.WellFormed) (tallies : Tallies s (s.pending lost)) (h : Superseded s applied)
    (made : Step s act t event) :
    Superseded t (applied ++ event.toList.filterMap Event.applied?) := by
  have kept := h.stays made
  have answered {q count : Nat} (applied : event = some (.applied q count)) : t.Answered :=
    (answered_of_applied w tallies (applied ▸ made)).2.2
  cases made with
  | @applied number criteria page found =>
    have inFlight := mem_of_callNumbered? found
    -- the latest search was still in flight, so it is none of those that have ended
    have earlier : ∀ q ∈ applied, q < s.sequence := by
      intro q hq
      refine Nat.lt_of_le_of_ne (h.bounded q hq) ?_
      rintro rfl
      exact h.ended _ hq number criteria inFlight
    refine ⟨List.pairwise_append.mpr ⟨h.increasing, List.pairwise_singleton _ _, ?_⟩, ?_, ?_⟩
    · intro q hq latest hl
      exact List.mem_singleton.mp hl ▸ earlier q hq
    · intro q hq
      rcases List.mem_append.mp hq with old | new
      · exact kept.bounded q old
      · exact Nat.le_of_eq (List.mem_singleton.mp new)
    · intro q hq
      rcases List.mem_append.mp hq with old | new
      · exact kept.ended q old
      · rw [List.mem_singleton.mp new]
        exact answered rfl
  | idle | asked | deletion | picked | searchFailed | stale | deleted | deleteFailed | crashed
  | crashedLast | closed =>
    rw [show List.filterMap _ _ = ([] : List Nat) from rfl, List.append_nil]
    exact kept

theorem run (w : s.WellFormed) (tallies : Tallies s (s.pending lost)) (h : Superseded s applied)
    (acts : List (Act κ)) :
    Superseded (s.run acts) (applied ++ (s.events acts).filterMap Event.applied?) := by
  induction acts generalizing s lost applied with
  | nil =>
    rw [events, List.filterMap_nil, List.append_nil]
    exact h
  | cons act rest ih =>
    have made := s.step_cases act
    rw [events, List.filterMap_append, ← List.append_assoc]
    exact ih (w.step made) (tallies.step w made) (h.step w tallies made)

end Superseded

/-! ## After the latest search -/

theorem Answered.step (h : s.Answered) (made : Step s act t event)
    (same : t.sequence = s.sequence) : t.Answered := by
  intro number criteria inFlight
  rw [same] at inFlight
  rcases made.search_inFlight inFlight with old | later
  · exact h number criteria old
  · exact absurd later (Nat.lt_irrefl s.sequence)

theorem shown_of_answered (h : s.Answered) (shows : Shows s t act event) :
    t.rows.toList = s.rows.toList.filter
      (keyOf · ∉ event.toList.filterMap Event.removed?) ∧ t.info = s.info := by
  have untouched : s.rows.toList.filter (keyOf · ∉ ([] : List κ)) = s.rows.toList := by
    simp
  cases event with
  | none => exact ⟨(congrArg OrderedMap.values shows.1).trans untouched.symm, shows.2.1⟩
  | some event =>
    cases event with
    | applied q count =>
      obtain ⟨number, criteria, _, _, inFlight, rfl, _⟩ := shows
      exact absurd inFlight (h number criteria)
    | deleted k =>
      obtain ⟨_, rows, info, _⟩ := shows
      refine ⟨rows.trans (List.filter_congr fun r _ => ?_), info⟩
      simp [Event.removed?]
    | stale | searchFailed | deleteFailed | aborted =>
      exact ⟨(congrArg Keyed.toList shows.1).trans untouched.symm, shows.2⟩

theorem shown_run (w : s.WellFormed) (h : s.Answered) {acts : List (Act κ)}
    (same : (s.run acts).sequence = s.sequence) :
    (s.run acts).rows.toList = s.rows.toList.filter
      (keyOf · ∉ (s.events acts).filterMap Event.removed?) ∧ (s.run acts).info = s.info := by
  induction acts generalizing s with
  | nil => exact ⟨by simp [events, run], rfl⟩
  | cons act rest ih =>
    have made := s.step_cases act
    -- numbers only grow, so a run that ends with the number it began with makes no search
    have unasked : (s.step act).1.sequence = s.sequence :=
      Nat.le_antisymm (same ▸ sequence_le_run _ rest) made.sequence_le
    obtain ⟨rows, info⟩ := shown_of_answered h (shows_step w made)
    obtain ⟨rest_rows, rest_info⟩ :=
      ih (w.step made) (h.step made unasked) (same.trans unasked.symm)
    refine ⟨rest_rows.trans ?_, rest_info.trans info⟩
    rw [rows, List.filter_filter, events, List.filterMap_append]
    apply List.filter_congr
    intro r _
    rw [← Bool.decide_and, decide_eq_decide, List.mem_append, not_or, and_comm]

/-! ## The whole run -/

/-- Once a search was applied that stays the latest, the rows are its page without those deleted
since. -/
theorem shown_since_applied (w : s.WellFormed) (tallies : Tallies s (s.pending lost))
    {rest : List (Act κ)} {count : Nat}
    (applied : (s.step act).2 = some (.applied (s.run (act :: rest)).sequence count)) :
    ∃ number page, act = .deliver number (.searched (.ok page)) ∧
      (s.run (act :: rest)).rows.toList = (Keyed.latestByKey keyOf page.items).filter
        (keyOf · ∉ ((s.step act).1.events rest).filterMap Event.removed?) ∧
      (s.run (act :: rest)).info = some page.info := by
  have made := s.step_cases act
  have shows := shows_step w made
  rw [applied] at shows
  obtain ⟨number, criteria, page, rfl, inFlight, latest, _, rows, info, _⟩ := shows
  have answered := answered_of_applied w tallies (applied ▸ made)
  have same := latest.trans answered.2.1.symm
  obtain ⟨rest_rows, rest_info⟩ := shown_run (w.step made) answered.2.2 same
  exact ⟨number, page, rfl, rows ▸ rest_rows, rest_info.trans info⟩

/-- Whatever is done on a list screen and however the answers come in: each act shows what its event
says; every search is numbered beyond those before it and becomes the latest; the success of the
latest one and that of a deletion are always taken; searches are applied in the order in which they
were made; and the rows come from the search that was applied and is still the latest. After a
closing, no answer does anything and no search or deletion is made. -/
theorem shown_along_run (keyOf : Record → κ) (resource : String) (size : UInt64)
    (acts : List (Act κ)) :
    let start : ListScreen keyOf := openWith resource size
    let s := start.run acts
    (∀ act, Shows s (s.step act).1 act (s.step act).2) ∧
    (∀ criteria t q, s.search criteria = .ok (t, q) → s.sequence < q ∧ t.sequence = q) ∧
    (∀ number criteria page, (number, .search s.sequence criteria) ∈ s.inFlight →
      (s.deliver number (.searched (.ok page))).2 =
        some (.applied s.sequence page.items.length)) ∧
    (∀ number k id, (number, .delete k id) ∈ s.inFlight →
      (s.deliver number (.deleted (.ok ()))).2 = some (.deleted k)) ∧
    ((start.events acts).filterMap Event.applied?).Pairwise (· < ·) ∧
    (∀ before act rest count, acts = before ++ act :: rest →
      let (t, event) := (start.run before).step act
      event = some (.applied s.sequence count) →
        ∃ number page, act = .deliver number (.searched (.ok page)) ∧
          s.rows.toList = (Keyed.latestByKey keyOf page.items).filter
            (keyOf · ∉ (t.events rest).filterMap Event.removed?) ∧
          s.info = some page.info) ∧
    (.close ∈ acts →
      (∀ number reply, s.deliver number reply = (s, none)) ∧
      (∀ criteria, s.search criteria = .error .closed) ∧
      ∀ record, s.delete record = .error .closed) := by
  intro start s
  have wellFormed (acts : List (Act κ)) : (start.run acts).WellFormed :=
    (wellFormed_openWith resource size).run acts
  have books : Tallies start (start.pending []) := .nil rfl rfl
  refine ⟨fun act => shows_step (wellFormed acts) (s.step_cases act),
    fun _ _ _ => sequence_search, fun _ _ page h => deliver_latest (wellFormed acts) page h,
    fun _ _ _ h => deliver_deleted (wellFormed acts) h, ?increasing, ?since, ?closed⟩
  case increasing =>
    have none : Superseded start [] := ⟨List.Pairwise.nil, nofun, nofun⟩
    exact (none.run (wellFormed_openWith resource size) books acts).increasing
  case since =>
    rintro before act rest count split event
    have whole : s = (start.run before).run (act :: rest) := by
      rw [← run_append, ← split]
    rw [whole] at event ⊢
    exact shown_since_applied (wellFormed before)
      (books.run (wellFormed_openWith resource size) before) event
  case closed =>
    intro closing
    obtain ⟨before, rest, split⟩ := List.append_of_mem closing
    have whole : s = (start.run before).close.run rest := by
      change start.run acts = _
      rw [split, run_append]
      rfl
    have isClosed : s.isClosed = true := by
      rw [whole]
      exact isClosed_run (isClosed_close _) rest
    refine ⟨?_, ?_, ?_⟩
    · intro number reply
      rw [deliver, callNumbered?, (wellFormed acts).closed isClosed]
      rfl
    · intro criteria
      rw [search, if_pos isClosed]
    · intro record
      rw [delete, if_pos isClosed]

end ListScreen

end BackOffice.Screen
