import BackOffice.Proofs.Screen.List.Flags
import Mathlib.Data.List.Perm.Subperm

/-!
# The answers to the calls of a list screen

Every search or deletion that a list screen accepts makes one call, and every call is answered by
one event, unless the screen is closed first. Calls are numbered in the order in which they are
made, and so are searches. Two ledgers are kept along a run, of the calls that were accepted and of
those that were answered: as long as the screen is open, the accepted calls are the answered ones
and those in flight.
-/
namespace BackOffice.Screen

open BackOffice.Query

variable {κ : Type}

/-- The call went wrong, or the reply is none that it can get. -/
def Reply.isCrash : Call κ → Reply → Bool
  | .search .., .searched _ => false
  | .delete .., .deleted _ => false
  | _, _ => true

/-- An event that answers a call, by what the backend replied. -/
inductive Answers : Call κ → Reply → Event κ → Prop
  | applied (q : Nat) (criteria : Criteria) (page : Page Record) :
      Answers (.search q criteria) (.searched (.ok page)) (.applied q page.items.length)
  | stale (q : Nat) (criteria : Criteria) (result : Except Problem (Page Record)) :
      Answers (.search q criteria) (.searched result) (.stale q)
  | searchFailed (q : Nat) (criteria : Criteria) (p : Problem) :
      Answers (.search q criteria) (.searched (.error p)) (.searchFailed q p)
  | deleted (k : κ) (id : Uuid) : Answers (.delete k id) (.deleted (.ok ())) (.deleted k)
  | deleteFailed (k : κ) (id : Uuid) (p : Problem) :
      Answers (.delete k id) (.deleted (.error p)) (.deleteFailed k p)
  | aborted {call : Call κ} {reply : Reply} (crash : Reply.isCrash call reply = true) :
      Answers call reply .aborted

namespace ListScreen

variable [DecidableEq κ] {keyOf : Record → κ} {s : ListScreen keyOf} {act : Act κ}

/-- Acts that ask for a call. -/
def Act.isCall : Act κ → Bool
  | .search _ | .refresh | .reset | .sortBy _ | .turnTo _ | .delete _ => true
  | .pick _ | .deliver .. | .close => false

/-- The call of a search by criteria, with the number that the searcher was told. -/
def searchCall? (criteria : Criteria) (result : Except Problem (ListScreen keyOf × Nat)) :
    Option (Call κ) :=
  result.toOption.map fun accepted => .search accepted.2 criteria

/-- The call that an act makes, unless it is refused. -/
def accepted? (s : ListScreen keyOf) : Act κ → Option (Call κ)
  | .search criteria => searchCall? criteria (s.search criteria)
  | .refresh => searchCall? s.criteria s.refresh
  | .reset => searchCall? (.ofSize s.defaultSize) s.reset
  | .sortBy field => searchCall? { s.criteria.sortBy field with page := 0 } (s.sortBy field)
  | .turnTo page => searchCall? { s.criteria with page } (s.turnTo page)
  | .delete record =>
    (s.delete record).toOption.bind fun _ => record.id.map fun id => .delete (keyOf record) id
  | .pick _ | .deliver .. | .close => none

/-- The numbered calls that a run makes. -/
def accepted (s : ListScreen keyOf) : List (Act κ) → List (Nat × Call κ)
  | [] => []
  | act :: rest =>
    ((s.accepted? act).toList.map fun call => (s.issued + 1, call)) ++ (s.step act).1.accepted rest

/-- The call that an act answers, with the event that it leads to. -/
def answered? (s : ListScreen keyOf) : Act κ → Option ((Nat × Call κ) × Event κ)
  | .deliver number reply =>
    (s.callNumbered? number).bind fun call =>
      (s.deliver number reply).2.map fun event => ((number, call), event)
  | _ => none

/-- The calls that a run answers, each with its event. -/
def answered (s : ListScreen keyOf) : List (Act κ) → List ((Nat × Call κ) × Event κ)
  | [] => []
  | act :: rest => (s.answered? act).toList ++ (s.step act).1.answered rest

/-! ## Making calls -/

/-- An act that asks for a call, the call that it makes and what it leads to. -/
inductive Asks (s : ListScreen keyOf) (act : Act κ) :
    Option (Call κ) → ListScreen keyOf × Option (Event κ) → Prop
  | refused : Asks s act none (s, none)
  | search (isOpen : s.isClosed = false) (criteria : Criteria) :
      Asks s act (some (.search (s.sequence + 1) criteria)) (s.asking criteria, none)
  | deletion {record : Record} {id : Uuid} (isOpen : s.isClosed = false)
      (idle : keyOf record ∉ s.deleting) :
      Asks s act (some (.delete (keyOf record) id))
        ({ s with deleting := s.deleting ++ [keyOf record] }.issue (.delete (keyOf record) id),
          none)

omit [DecidableEq κ] in
theorem asks_search (s : ListScreen keyOf) (act : Act κ) (criteria : Criteria) :
    Asks s act (searchCall? criteria (s.search criteria))
      ((s.search criteria).toOption.elim s (·.1), none) := by
  cases isOpen : s.isClosed with
  | true =>
    rw [search, if_pos isOpen]
    exact .refused
  | false =>
    rw [search, if_neg (by rw [isOpen]; decide)]
    exact .search isOpen criteria

theorem asks_delete (s : ListScreen keyOf) (record : Record) :
    Asks s (.delete record) (s.accepted? (.delete record)) (s.step (.delete record)) := by
  rw [step, accepted?, delete]
  split
  · exact .refused
  · next isOpen =>
    cases record.id with
    | none => exact .refused
    | some id =>
      dsimp only
      split
      · exact .refused
      · next idle =>
        rw [isDeleting, List.contains_iff_mem] at idle
        exact .deletion (Bool.eq_false_iff.mpr isOpen) idle

theorem asks_of_isCall (s : ListScreen keyOf) (isCall : act.isCall = true) :
    Asks s act (s.accepted? act) (s.step act) := by
  cases act with
  | search criteria => exact s.asks_search _ criteria
  | refresh => exact s.asks_search _ s.criteria
  | reset => exact s.asks_search _ (.ofSize s.defaultSize)
  | sortBy field => exact s.asks_search _ { s.criteria.sortBy field with page := 0 }
  | turnTo page => exact s.asks_search _ { s.criteria with page }
  | delete record => exact s.asks_delete record
  | pick | deliver | close => cases isCall

theorem step_of_refused (isCall : act.isCall = true) (refused : s.accepted? act = none) :
    s.step act = (s, none) := by
  have asks := s.asks_of_isCall isCall
  rw [refused] at asks
  generalize s.step act = after at asks
  cases asks
  rfl

theorem isCall_of_accepted {call : Call κ} (accepted : s.accepted? act = some call) :
    act.isCall = true := by
  cases act with
  | search | refresh | reset | sortBy | turnTo | delete => rfl
  | pick | deliver | close => cases accepted

/-- An accepted call is in flight from then on, under the next number. -/
theorem step_of_accepted {call : Call κ} (accepted : s.accepted? act = some call) :
    s.isClosed = false ∧ (s.step act).2 = none ∧ (s.step act).1.issued = s.issued + 1 ∧
      (s.step act).1.inFlight = s.inFlight ++ [(s.issued + 1, call)] := by
  have asks := s.asks_of_isCall (isCall_of_accepted accepted)
  rw [accepted] at asks
  generalize s.step act = after at asks ⊢
  cases asks with
  | search isOpen | deletion isOpen => exact ⟨isOpen, rfl, rfl, rfl⟩

theorem accepted?_delete_of_deleting {record : Record}
    (deleting : s.isDeleting (keyOf record) = true) : s.accepted? (.delete record) = none := by
  rw [accepted?, delete]
  split
  · rfl
  · cases record.id with
    | none => rfl
    | some id =>
      dsimp only
      rw [if_pos deleting]
      rfl

/-! ## Answering calls -/

/-- A reply changes neither what else is in flight nor any count. -/
theorem applyReply_keeps (s : ListScreen keyOf) (call : Call κ) (reply : Reply) :
    (s.applyReply call reply).1.inFlight = s.inFlight ∧
      (s.applyReply call reply).1.issued = s.issued ∧
      (s.applyReply call reply).1.sequence = s.sequence ∧
      (s.applyReply call reply).1.isClosed = s.isClosed := by
  have crashed : s.applyCrash.1.inFlight = s.inFlight ∧ s.applyCrash.1.issued = s.issued ∧
      s.applyCrash.1.sequence = s.sequence ∧ s.applyCrash.1.isClosed = s.isClosed := by
    rw [applyCrash]
    split <;> exact ⟨rfl, rfl, rfl, rfl⟩
  cases call with
  | search q criteria =>
    cases reply with
    | searched result =>
      unfold applyReply applySearch
      dsimp only
      split
      · exact ⟨rfl, rfl, rfl, rfl⟩
      · cases result <;> exact ⟨rfl, rfl, rfl, rfl⟩
    | deleted | crashed => exact crashed
  | delete k id =>
    cases reply with
    | deleted result => cases result <;> exact ⟨rfl, rfl, rfl, rfl⟩
    | searched | crashed => exact crashed

theorem answers_applyReply (s : ListScreen keyOf) (call : Call κ) (reply : Reply) :
    Answers call reply (s.applyReply call reply).2 := by
  cases call with
  | search q criteria =>
    cases reply with
    | searched result =>
      unfold applyReply applySearch
      dsimp only
      split
      · exact .stale q criteria result
      · cases result with
        | ok page => exact .applied q criteria page
        | error p => exact .searchFailed q criteria p
    | deleted | crashed => exact .aborted rfl
  | delete k id =>
    cases reply with
    | deleted result =>
      cases result with
      | ok _ => exact .deleted k id
      | error p => exact .deleteFailed k id p
    | searched | crashed => exact .aborted rfl

theorem inFlight_deliver (s : ListScreen keyOf) (number : Nat) (reply : Reply) :
    (s.deliver number reply).1.inFlight = s.inFlight.filter (·.1 ≠ number) := by
  cases found : s.callNumbered? number with
  | none =>
    have unknown := OrderedMap.get?_eq_none_iff (m := ⟨s.inFlight⟩).mp found
    rw [deliver, found]
    refine (List.filter_eq_self.mpr fun c hc => decide_eq_true ?_).symm
    rintro rfl
    exact unknown (List.mem_map.mpr ⟨c, hc, rfl⟩)
  | some call =>
    rw [deliver, found]
    exact ((s.without number).applyReply_keeps call reply).1

theorem deliver_keeps (s : ListScreen keyOf) (number : Nat) (reply : Reply) :
    (s.deliver number reply).1.issued = s.issued ∧
      (s.deliver number reply).1.sequence = s.sequence ∧
      (s.deliver number reply).1.isClosed = s.isClosed := by
  rw [deliver]
  cases s.callNumbered? number with
  | none => exact ⟨rfl, rfl, rfl⟩
  | some call => exact ((s.without number).applyReply_keeps call reply).2

theorem answered?_deliver {number : Nat} {call : Call κ} (reply : Reply)
    (found : s.callNumbered? number = some call) :
    ∃ event, (s.deliver number reply).2 = some event ∧ Answers call reply event ∧
      s.answered? (.deliver number reply) = some ((number, call), event) := by
  refine ⟨_, ?_, answers_applyReply (s.without number) call reply, ?_⟩
  · rw [deliver, found]
    rfl
  · rw [answered?, deliver, found]
    rfl

theorem answered?_deliver_none {number : Nat} (reply : Reply)
    (unknown : s.callNumbered? number = none) :
    s.deliver number reply = (s, none) ∧ s.answered? (.deliver number reply) = none := by
  rw [answered?, deliver, unknown]
  exact ⟨rfl, rfl⟩

/-- What an act tells is the answer to a call. -/
theorem event_eq_answered? (s : ListScreen keyOf) (act : Act κ) :
    (s.step act).2 = (s.answered? act).map (·.2) := by
  cases act with
  | deliver number reply =>
    cases found : s.callNumbered? number with
    | none =>
      obtain ⟨idle, unanswered⟩ := answered?_deliver_none reply found
      rw [step, idle, unanswered]
      rfl
    | some call =>
      obtain ⟨event, told, _, answered⟩ := answered?_deliver reply found
      rw [step, told, answered]
      rfl
  | search | refresh | reset | sortBy | turnTo | delete | pick | close => rfl

theorem answers_of_answered? {a : (Nat × Call κ) × Event κ} (h : s.answered? act = some a) :
    ∃ reply, act = .deliver a.1.1 reply ∧ Answers a.1.2 reply a.2 := by
  cases act with
  | deliver number reply =>
    cases found : s.callNumbered? number with
    | none =>
      rw [(answered?_deliver_none reply found).2] at h
      cases h
    | some call =>
      obtain ⟨event, _, answers, answered⟩ := answered?_deliver reply found
      rw [answered] at h
      cases h
      exact ⟨reply, rfl, answers⟩
  | search | refresh | reset | sortBy | turnTo | delete | pick | close => cases h

/-! ## Along a run -/

theorem accepted_append (s : ListScreen keyOf) (before after : List (Act κ)) :
    s.accepted (before ++ after) = s.accepted before ++ (s.run before).accepted after := by
  induction before generalizing s with
  | nil => rfl
  | cons act rest ih =>
    rw [List.cons_append, accepted, accepted, ih, List.append_assoc]
    rfl

theorem counters_of_unmade (unmade : s.accepted? act = none) :
    (s.step act).1.issued = s.issued ∧ (s.step act).1.sequence = s.sequence := by
  by_cases isCall : act.isCall = true
  · rw [step_of_refused isCall unmade]
    exact ⟨rfl, rfl⟩
  · cases act with
    | pick p => exact ⟨rfl, rfl⟩
    | deliver number reply =>
      obtain ⟨issued, sequence, _⟩ := s.deliver_keeps number reply
      exact ⟨issued, sequence⟩
    | close =>
      rw [step, close]
      split <;> exact ⟨rfl, rfl⟩
    | search | refresh | reset | sortBy | turnTo | delete => exact absurd rfl isCall

theorem sequence_of_accepted {call : Call κ} (accepted : s.accepted? act = some call) :
    call.sequence? = none ∧ (s.step act).1.sequence = s.sequence ∨
      call.sequence? = some (s.sequence + 1) ∧ (s.step act).1.sequence = s.sequence + 1 := by
  have asks := s.asks_of_isCall (isCall_of_accepted accepted)
  rw [accepted] at asks
  generalize s.step act = after at asks ⊢
  cases asks with
  | search => exact .inr ⟨rfl, rfl⟩
  | deletion => exact .inl ⟨rfl, rfl⟩

/-- The calls of a run are numbered one after the other. -/
theorem numbers_accepted (s : ListScreen keyOf) (acts : List (Act κ)) :
    (s.run acts).issued = s.issued + (s.accepted acts).length ∧
      (s.accepted acts).map (·.1) = List.range' (s.issued + 1) (s.accepted acts).length := by
  induction acts generalizing s with
  | nil => exact ⟨rfl, rfl⟩
  | cons act rest ih =>
    obtain ⟨last, later⟩ := ih (s.step act).1
    change ((s.step act).1.run rest).issued = _ ∧ _
    rw [accepted]
    cases made : s.accepted? act with
    | none =>
      rw [(counters_of_unmade made).1] at last later
      exact ⟨last, later⟩
    | some call =>
      rw [(step_of_accepted made).2.2.1] at last later
      refine ⟨last.trans ?_, congrArg ((s.issued + 1) :: ·) later⟩
      rw [Option.toList_some, List.map_singleton, List.singleton_append, List.length_cons]
      omega

/-- The searches of a run are numbered one after the other. -/
theorem sequences_accepted (s : ListScreen keyOf) (acts : List (Act κ)) :
    ∃ n, (s.run acts).sequence = s.sequence + n ∧
      (s.accepted acts).filterMap (·.2.sequence?) = List.range' (s.sequence + 1) n := by
  induction acts generalizing s with
  | nil => exact ⟨0, rfl, rfl⟩
  | cons act rest ih =>
    obtain ⟨n, last, later⟩ := ih (s.step act).1
    change ∃ n, ((s.step act).1.run rest).sequence = _ ∧ _
    rw [accepted]
    cases made : s.accepted? act with
    | none =>
      rw [(counters_of_unmade made).2] at last later
      exact ⟨n, last, later⟩
    | some call =>
      rw [Option.toList_some, List.map_singleton, List.singleton_append, List.filterMap_cons]
      obtain ⟨plain, sequence⟩ | ⟨number, sequence⟩ := sequence_of_accepted made
      · rw [sequence] at last later
        rw [plain]
        exact ⟨n, last, later⟩
      · rw [sequence] at last later
        rw [number]
        refine ⟨n + 1, by omega, ?_⟩
        exact congrArg ((s.sequence + 1) :: ·) later

/-- What an act answers and what is in flight after it was in flight before or is made by it;
nothing is missing unless the screen is closed now. -/
theorem balance_step (w : s.WellFormed) (act : Act κ) :
    let left := (s.answered? act).toList.map (·.1) ++ (s.step act).1.inFlight
    let right := s.inFlight ++ (s.accepted? act).toList.map fun call => (s.issued + 1, call)
    left.Subperm right ∧ ((s.step act).1.isClosed = false → left.Perm right) := by
  intro left right
  by_cases isCall : act.isCall = true
  · have unanswered : s.answered? act = none := by
      cases act with
      | search | refresh | reset | sortBy | turnTo | delete => rfl
      | pick | deliver | close => cases isCall
    have same : left.Perm right := by
      simp only [left, right, unanswered]
      cases made : s.accepted? act with
      | none => simp [step_of_refused isCall made]
      | some call => simp [step_of_accepted made]
    exact ⟨same.subperm, fun _ => same⟩
  · cases act with
    | pick p =>
      have same : left.Perm right := .of_eq (List.append_nil _).symm
      exact ⟨same.subperm, fun _ => same⟩
    | deliver number reply =>
      have same : left.Perm right := by
        cases found : s.callNumbered? number with
        | none =>
          obtain ⟨idle, unanswered⟩ := answered?_deliver_none reply found
          simp [left, right, unanswered, step, idle, accepted?]
        | some call =>
          obtain ⟨event, _, _, answered⟩ := answered?_deliver reply found
          simp only [left, right, answered, step, inFlight_deliver, accepted?]
          rw [Option.toList_none, List.map_nil, List.append_nil]
          exact (w.inFlight_perm found).symm
      exact ⟨same.subperm, fun _ => same⟩
    | close =>
      refine ⟨?_, fun isOpen => ?_⟩
      · have none : left = [] := by
          have closed := s.isClosed_close
          exact (w.step s.step_close).closed closed
        rw [none]
        exact List.nil_subperm
      · exact absurd (s.isClosed_close.symm.trans isOpen) (by decide)
    | search | refresh | reset | sortBy | turnTo | delete => exact absurd rfl isCall

theorem balance_run (w : s.WellFormed) (acts : List (Act κ)) :
    let left := (s.answered acts).map (·.1) ++ (s.run acts).inFlight
    let right := s.inFlight ++ s.accepted acts
    left.Subperm right ∧ ((s.run acts).isClosed = false → left.Perm right) := by
  induction acts generalizing s with
  | nil =>
    have same : s.inFlight.Perm (s.inFlight ++ []) := .of_eq (List.append_nil _).symm
    exact ⟨same.subperm, fun _ => same⟩
  | cons act rest ih =>
    obtain ⟨first, firstOpen⟩ := balance_step w act
    obtain ⟨later, laterOpen⟩ := ih (w.step (s.step_cases act))
    intro left right
    have apart : left = (s.answered? act).toList.map (·.1) ++
        (((s.step act).1.answered rest).map (·.1) ++ ((s.step act).1.run rest).inFlight) := by
      simp only [left, answered, List.map_append, List.append_assoc]
      rfl
    have whole : right = (s.inFlight ++
        (s.accepted? act).toList.map fun call => (s.issued + 1, call)) ++
          (s.step act).1.accepted rest := by
      simp only [right, accepted, List.append_assoc]
    rw [apart, whole]
    refine ⟨?_, fun isOpen => ?_⟩
    · refine ((List.subperm_append_left _).mpr later).trans ?_
      rw [← List.append_assoc]
      exact (List.subperm_append_right _).mpr first
    · have open_before : (s.step act).1.isClosed = false := by
        by_contra closed
        have still := isClosed_run (Bool.not_eq_false _ ▸ closed) rest
        exact absurd (still.symm.trans isOpen) (by decide)
      refine ((laterOpen isOpen).append_left _).trans ?_
      rw [← List.append_assoc]
      exact (firstOpen open_before).append_right _

theorem events_eq_answered (s : ListScreen keyOf) (acts : List (Act κ)) :
    s.events acts = (s.answered acts).map (·.2) := by
  induction acts generalizing s with
  | nil => rfl
  | cons act rest ih =>
    rw [events, answered, List.map_append, ih, event_eq_answered?]
    cases s.answered? act <;> rfl

theorem answers_of_answered (s : ListScreen keyOf) (acts : List (Act κ))
    {a : (Nat × Call κ) × Event κ} (h : a ∈ s.answered acts) :
    ∃ reply, .deliver a.1.1 reply ∈ acts ∧ Answers a.1.2 reply a.2 := by
  induction acts generalizing s with
  | nil => cases h
  | cons act rest ih =>
    rcases List.mem_append.mp h with now | later
    · obtain ⟨reply, rfl, answers⟩ := answers_of_answered? (Option.mem_toList.mp now)
      exact ⟨reply, List.mem_cons_self, answers⟩
    · obtain ⟨reply, given, answers⟩ := ih _ later
      exact ⟨reply, List.mem_cons_of_mem _ given, answers⟩

/-! ## Settling -/

/-- Calls complete in this order, each with its reply. -/
def completions (replies : List (Nat × Reply)) : List (Act κ) :=
  replies.map fun (number, reply) => .deliver number reply

theorem run_completions (s : ListScreen keyOf) (replies : List (Nat × Reply)) :
    (s.run (completions replies)).inFlight = s.inFlight.filter (·.1 ∉ replies.map (·.1)) ∧
      (s.run (completions replies)).isClosed = s.isClosed ∧
      s.accepted (completions replies) = [] := by
  induction replies generalizing s with
  | nil => exact ⟨by simp [completions, run], rfl, rfl⟩
  | cons first rest ih =>
    obtain ⟨number, reply⟩ := first
    obtain ⟨left, closed, quiet⟩ := ih (s.deliver number reply).1
    refine ⟨left.trans ?_, closed.trans (s.deliver_keeps number reply).2.2, quiet⟩
    rw [inFlight_deliver, List.filter_filter]
    refine List.filter_congr fun c _ => ?_
    rw [← Bool.decide_and, decide_eq_decide, List.map_cons, List.mem_cons, not_or, and_comm]

theorem deliver_of_quiet (quiet : s.inFlight = []) (number : Nat) (reply : Reply) :
    s.deliver number reply = (s, none) := by
  rw [deliver, callNumbered?, quiet]
  rfl

/-- Once every call in flight has completed, in whatever order and with whatever replies, every call
that was made has been answered. -/
theorem settled (w : s.WellFormed) (quiet : s.inFlight = [])
    (acts : List (Act κ)) (stays : (s.run acts).isClosed = false) {replies : List (Nat × Reply)}
    (complete : ∀ n ∈ (s.run acts).inFlight.map (·.1), n ∈ replies.map (·.1)) :
    ((s.run acts).run (completions replies)).inFlight = [] ∧
      ((s.answered (acts ++ completions replies)).map (·.1)).Perm (s.accepted acts) := by
  obtain ⟨left, closed, made⟩ := (s.run acts).run_completions replies
  have done : ((s.run acts).run (completions replies)).inFlight = [] := by
    rw [left, List.filter_eq_nil_iff]
    intro c hc
    simpa using complete c.1 (List.mem_map.mpr ⟨c, hc, rfl⟩)
  refine ⟨done, ?_⟩
  have balance := (balance_run w (acts ++ completions replies)).2
  rw [run_append, closed, done, quiet, accepted_append, made] at balance
  simpa using balance stays

/-- However a list screen is used: an accepted call is in flight from then on, while a refused act
changes and tells nothing, as that of a record without identifier and that of one whose deletion is
in flight. Calls are numbered one after the other and so are searches, and no two deletions in
flight have the same key. Each event answers a call, by its own number or key unless the call
crashed. No call is answered twice, and as long as the screen is open the calls that were accepted
are those that were answered and those in flight. When all have completed, none is left. -/
theorem accounted_along_run (keyOf : Record → κ) (resource : String) (size : UInt64)
    (acts : List (Act κ)) :
    let start : ListScreen keyOf := openWith resource size
    let s := start.run acts
    (∀ act call, s.accepted? act = some call → (s.step act).2 = none ∧
      (s.step act).1.inFlight = s.inFlight ++ [((start.accepted acts).length + 1, call)]) ∧
    (∀ act : Act κ, act.isCall = true → s.accepted? act = none → s.step act = (s, none)) ∧
    (∀ record, record.id = none → s.isClosed = false →
      s.delete record = .error (.unsaved s.resource "delete")) ∧
    (∀ record, (∃ number id, (number, .delete (keyOf record) id) ∈ s.inFlight) →
      s.accepted? (.delete record) = none) ∧
    (s.inFlight.filterMap (·.2.key?)).Nodup ∧
    (start.accepted acts).map (·.1) = List.range' 1 (start.accepted acts).length ∧
    (start.accepted acts).filterMap (·.2.sequence?) = List.range' 1 s.sequence ∧
    start.events acts = (start.answered acts).map (·.2) ∧
    (∀ a ∈ start.answered acts,
      ∃ reply, .deliver a.1.1 reply ∈ acts ∧ Answers a.1.2 reply a.2) ∧
    ((start.answered acts).map (·.1) ++ s.inFlight).Subperm (start.accepted acts) ∧
    (s.isClosed = false →
      ((start.answered acts).map (·.1) ++ s.inFlight).Perm (start.accepted acts)) ∧
    ∀ replies : List (Nat × Reply), s.isClosed = false →
      (∀ n ∈ s.inFlight.map (·.1), n ∈ replies.map (·.1)) →
        ((start.answered (acts ++ completions replies)).map (·.1)).Perm (start.accepted acts) ∧
        ∀ number reply, (s.run (completions replies)).deliver number reply =
          (s.run (completions replies), none) := by
  intro start s
  have w : start.WellFormed := wellFormed_openWith resource size
  have tallies : Tallies s (s.pending (start.lostAlong [] acts)) :=
    Tallies.run w (.nil rfl rfl) acts
  have balance := balance_run w acts
  refine ⟨?calls, fun act => step_of_refused, ?unsaved, ?deleting, ?keys,
    (numbers_accepted start acts).2, ?sequences, events_eq_answered start acts,
    fun a => answers_of_answered start acts, balance.1, balance.2, ?settling⟩
  case calls =>
    intro act call made
    obtain ⟨_, silent, _, inFlight⟩ := step_of_accepted made
    rw [inFlight, (numbers_accepted start acts).1, show start.issued = 0 from rfl, Nat.zero_add]
    exact ⟨silent, rfl⟩
  case unsaved =>
    intro record unsaved isOpen
    simp [delete, unsaved, isOpen]
  case deleting =>
    rintro record ⟨number, id, inFlight⟩
    exact accepted?_delete_of_deleting
      (tallies.isDeleting_iff.mpr ⟨id, mem_pending_iff.mpr (.inl ⟨number, inFlight⟩)⟩)
  case keys =>
    have distinct := tallies.keys
    rw [pending, List.filterMap_append, List.filterMap_map] at distinct
    exact distinct.of_append_left
  case sequences =>
    obtain ⟨n, last, sequences⟩ := sequences_accepted start acts
    rw [sequences]
    congr 1
    exact (last.trans (Nat.zero_add n)).symm
  case settling =>
    intro replies isOpen complete
    obtain ⟨quiet, answered⟩ := settled w rfl acts isOpen complete
    exact ⟨answered, deliver_of_quiet quiet⟩

end ListScreen

end BackOffice.Screen
