import BackOffice.Proofs.Screen.Edit.Conduct

/-!
# Failed acts on a record screen

An act fails when the mode forbids it, when the rules find violations, when the record has no
identifier or when the service answers with a problem. Whichever it is, the screen keeps its mode,
its record, the stored version and every editor; a message and the list of violations are all that
may be new. Hence acts can fail any number of times and be tried again: what the service is asked
for is the same as the first time.

A call may also be given up before it is answered. Nothing tells the screen, so it goes on to wait:
it refuses every other call as long as it is open, but fails as any other screen does.
-/
namespace BackOffice.Screen.EditScreen

open BackOffice.Field (Recognizer)

/-- Whether an act succeeds, as its caller is told. -/
def outcome [Recognizer] (s : EditScreen) : Act → Except Problem Unit
  | .edit f => (s.edit f).map fun _ => ()
  | .editLinks name f => (s.editLinks name f).map fun _ => ()
  | .startEditing => s.startEditing.map fun _ => ()
  | .duplicate => s.duplicate.map fun _ => ()
  | .cancel => s.cancel.map fun _ => ()
  | .save answer =>
    match s.startSave with
    | (_, .error p) => .error p
    | (started, .ok _) => (started.finishSave answer).2.map fun _ => ()
  | .changeStatus status answer =>
    match s.startChangeStatus status with
    | .error p => .error p
    | .ok (started, _) => (started.finishChangeStatus answer).2.map fun _ => ()
  | .delete answer =>
    match s.startDelete with
    | .error p => .error p
    | .ok (started, _) => (started.finishDelete answer).2.map fun _ => ()

/-- Each of these acts fails, one after the other. -/
def Fails [Recognizer] (s : EditScreen) : List Act → Prop
  | [] => True
  | a :: rest => (∃ p, s.outcome a = .error p) ∧ (s.act a).Fails rest

variable {s : EditScreen} {a : Act} {p : Problem}

/-! ## One failed act -/

/-- What may be left of a failure: the violations that it reports, or none if the rules were found
to be kept, and the message of its problem. -/
inductive Trace (s : EditScreen) (p : Problem) : List Violation → Option String → Prop
  | refused : Trace s p s.violations s.message
  | reported {violations : List Violation} (invalid : p = .invalid violations) :
      Trace s p violations s.message
  | saveBlocked (busy : s.isBusy = true) : Trace s p [] s.message
  | saveFailed : Trace s p [] (some p.message)
  | callFailed : Trace s p s.violations (some p.message)

theorem error_of_map_error {α β : Type} {f : α → β} {r : Except Problem α}
    (h : r.map f = .error p) : r = .error p := by
  cases r with
  | error q => exact congrArg Except.error (Except.error.inj h)
  | ok x => cases h

theorem orElse_of_map_error {α : Type} {next : Except Problem EditScreen} {f : EditScreen → α}
    (h : next.map f = .error p) : s.orElse next = s := by
  rw [error_of_map_error h]
  rfl

/-- Saving is refused, or begins on a screen that waits for nothing. -/
theorem startSave_refused_or [Recognizer] (s : EditScreen) :
    (∃ violations q, Trace s q violations s.message ∧
      s.startSave = ({ s with violations }, .error q)) ∨
    s.running = none ∧ s.mode.leaveBy .save = .ok .leave ∧
      s.startSave = ({ s with running := some .save, violations := [] },
        .ok (flatten s.editors s.record)) := by
  by_cases allowed : s.mode.allows .save = true
  · by_cases valid : s.rules.check s.record.field? = []
    · obtain waits | ⟨running, waits⟩ := Option.eq_none_or_eq_some s.running
      · refine .inr ⟨waits, ?_, ?_⟩
        · simp only [Mode.leaveBy, Mode.ensure, if_pos allowed]
          rfl
        · simp [startSave, Mode.ensure, allowed, valid, start, waits]
      · refine .inl ⟨[], .busy running.name, .saveBlocked (by rw [isBusy, waits]; rfl), ?_⟩
        simp [startSave, Mode.ensure, allowed, valid, start, waits]
    · refine .inl ⟨_, .invalid (s.rules.check s.record.field?), .reported rfl, ?_⟩
      simp [startSave, Mode.ensure, allowed, valid]
  · refine .inl ⟨_, .notAllowed .save s.mode, .refused, ?_⟩
    rw [startSave, Mode.ensure, if_neg allowed]

/-- A screen that still waits for an answer makes no other call. -/
theorem start_of_busy {running : Action} (busy : s.running = some running) (a : Action) :
    s.start a = .error (.busy running.name) := by
  rw [start, busy]

theorem startChangeStatus_refused_or (s : EditScreen) (status : String) :
    (∃ q, s.startChangeStatus status = .error q) ∨
    s.running = none ∧ s.startChangeStatus status =
      .ok ({ s with running := some .changeStatus }, s.record.withStatus status) := by
  obtain waits | ⟨running, waits⟩ := Option.eq_none_or_eq_some s.running
  · obtain refused | ⟨_, _, _, started⟩ := Session.startChangeStatus_cases waits status
    · exact .inl refused
    · exact .inr ⟨waits, started⟩
  · left
    rw [startChangeStatus, start_of_busy waits]
    cases s.mode.ensure .changeStatus with
    | error q => exact ⟨q, rfl⟩
    | ok _ => cases s.identify "change status of" <;> exact ⟨_, rfl⟩

theorem startDelete_refused_or (s : EditScreen) :
    (∃ q, s.startDelete = .error q) ∨
    s.running = none ∧ ∃ id, s.startDelete = .ok ({ s with running := some .delete }, id) := by
  obtain waits | ⟨running, waits⟩ := Option.eq_none_or_eq_some s.running
  · obtain refused | ⟨id, _, _, started⟩ := Session.startDelete_cases waits
    · exact .inl refused
    · exact .inr ⟨waits, id, started⟩
  · left
    rw [startDelete, start_of_busy waits]
    cases s.mode.ensure .delete with
    | error q => exact ⟨q, rfl⟩
    | ok _ => cases s.identify "delete" <;> exact ⟨_, rfl⟩

theorem failed_save [Recognizer] (answer : Except Problem Record)
    (failed : s.outcome (.save answer) = .error p) :
    ∃ violations message, Trace s p violations message ∧
      s.act (.save answer) = { s with violations, message } := by
  obtain ⟨violations, q, trace, refused⟩ | ⟨idle, leaves, started⟩ := s.startSave_refused_or
  · simp only [outcome, refused] at failed
    cases failed
    refine ⟨violations, s.message, trace, ?_⟩
    simp only [act, refused]
  · cases answer with
    | error q =>
      simp only [outcome, started, finishSave] at failed
      cases failed
      refine ⟨[], some p.message, .saveFailed, ?_⟩
      simp only [act, started, finishSave, stop, ← idle]
    | ok record =>
      simp only [outcome, started, finishSave, leaves] at failed
      cases failed

theorem failed_changeStatus [Recognizer] (status : String) (answer : Except Problem Record)
    (failed : s.outcome (.changeStatus status answer) = .error p) :
    ∃ violations message, Trace s p violations message ∧
      s.act (.changeStatus status answer) = { s with violations, message } := by
  obtain ⟨q, refused⟩ | ⟨idle, started⟩ := s.startChangeStatus_refused_or status
  · refine ⟨s.violations, s.message, .refused, ?_⟩
    simp only [act, refused]
  · cases answer with
    | error q =>
      simp only [outcome, started, finishChangeStatus] at failed
      cases failed
      refine ⟨s.violations, some p.message, .callFailed, ?_⟩
      simp only [act, started, finishChangeStatus, stop, ← idle]
    | ok record =>
      simp only [outcome, started, finishChangeStatus] at failed
      cases failed

theorem failed_delete [Recognizer] (answer : Except Problem Unit)
    (failed : s.outcome (.delete answer) = .error p) :
    ∃ violations message, Trace s p violations message ∧
      s.act (.delete answer) = { s with violations, message } := by
  obtain ⟨q, refused⟩ | ⟨idle, id, started⟩ := s.startDelete_refused_or
  · refine ⟨s.violations, s.message, .refused, ?_⟩
    simp only [act, refused]
  · cases answer with
    | error q =>
      simp only [outcome, started, finishDelete] at failed
      cases failed
      refine ⟨s.violations, some p.message, .callFailed, ?_⟩
      simp only [act, started, finishDelete, stop, ← idle]
    | ok done =>
      simp only [outcome, started, finishDelete] at failed
      cases failed

/-- A failed act changes no more than the message and the violations. -/
theorem failed_act [Recognizer] (failed : s.outcome a = .error p) :
    ∃ violations message, Trace s p violations message ∧
      s.act a = { s with violations, message } := by
  cases a with
  | edit f | editLinks name f | startEditing | duplicate =>
    exact ⟨s.violations, s.message, .refused, orElse_of_map_error failed⟩
  | cancel =>
    refine ⟨s.violations, s.message, .refused, ?_⟩
    simp only [act, error_of_map_error failed]
    rfl
  | save answer => exact failed_save answer failed
  | changeStatus status answer => exact failed_changeStatus status answer failed
  | delete answer => exact failed_delete answer failed

/-! ## Trying again -/

/-- What the service is asked does not hang on what an act before left to be read. -/
theorem call?_ignores [Recognizer] (s : EditScreen) (violations : List Violation)
    (message : Option String) (a : Act) :
    ({ s with violations, message } : EditScreen).call? a = s.call? a := by
  cases a with
  | save answer =>
    simp only [call?, startSave, start]
    cases s.mode.ensure .save with
    | error p => rfl
    | ok _ =>
      dsimp only
      split
      · rfl
      · cases s.running <;> rfl
  | changeStatus status answer =>
    simp only [call?, startChangeStatus, start, identify]
    cases s.mode.ensure .changeStatus <;> cases s.record.id <;> cases s.running <;> rfl
  | delete answer =>
    simp only [call?, startDelete, start, identify]
    cases s.mode.ensure .delete <;> cases s.record.id <;> cases s.running <;> rfl
  | edit f | editLinks name f | startEditing | duplicate | cancel => rfl

/-- However often acts fail, the screen is left as it was but for its message and violations. -/
theorem failed_run [Recognizer] {acts : List Act} (failed : s.Fails acts) :
    ∃ violations message, s.run acts = { s with violations, message } := by
  induction acts generalizing s with
  | nil => exact ⟨s.violations, s.message, rfl⟩
  | cons a rest ih =>
    obtain ⟨⟨p, first⟩, later⟩ := failed
    obtain ⟨violations, message, _, left⟩ := failed_act first
    obtain ⟨last, word, ends⟩ := ih later
    refine ⟨last, word, ?_⟩
    rw [run, List.foldl_cons]
    rw [left] at ends ⊢
    exact ends

/-! ## Calls that are given up -/

/-- An act whose call, if it makes one, is given up before it is answered. -/
def abandon [Recognizer] (s : EditScreen) : Act → EditScreen
  | .save _ => s.startSave.1
  | .changeStatus status _ => (s.startChangeStatus status).toOption.elim s (·.1)
  | .delete _ => s.startDelete.toOption.elim s (·.1)
  | a => s.act a

inductive Turn where
  | finished (a : Act)
  | abandoned (a : Act)

def turn [Recognizer] (s : EditScreen) : Turn → EditScreen
  | .finished a => s.act a
  | .abandoned a => s.abandon a

def after [Recognizer] (s : EditScreen) (turns : List Turn) : EditScreen := turns.foldl turn s

/-- Also on a screen that still waits, an act does one of the things that are listed. -/
theorem step_of_act [Recognizer] (s : EditScreen) (a : Act) : Step s a (s.act a) := by
  cases a with
  | edit f => exact step_edit s f
  | editLinks name f => exact step_editLinks s name f
  | startEditing => exact step_startEditing s
  | duplicate => exact step_duplicate s
  | cancel => exact step_cancel s
  | save answer =>
    obtain ⟨violations, q, _, refused⟩ | ⟨idle, _⟩ := s.startSave_refused_or
    · simp only [act, refused]
      exact .same _ violations s.message
    · exact step_save idle answer
  | changeStatus status answer =>
    obtain ⟨q, refused⟩ | ⟨idle, _⟩ := s.startChangeStatus_refused_or status
    · simp only [act, refused]
      exact .unchanged s _
    · exact step_changeStatus idle status answer
  | delete answer =>
    obtain ⟨q, refused⟩ | ⟨idle, _⟩ := s.startDelete_refused_or
    · simp only [act, refused]
      exact .unchanged s _
    · exact step_delete idle answer

/-- A screen waits after an act that ended just if it did before. -/
theorem running_act [Recognizer] (s : EditScreen) (a : Act) : (s.act a).running = s.running := by
  have step := step_of_act s a
  generalize s.act a = left at step ⊢
  cases step <;> rfl

/-- Giving up an act that makes no call is to do it; else the screen goes on to wait. -/
theorem abandon_cases [Recognizer] (s : EditScreen) (a : Act) : s.abandon a = s.act a ∨
    ∃ running violations, s.abandon a = { s with running, violations } := by
  cases a with
  | save answer =>
    obtain ⟨violations, q, _, refused⟩ | ⟨_, _, started⟩ := s.startSave_refused_or
    · exact .inr ⟨s.running, violations, by simp only [abandon, refused]⟩
    · exact .inr ⟨some .save, [], by simp only [abandon, started]⟩
  | changeStatus status answer =>
    obtain ⟨q, refused⟩ | ⟨_, started⟩ := s.startChangeStatus_refused_or status
    · exact .inr ⟨s.running, s.violations, by simp only [abandon, refused]; rfl⟩
    · exact .inr ⟨some .changeStatus, s.violations, by simp only [abandon, started]; rfl⟩
  | delete answer =>
    obtain ⟨q, refused⟩ | ⟨_, id, started⟩ := s.startDelete_refused_or
    · exact .inr ⟨s.running, s.violations, by simp only [abandon, refused]; rfl⟩
    · exact .inr ⟨some .delete, s.violations, by simp only [abandon, started]; rfl⟩
  | edit f | editLinks name f | startEditing | duplicate | cancel => exact .inl rfl

def Turn.asked : Turn → Act
  | .finished a | .abandoned a => a

/-- What every step keeps that may be asked, and does not hang on what the screen waits for or
reports, holds after any turns. -/
theorem kept_after [Recognizer] {P : EditScreen → Prop} {allowed : Act → Prop}
    (ignores : ∀ s running violations, P s → P { s with running, violations })
    (step : ∀ s a s', allowed a → P s → Step s a s' → P s') (holds : P s) {turns : List Turn}
    (asked : ∀ t ∈ turns, allowed t.asked) : P (s.after turns) := by
  refine List.foldlRecOn (motive := P) turns turn holds ?_
  intro u hu t given
  cases t with
  | finished a => exact step u a _ (asked _ given) hu (step_of_act u a)
  | abandoned a =>
    rcases abandon_cases u a with done | ⟨running, violations, waits⟩
    · rw [turn, done]
      exact step u a _ (asked _ given) hu (step_of_act u a)
    · rw [turn, waits]
      exact ignores u running violations hu

/-- A screen waits after a call was given up, if there was one. -/
theorem isBusy_abandon [Recognizer] (s : EditScreen) (a : Act) :
    (s.abandon a).isBusy = true ↔ s.isBusy = true ∨ s.call? a ≠ none := by
  cases a with
  | save answer =>
    obtain ⟨violations, q, _, refused⟩ | ⟨idle, _, started⟩ := s.startSave_refused_or
    · simp [abandon, call?, refused, isBusy, Except.toOption]
    · simp [abandon, call?, started, isBusy, Except.toOption]
  | changeStatus status answer =>
    obtain ⟨q, refused⟩ | ⟨idle, started⟩ := s.startChangeStatus_refused_or status
    · simp [abandon, call?, refused, isBusy, Except.toOption]
    · simp [abandon, call?, started, isBusy, Except.toOption]
  | delete answer =>
    obtain ⟨q, refused⟩ | ⟨idle, id, started⟩ := s.startDelete_refused_or
    · simp [abandon, call?, refused, isBusy, Except.toOption]
    · simp [abandon, call?, started, isBusy, Except.toOption]
  | edit f | editLinks name f | startEditing | duplicate | cancel =>
    simp only [abandon, call?, isBusy, running_act, ne_eq, not_true_eq_false, or_false]

theorem isBusy_turn [Recognizer] (s : EditScreen) (t : Turn) :
    (s.turn t).isBusy = true ↔
      s.isBusy = true ∨ ∃ a, t = .abandoned a ∧ s.call? a ≠ none := by
  cases t with
  | finished a => simp [turn, isBusy, running_act]
  | abandoned a => simp [turn, isBusy_abandon]

/-- Once a call was given up, a screen waits for ever. -/
theorem isBusy_after [Recognizer] (s : EditScreen) (turns : List Turn) :
    (s.after turns).isBusy = true ↔ s.isBusy = true ∨
      ∃ before a rest, turns = before ++ .abandoned a :: rest ∧
        (s.after before).call? a ≠ none := by
  induction turns generalizing s with
  | nil => simp [after]
  | cons t rest ih =>
    rw [after, List.foldl_cons, ← after, ih, isBusy_turn]
    constructor
    · rintro ((busy | ⟨a, rfl, called⟩) | ⟨before, a, others, rfl, called⟩)
      · exact .inl busy
      · exact .inr ⟨[], a, rest, rfl, called⟩
      · exact .inr ⟨t :: before, a, others, rfl, called⟩
    · rintro (busy | ⟨before, a, others, split, called⟩)
      · exact .inl (.inl busy)
      · cases before with
        | nil =>
          cases split
          exact .inl (.inr ⟨a, rfl, called⟩)
        | cons first before =>
          cases split
          exact .inr ⟨before, a, others, rfl, called⟩

/-- However a screen came up and whatever was done to it, also where calls were given up before they
were answered: an act that fails leaves the screen as it was but for a message and violations; after
any number of failures the service is asked, by every act, for what it would have been asked before.
The screen waits for nothing unless a call was given up. -/
theorem spared_along_run [Recognizer] {begin : EditScreen} (opened : Opened begin)
    (turns : List Turn) :
    let s := begin.after turns
    (∀ a p, s.outcome a = .error p → ∃ violations message, Trace s p violations message ∧
      s.act a = { s with violations, message }) ∧
    (∀ failing, s.Fails failing →
      (∃ violations message, s.run failing = { s with violations, message }) ∧
      ∀ a, (s.run failing).call? a = s.call? a) ∧
    (s.isBusy = true ↔ ∃ before a rest, turns = before ++ .abandoned a :: rest ∧
      (begin.after before).call? a ≠ none) := by
  intro s
  have idle : ¬ begin.isBusy = true := by
    rw [isBusy, opened.orderly.idle]
    decide
  refine ⟨fun a p => failed_act, ?many, ?waits⟩
  case many =>
    intro failing failed
    obtain ⟨violations, message, left⟩ := failed_run failed
    refine ⟨⟨violations, message, left⟩, fun a => ?_⟩
    rw [left]
    exact call?_ignores s violations message a
  case waits =>
    rw [isBusy_after, or_iff_right idle]

/-- The role gets another name and loses a privilege. -/
def revision : List Act :=
  [.startEditing, .edit (renamedTo "Controller"),
    .editLinks "privileges" fun e => (e.strike (.ofNat 1)).1]

theorem opened_viewedRole : Opened viewedRole :=
  @Opened.view "role" viewedRole.rules ["privileges", "users"] (.ofNat 7)
    (.ok viewedRole.persisted) viewedRole rfl

/-- The service fails twice, and what cannot be done while editing is tried in between. The save is
then asked for with the new name and both links, tags included. -/
theorem spared_of_renamed_role :
    let s := viewedRole.after (revision.map .finished)
    let failing := [.save (.error (.offline "save")), .delete (.ok ()), .startEditing,
      .save (.error (.offline "save"))]
    s.Fails failing ∧
      (s.run failing).message = some "save failed: connection refused" ∧
      (s.run failing).record.field? "name" = some (.text "Controller") ∧
      (s.run failing).call? (.save (.error .closed)) =
        some (.save ((renamedTo "Controller" viewedRole.record).withLinks "privileges"
          [⟨Session.grant 1, .deleted⟩, ⟨Session.grant 2, .kept⟩])) := by
  intro s failing
  have fails : s.Fails failing := ⟨⟨_, rfl⟩, ⟨_, rfl⟩, ⟨_, rfl⟩, ⟨_, rfl⟩, trivial⟩
  obtain ⟨_, many, _⟩ := spared_along_run opened_viewedRole (revision.map .finished)
  obtain ⟨_, again⟩ := many failing fails
  refine ⟨fails, rfl, rfl, ?_⟩
  rw [again]
  rfl

/-- A deletion is given up. The screen goes on to wait for it, also after the mode has refused
another act. -/
theorem busy_after_abandoned :
    let s := viewedRole.after [.abandoned (.delete (.ok ()))]
    Opened viewedRole ∧ s.outcome (.save (.error .closed)) = .error (.notAllowed .save .viewing) ∧
      (s.act (.save (.error .closed))).isBusy = true :=
  ⟨opened_viewedRole, rfl, rfl⟩

end BackOffice.Screen.EditScreen
