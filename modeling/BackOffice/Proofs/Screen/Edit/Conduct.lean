import BackOffice.Proofs.Screen.Edit.Saving

/-!
# Conduct of a record screen

Whatever the user does, and whatever the service answers, a record screen keeps to its modes. After
each act it waits for nothing, it creates exactly while there is no stored record behind it, and what
it views is that record with nothing pending. Fields and associations change while editing or
creating only, and the service is asked for nothing that the mode or the rules forbid.

No backend is assumed here. An act that may call the service comes with the answer that it would
get, so whatever holds of all acts holds for every service.
-/
namespace BackOffice.Screen

open BackOffice.Field (Recognizer)

namespace EditScreen

/-- What the user does. A change to the record or to an editor may be any at all. -/
inductive Act where
  | edit (f : Record → Record)
  | editLinks (name : String) (f : Editor → Editor)
  | startEditing
  | duplicate
  | cancel
  | save (answer : Except Problem Record)
  | changeStatus (status : String) (answer : Except Problem Record)
  | delete (answer : Except Problem Unit)

/-- What the service is asked. -/
inductive Call where
  | save (record : Record)
  | delete (id : Uuid)

/-- The call that an act leads to, unless it is refused or concerns the screen alone. -/
def call? [Recognizer] (s : EditScreen) : Act → Option Call
  | .save _ => s.startSave.2.toOption.map .save
  | .changeStatus status _ => (s.startChangeStatus status).toOption.map fun started => .save started.2
  | .delete _ => s.startDelete.toOption.map fun started => .delete started.2
  | _ => none

/-- An act that concerns the screen alone leaves it as it was when it is refused. -/
def orElse (s : EditScreen) (next : Except Problem EditScreen) : EditScreen :=
  next.toOption.getD s

def act [Recognizer] (s : EditScreen) : Act → EditScreen
  | .edit f => s.orElse (s.edit f)
  | .editLinks name f => s.orElse (s.editLinks name f)
  | .startEditing => s.orElse s.startEditing
  | .duplicate => s.orElse s.duplicate
  | .cancel => s.orElse (s.cancel.map (·.1))
  | .save answer =>
    match s.startSave with
    | (checked, .error _) => checked
    | (started, .ok _) => (started.finishSave answer).1
  | .changeStatus status answer =>
    match s.startChangeStatus status with
    | .error _ => s
    | .ok (started, _) => (started.finishChangeStatus answer).1
  | .delete answer =>
    match s.startDelete with
    | .error _ => s
    | .ok (started, _) => (started.finishDelete answer).1

def run [Recognizer] (s : EditScreen) (acts : List Act) : EditScreen := acts.foldl act s

/-- How a screen comes up: on the record that the service answered, or on any that is to be
created. -/
inductive Opened : EditScreen → Prop
  | view {resource : String} {rules : Ruleset} {names : List String} {id : Uuid}
      {answer : Except Problem (Option Record)} {s : EditScreen}
      (shown : view resource rules names id answer = .ok s) : Opened s
  | create (resource : String) (rules : Ruleset) (names : List String) (record : Record) :
      Opened (create resource rules names record)

/-! ## One act -/

variable {s : EditScreen}

/-- All that an act can do to a screen that waits for nothing. -/
inductive Step (s : EditScreen) : Act → EditScreen → Prop
  | same (a : Act) (violations : List Violation) (message : Option String) :
      Step s a { s with violations, message }
  | edited (f : Record → Record) (enabled : s.mode ≠ .viewing) :
      Step s (.edit f) { s with record := f s.record }
  | linksEdited (name : String) (f : Editor → Editor) (enabled : s.mode ≠ .viewing) :
      Step s (.editLinks name f)
        { s with editors := mapEditors (fun n e => if n = name then f e else e) s.editors }
  | editing (viewing : s.mode = .viewing) : Step s .startEditing { s with mode := .editing }
  | copied (viewing : s.mode = .viewing) :
      Step s .duplicate { s with
        mode := .creating
        record := s.record.forCopy
        persisted := none
        editors := resumeEditors s.editors s.record.forCopy }
  | restored {p : Record} (persisted : s.persisted = some p) (enabled : s.mode ≠ .viewing) :
      Step s .cancel { s with
        editors := loadEditors s.editors p
        record := p
        mode := .viewing
        violations := [] }
  | saved (record : Record) (enabled : s.mode ≠ .viewing) :
      Step s (.save (.ok record)) (showSaved { s with violations := [], message := none } record)
  | statusChanged (status : String) (record : Record) (viewing : s.mode = .viewing) :
      Step s (.changeStatus status (.ok record)) (showSaved { s with message := none } record)

theorem Step.unchanged (s : EditScreen) (a : Act) : Step s a s := .same a s.violations s.message

theorem step_orElse {a : Act} {next : Except Problem EditScreen}
    (done : ∀ s', next = .ok s' → Step s a s') : Step s a (s.orElse next) := by
  cases result : next with
  | error p => exact .unchanged s a
  | ok s' => exact done s' result

theorem step_edit [Recognizer] (s : EditScreen) (f : Record → Record) :
    Step s (.edit f) (s.act (.edit f)) := by
  refine step_orElse fun s' edited => ?_
  obtain ⟨enabled, rfl⟩ := Session.ok_of_ensureEnabled edited
  exact .edited f enabled

theorem step_editLinks [Recognizer] (s : EditScreen) (name : String) (f : Editor → Editor) :
    Step s (.editLinks name f) (s.act (.editLinks name f)) := by
  refine step_orElse fun s' edited => ?_
  obtain ⟨enabled, rfl⟩ := Session.ok_of_ensureEnabled edited
  exact .linksEdited name f enabled

theorem step_startEditing [Recognizer] (s : EditScreen) :
    Step s .startEditing (s.act .startEditing) := by
  refine step_orElse fun s' started => ?_
  obtain ⟨viewing, rfl⟩ := Session.of_startEditing started
  exact .editing viewing

theorem step_duplicate [Recognizer] (s : EditScreen) : Step s .duplicate (s.act .duplicate) := by
  refine step_orElse fun s' copied => ?_
  obtain ⟨viewing, rfl⟩ := Session.of_duplicate copied
  exact .copied viewing

theorem step_cancel [Recognizer] (s : EditScreen) : Step s .cancel (s.act .cancel) := by
  obtain ⟨resource, rules, mode, record, persisted, editors, running, message, violations⟩ := s
  cases mode with
  | viewing => exact .unchanged _ _
  | creating | editing =>
    cases persisted with
    | none => exact .same _ [] message
    | some p => exact .restored rfl nofun

theorem allows_save_iff {m : Mode} : m.allows .save = true ↔ m ≠ .viewing := by
  cases m <;> decide

theorem allows_delete_iff {m : Mode} : m.allows .delete = true ↔ m = .viewing := by
  cases m <;> decide

theorem step_save [Recognizer] (idle : s.running = none) (answer : Except Problem Record) :
    Step s (.save answer) (s.act (.save answer)) := by
  obtain ⟨violations, p, refused⟩ | ⟨allowed, _, started⟩ := Session.startSave_cases idle
  · simp only [act, refused]
    exact .same _ violations s.message
  · have leaves : s.mode.leaveBy .save = .ok .leave := by
      simp only [Mode.leaveBy, Mode.ensure, if_pos allowed]
      rfl
    cases answer with
    | error p =>
      simp only [act, started, finishSave, stop, ← idle]
      exact .same _ [] (some p.message)
    | ok record =>
      simp only [act, started, finishSave, stop, leaves, ← idle]
      exact .saved record (allows_save_iff.mp allowed)

theorem step_changeStatus [Recognizer] (idle : s.running = none) (status : String)
    (answer : Except Problem Record) :
    Step s (.changeStatus status answer) (s.act (.changeStatus status answer)) := by
  obtain ⟨p, refused⟩ | ⟨id, allowed, _, started⟩ := Session.startChangeStatus_cases idle status
  · simp only [act, refused]
    exact .unchanged s _
  · cases answer with
    | error p =>
      simp only [act, started, finishChangeStatus, stop, ← idle]
      exact .same _ s.violations (some p.message)
    | ok record =>
      simp only [act, started, finishChangeStatus, stop, ← idle]
      exact .statusChanged status record (allows_delete_iff.mp allowed)

theorem step_delete [Recognizer] (idle : s.running = none) (answer : Except Problem Unit) :
    Step s (.delete answer) (s.act (.delete answer)) := by
  obtain ⟨p, refused⟩ | ⟨id, _, _, started⟩ := Session.startDelete_cases idle
  · simp only [act, refused]
    exact .unchanged s _
  · cases answer with
    | error p =>
      simp only [act, started, finishDelete, stop, ← idle]
      exact .same _ s.violations (some p.message)
    | ok done =>
      simp only [act, started, finishDelete, stop, ← idle]
      exact .same _ s.violations none

/-- An act that is answered at all does one of the things that are listed. -/
theorem step_act [Recognizer] (idle : s.running = none) (a : Act) : Step s a (s.act a) := by
  cases a with
  | edit f => exact step_edit s f
  | editLinks name f => exact step_editLinks s name f
  | startEditing => exact step_startEditing s
  | duplicate => exact step_duplicate s
  | cancel => exact step_cancel s
  | save answer => exact step_save idle answer
  | changeStatus status answer => exact step_changeStatus idle status answer
  | delete answer => exact step_delete idle answer

/-! ## Calls to the service -/

theorem field?_flatten (editors : List (String × Editor)) (r : Record) (name : String) :
    (flatten editors r).field? name = r.field? name := by
  simp only [flatten_eq_foldl]
  rfl

/-- What the service may be asked by a screen with certain rules: to save a record that breaks none
of them, while it is edited or created; to save one that is viewed with another status, or to delete
it, if it has an identifier. -/
inductive Warranted [Recognizer] (rules : Ruleset) (s : EditScreen) : Act → Call → Prop
  | save {record : Record} (answer : Except Problem Record) (enabled : s.mode ≠ .viewing)
      (valid : rules.check record.field? = []) : Warranted rules s (.save answer) (.save record)
  | changeStatus {id : Uuid} (status : String) (answer : Except Problem Record)
      (viewing : s.mode = .viewing) (own : s.record.id = some id) :
      Warranted rules s (.changeStatus status answer) (.save (s.record.withStatus status))
  | delete {id : Uuid} (answer : Except Problem Unit) (viewing : s.mode = .viewing)
      (own : s.record.id = some id) : Warranted rules s (.delete answer) (.delete id)

theorem warranted_of_call? [Recognizer] (idle : s.running = none) {a : Act} {c : Call}
    (called : s.call? a = some c) : Warranted s.rules s a c := by
  cases a with
  | save answer =>
    obtain ⟨violations, p, refused⟩ | ⟨allowed, valid, started⟩ := Session.startSave_cases idle
    · simp [call?, refused, Except.toOption] at called
    · simp only [call?, started, Except.toOption, Option.map_some, Option.some.injEq] at called
      subst called
      refine .save answer (allows_save_iff.mp allowed) ?_
      simpa only [funext (field?_flatten s.editors s.record)] using valid
  | changeStatus status answer =>
    obtain ⟨p, refused⟩ | ⟨id, allowed, own, started⟩ :=
      Session.startChangeStatus_cases idle status
    · simp [call?, refused, Except.toOption] at called
    · simp only [call?, started, Except.toOption, Option.map_some, Option.some.injEq] at called
      subst called
      exact .changeStatus status answer (allows_delete_iff.mp allowed) own
  | delete answer =>
    obtain ⟨p, refused⟩ | ⟨id, allowed, own, started⟩ := Session.startDelete_cases idle
    · simp [call?, refused, Except.toOption] at called
    · simp only [call?, started, Except.toOption, Option.map_some, Option.some.injEq] at called
      subst called
      exact .delete answer (allows_delete_iff.mp allowed) own
  | edit f | editLinks name f | startEditing | duplicate | cancel => cases called

/-! ## All acts -/

/-- What holds of a screen with certain rules between acts. -/
structure Orderly (rules : Ruleset) (s : EditScreen) : Prop where
  rules : s.rules = rules
  idle : s.running = none
  creating_iff : s.mode = .creating ↔ s.persisted = none
  viewed : s.mode = .viewing → s.persisted = some s.record ∧ s.editorsPending = false

theorem Opened.orderly (opened : Opened s) : Orderly s.rules s := by
  cases opened with
  | @view resource rules names id answer s shown =>
    match answer with
    | .error p => cases shown
    | .ok none => cases shown
    | .ok (some r) =>
      cases shown
      exact ⟨rfl, rfl, by simp, fun _ => ⟨rfl, Session.editorsPending_of_loaded rfl⟩⟩
  | create resource rules names record => exact ⟨rfl, rfl, by simp [EditScreen.create], nofun⟩

theorem Orderly.step {rules : Ruleset} (h : Orderly rules s) {a : Act} {s' : EditScreen}
    (step : Step s a s') : Orderly rules s' := by
  cases step with
  | same violations message => exact ⟨h.rules, h.idle, h.creating_iff, h.viewed⟩
  | edited f enabled | linksEdited name f enabled =>
    exact ⟨h.rules, h.idle, h.creating_iff, fun viewing => absurd viewing enabled⟩
  | editing viewing =>
    have known := (h.viewed viewing).1
    exact ⟨h.rules, h.idle, by simp [known], nofun⟩
  | copied viewing => exact ⟨h.rules, h.idle, by simp, nofun⟩
  | restored persisted enabled =>
    exact ⟨h.rules, h.idle, by simp [persisted], fun _ =>
      ⟨persisted, Session.editorsPending_of_loaded rfl⟩⟩
  | saved record enabled | statusChanged status record viewing =>
    exact ⟨h.rules, h.idle, by simp [showSaved], fun _ => ⟨rfl, Session.editorsPending_of_loaded rfl⟩⟩

theorem Orderly.run [Recognizer] {rules : Ruleset} (h : Orderly rules s) (acts : List Act) :
    Orderly rules (s.run acts) := by
  refine List.foldlRecOn acts act h ?_
  intro t orderly a _
  exact orderly.step (step_act orderly.idle a)

theorem edit_ok_iff (f : Record → Record) : (∃ s', s.edit f = .ok s') ↔ s.mode ≠ .viewing := by
  simp only [edit, ensureEnabled]
  cases s.mode <;> simp [Mode.isEditable, Except.map]

theorem editLinks_ok_iff (name : String) (f : Editor → Editor) :
    (∃ s', s.editLinks name f = .ok s') ↔ s.mode ≠ .viewing := by
  simp only [editLinks, ensureEnabled]
  cases s.mode <;> simp [Mode.isEditable, Except.map]

/-- However a screen came up, whatever was done to it and whatever the service answered: it waits for
nothing, it creates exactly while it knows no stored record, and what it views is the stored record,
with nothing pending or edited. The record and the editors can be changed exactly while they are not
viewed; while they are, nothing but starting a copy or the record that the service answers to a
change of status replaces them. Editing starts from viewing only, and what the service is asked is
warranted by the mode and by the rules of the screen. -/
theorem conduct_along_run [Recognizer] {begin : EditScreen} (opened : Opened begin)
    (acts : List Act) :
    let s := begin.run acts
    s.isBusy = false ∧
    (s.mode = .creating ↔ s.persisted = none) ∧
    (s.mode = .viewing →
      s.persisted = some s.record ∧ s.editorsPending = false ∧ s.hasEdits = false) ∧
    (∀ f, (∃ s', s.edit f = .ok s') ↔ s.mode ≠ .viewing) ∧
    (∀ name f, (∃ s', s.editLinks name f = .ok s') ↔ s.mode ≠ .viewing) ∧
    (∀ a, s.mode = .viewing →
      (s.act a).record = s.record ∧ (s.act a).editors = s.editors ∨
        a = .duplicate ∨ ∃ status saved, a = .changeStatus status (.ok saved)) ∧
    (∀ a, (s.act a).mode = .editing →
      s.mode = .editing ∨ s.mode = .viewing ∧ a = .startEditing) ∧
    ∀ a c, s.call? a = some c → Warranted begin.rules s a c := by
  intro s
  have h : Orderly begin.rules s := opened.orderly.run acts
  refine ⟨by simp [isBusy, h.idle], h.creating_iff, ?_, edit_ok_iff, editLinks_ok_iff, ?_, ?_, ?_⟩
  · intro viewing
    obtain ⟨known, settled⟩ := h.viewed viewing
    exact ⟨known, settled, by simp [hasEdits, viewing]⟩
  · intro a viewing
    have step := step_act h.idle a
    generalize s.act a = after at step ⊢
    cases step with
    | same | editing => exact .inl ⟨rfl, rfl⟩
    | copied => exact .inr (.inl rfl)
    | statusChanged status record => exact .inr (.inr ⟨status, record, rfl⟩)
    | edited f enabled | linksEdited name f enabled | restored persisted enabled
    | saved record enabled => exact absurd viewing enabled
  · intro a editing
    have step := step_act h.idle a
    generalize s.act a = after at step editing
    cases step with
    | editing viewing => exact .inr ⟨viewing, rfl⟩
    | same | edited | linksEdited => exact .inl editing
    | copied | restored | saved | statusChanged => cases editing
  · intro a c called
    exact h.rules ▸ warranted_of_call? h.idle called

/-- A role of two privileges under the rule that it has a name. -/
def viewedRole : EditScreen :=
  let role := Session.draftedRole.withId (.ofNat 7)
  ⟨"role", ⟨[("name", .mandatory)]⟩, .viewing, role, some role,
    loadEditors (emptyEditors ["privileges", "users"]) role, none, none, []⟩

def renamedTo (name : String) (r : Record) : Record :=
  { r with values := [("name", .text name), ("description", .null)] }

/-- The role loses its name, which the rule does not let pass, then gets another one and loses a
privilege; the service fails, then stores what it is given, then refuses another status. -/
def rework : List Act :=
  let stored := (renamedTo "Controller" (Session.draftedRole.withId (.ofNat 7))).withLinks
    "privileges" [.stored (Session.grant 2)]
  [.startEditing, .edit (renamedTo " "), .save (.ok stored), .edit (renamedTo "Controller"),
    .editLinks "privileges" fun e => (e.strike (.ofNat 1)).1, .save (.error (.offline "save")),
    .save (.ok stored), .changeStatus "disabled" (.error (.offline "save"))]

theorem conduct_of_renamed_role :
    let nameless := viewedRole.run (rework.take 2)
    let s := viewedRole.run rework
    nameless.call? (.save (.ok nameless.record)) = none ∧
      s.mode = .viewing ∧ s.record.field? "name" = some (.text "Controller") ∧
      s.message = some "save failed: connection refused" ∧
      s.isBusy = false ∧ s.persisted = some s.record ∧ s.editorsPending = false ∧
      s.call? (.delete (.ok ())) = some (.delete (.ofNat 7)) ∧
      Warranted viewedRole.rules s (.delete (.ok ())) (.delete (.ofNat 7)) := by
  intro nameless s
  have opened : Opened viewedRole :=
    @Opened.view "role" viewedRole.rules ["privileges", "users"] (.ofNat 7)
      (.ok viewedRole.persisted) viewedRole rfl
  obtain ⟨idle, _, viewed, _, _, _, _, warranted⟩ := conduct_along_run opened rework
  have viewing : s.mode = .viewing := rfl
  have called : s.call? (.delete (.ok ())) = some (.delete (.ofNat 7)) := rfl
  obtain ⟨known, settled, _⟩ := viewed viewing
  exact ⟨rfl, viewing, rfl, rfl, idle, known, settled, called, warranted _ _ called⟩

end EditScreen

end BackOffice.Screen
