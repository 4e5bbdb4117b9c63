import BackOffice.Proofs.Association.Checking
import BackOffice.Proofs.Screen.Edit.Failing

/-!
# Canceling on a record screen

What a screen views is stored: its record, and in each editor the links that this record has, all of
them kept. To cancel is to load the stored record once more. As long as no save succeeds the screen
knows the same stored record under the same associations, so what was done since editing began is
taken back as a whole, however much it was and whatever the editors were left with.
-/
namespace BackOffice.Screen

open BackOffice.Association
open BackOffice.Field (Recognizer)

namespace EditScreen

variable {s : EditScreen} {a : Act}

/-- The links of each editor under their keys, in order and with their tags. -/
def memberships (editors : List (String × Editor)) :
    List (String × OrderedMap Uuid (Link Record)) :=
  editors.map fun (name, e) => (name, e.membership.items)

/-! ## What is viewed -/

/-- A record that is viewed is the stored one, and the editors have just its links. -/
def ShowsStored (s : EditScreen) : Prop :=
  s.mode = .viewing →
    s.persisted = some s.record ∧ ∃ before, s.editors = loadEditors before s.record

theorem Opened.showsStored (opened : Opened s) : s.ShowsStored := by
  cases opened with
  | @view resource rules names id answer s shown =>
    match answer with
    | .error p => cases shown
    | .ok none => cases shown
    | .ok (some r) =>
      cases shown
      exact fun _ => ⟨rfl, _, rfl⟩
  | create => exact nofun

theorem ShowsStored.step (h : s.ShowsStored) {s' : EditScreen} (step : Step s a s') :
    s'.ShowsStored := by
  cases step with
  | same violations message => exact h
  | edited f enabled | linksEdited name f enabled => exact fun viewing => absurd viewing enabled
  | editing | copied => exact nofun
  | restored persisted enabled => exact fun _ => ⟨persisted, _, rfl⟩
  | saved | statusChanged => exact fun _ => ⟨rfl, _, rfl⟩

theorem Opened.showsStored_after [Recognizer] (opened : Opened s) (turns : List Turn) :
    (s.after turns).ShowsStored := by
  have step (t : EditScreen) (a : Act) (t' : EditScreen) (_ : True) (h : t.ShowsStored)
      (step : Step t a t') : t'.ShowsStored := h.step step
  exact kept_after (fun _ _ _ h => h) step opened.showsStored fun _ _ => trivial

/-! ## Going back to it -/

/-- The links that editors take over do not hang on what they had before. -/
theorem memberships_loadEditors {editors others : List (String × Editor)}
    (same : editors.map (·.1) = others.map (·.1)) (p : Record) :
    memberships (loadEditors editors p) = memberships (loadEditors others p) := by
  have told (l : List (String × Editor)) : memberships (loadEditors l p) = (l.map (·.1)).map
      fun name => (name, ((Sync.empty : Editor).takeStored (p.linksOf name)).membership.items) := by
    rw [memberships, loadEditors, mapEditors, List.map_map, List.map_map]
    rfl
  rw [told, told, same]

/-- A screen shows what another one viewed: the same stored record with the same links, while no
violation is reported and the checkboxes agree with the links. -/
structure Restores (viewed restored : EditScreen) : Prop where
  mode : restored.mode = .viewing
  record : restored.record = viewed.record
  persisted : restored.persisted = viewed.persisted
  memberships : memberships restored.editors = memberships viewed.editors
  violations : restored.violations = []
  inStep : ∀ x ∈ restored.editors, x.2.InStep

/-- Editing of what was viewed: the stored record and the names of the associations are the same. -/
structure Editing (viewed s : EditScreen) : Prop where
  mode : s.mode = .editing
  persisted : s.persisted = viewed.persisted
  names : s.editors.map (·.1) = viewed.editors.map (·.1)

theorem Editing.cancel {viewed : EditScreen} (h : Editing viewed s)
    (viewing : viewed.mode = .viewing) (shows : viewed.ShowsStored) :
    ∃ restored, s.cancel = .ok (restored, .leave) ∧ Restores viewed restored := by
  obtain ⟨known, before, loaded⟩ := shows viewing
  have leaves : s.mode.leaveBy .cancel = .ok .leave := by rw [h.mode]; rfl
  have persisted : s.persisted = some viewed.record := h.persisted.trans known
  refine ⟨{ s with
    editors := loadEditors s.editors viewed.record
    record := viewed.record
    mode := .viewing
    violations := [] }, ?_, rfl, rfl, h.persisted, ?_, rfl, ?_⟩
  · rw [EditScreen.cancel, leaves, persisted]
    rfl
  · have names : s.editors.map (·.1) = before.map (·.1) := by
      rw [h.names, loaded, Session.names_loadEditors]
    rw [loaded, memberships_loadEditors names]
  · intro x hx
    obtain ⟨⟨name, e⟩, _, rfl⟩ := List.mem_map.mp hx
    exact Sync.inStep_checkAttached _

/-- Editing goes on after any change of the record or of an editor, and after a refused save. -/
theorem Editing.step {viewed s' : EditScreen} (h : Editing viewed s) (step : Step s a s')
    (goesOn : (∃ f, a = .edit f) ∨ (∃ name f, a = .editLinks name f) ∨
      ∃ p, a = .save (.error p)) : Editing viewed s' := by
  cases step with
  | same | edited => exact ⟨h.mode, h.persisted, h.names⟩
  | linksEdited name f enabled =>
    refine ⟨h.mode, h.persisted, ?_⟩
    exact (names_mapEditors (fun n e => if n = name then f e else e) s.editors).trans h.names
  | editing | copied | restored | saved | statusChanged =>
    obtain ⟨_, ⟨⟩⟩ | ⟨_, _, ⟨⟩⟩ | ⟨_, ⟨⟩⟩ := goesOn

end EditScreen

namespace Session

open EditScreen

variable {t : Session}

/-- What can be done before editing is canceled. The record and the editors may change in any way;
a save goes to the backend, or a service refuses it for a reason of its own. -/
inductive Rework where
  | connection (reachable : Bool)
  | edit (f : Record → Record)
  | editLinks (name : String) (f : Editor → Editor)
  | save (fresh : Uuid)
  | refusedSave (p : Problem)

def rework [Recognizer] (t : Session) : Rework → Session
  | .connection reachable => { t with backend := { t.backend with reachable } }
  | .edit f => { t with screen := t.screen.act (.edit f) }
  | .editLinks name f => { t with screen := t.screen.act (.editLinks name f) }
  | .save fresh => (t.save fresh).1
  | .refusedSave p => { t with screen := t.screen.act (.save (.error p)) }

def reworked [Recognizer] (t : Session) (reworks : List Rework) : Session := reworks.foldl rework t

/-- No save on the way succeeds. -/
def Unsaved [Recognizer] (t : Session) : List Rework → Prop
  | [] => True
  | w :: rest =>
    (∀ fresh, w = .save fresh → ∃ p, (t.save fresh).2 = .error p) ∧ (t.rework w).Unsaved rest

/-- A save that fails leaves the backend as it is, and on the screen a message and violations. -/
theorem failed_save [Recognizer] {fresh : Uuid} {p : Problem}
    (failed : (t.save fresh).2 = .error p) :
    ∃ violations message,
      (t.save fresh).1 = ⟨{ t.screen with violations, message }, t.backend⟩ := by
  obtain ⟨violations, q, _, refused⟩ | ⟨idle, leaves, started⟩ := t.screen.startSave_refused_or
  · refine ⟨violations, t.screen.message, ?_⟩
    rw [save, refused]
  · rw [save, started] at failed ⊢
    obtain ⟨q, error⟩ | ⟨next, saved, _, _, answered⟩ :=
      backend_save_cases t.backend fresh (flatten t.screen.editors t.screen.record)
    · refine ⟨[], some q.message, ?_⟩
      simp only [error, finishSave, stop, ← idle]
    · simp only [answered, finishSave, leaves] at failed
      cases failed

theorem editing_rework [Recognizer] {viewed : EditScreen} (h : Editing viewed t.screen) {w : Rework}
    (unsaved : ∀ fresh, w = .save fresh → ∃ p, (t.save fresh).2 = .error p) :
    Editing viewed (t.rework w).screen ∧
      (t.rework w).backend.repository = t.backend.repository := by
  cases w with
  | connection reachable => exact ⟨h, rfl⟩
  | edit f => exact ⟨h.step (step_of_act _ _) (.inl ⟨f, rfl⟩), rfl⟩
  | editLinks name f => exact ⟨h.step (step_of_act _ _) (.inr (.inl ⟨name, f, rfl⟩)), rfl⟩
  | save fresh =>
    obtain ⟨p, failed⟩ := unsaved fresh rfl
    obtain ⟨violations, message, left⟩ := failed_save failed
    rw [rework, left]
    exact ⟨⟨h.mode, h.persisted, h.names⟩, rfl⟩
  | refusedSave p => exact ⟨h.step (step_of_act _ _) (.inr (.inr ⟨p, rfl⟩)), rfl⟩

theorem editing_reworked [Recognizer] {viewed : EditScreen} {reworks : List Rework}
    (h : Editing viewed t.screen) (unsaved : t.Unsaved reworks) :
    Editing viewed (t.reworked reworks).screen ∧
      (t.reworked reworks).backend.repository = t.backend.repository := by
  induction reworks generalizing t with
  | nil => exact ⟨h, rfl⟩
  | cons w rest ih =>
    obtain ⟨edited, stored⟩ := editing_rework h unsaved.1
    obtain ⟨last, same⟩ := ih edited unsaved.2
    exact ⟨last, same.trans stored⟩

/-- However a screen came up and whatever was done to it, with calls given up on the way: where it
views a record, editing can begin, and after any edits of the record and the editors and any saves
that failed, canceling brings back what was viewed. The record, the stored version and the links
with their order and tags are those of before, the checkboxes agree with them, and nothing stored
has changed. -/
theorem restored_along_run [Recognizer] {begin : EditScreen} (opened : Opened begin)
    (turns : List Turn) (viewing : (begin.after turns).mode = .viewing) (b : Backend)
    (reworks : List Rework) :
    let viewed := begin.after turns
    let editing := { viewed with mode := .editing }
    let t := reworked ⟨editing, b⟩ reworks
    viewed.startEditing = .ok editing ∧
      (Unsaved ⟨editing, b⟩ reworks →
        (∃ restored, t.screen.cancel = .ok (restored, .leave) ∧ Restores viewed restored) ∧
        t.backend.repository = b.repository) := by
  intro viewed editing t
  refine ⟨?_, fun unsaved => ?_⟩
  · have toEdit : viewed.mode.toEdit = .ok .editing := by
      rw [viewing]
      rfl
    rw [startEditing, toEdit]
    rfl
  · have begun : Editing viewed editing := ⟨rfl, rfl, rfl⟩
    obtain ⟨underway, stored⟩ := editing_reworked (t := ⟨editing, b⟩) begun unsaved
    exact ⟨underway.cancel viewing (opened.showsStored_after turns), stored⟩

/-- Three candidates for the privileges of a role are loaded before it is viewed again. -/
def offering : List Turn :=
  [.finished .startEditing,
    .finished (.editLinks "privileges" (·.offer [grant 1, grant 2, grant 3])), .finished .cancel]

/-- The role is saved without a name and then without a connection, and is refused once more. It
gets another identifier, one privilege is struck and then all that are loaded are checked. -/
def reworks : List Rework :=
  [.edit (renamedTo " "), .save (.ofNat 8), .edit (renamedTo "Controller"), .connection false,
    .save (.ofNat 8), .refusedSave .closed, .edit (·.withId (.ofNat 9)),
    .editLinks "privileges" fun e => (e.strike (.ofNat 1)).1,
    .editLinks "privileges" fun e => e.toggleAll.1,
    .editLinks "privileges" (·.offer [grant 3, grant 4])]

theorem restored_of_reworked_role :
    let b : Backend := ⟨(Repository.empty .role).insert viewedRole.record, true⟩
    let viewed := viewedRole.after offering
    let editing := { viewed with mode := .editing }
    let t := reworked ⟨editing, b⟩ reworks
    Opened viewedRole ∧ viewed.mode = .viewing ∧ Unsaved ⟨editing, b⟩ reworks ∧
      t.screen.record.id = some (.ofNat 9) ∧ t.screen.editorsPending = true ∧
      (∃ restored, t.screen.cancel = .ok (restored, .leave) ∧ Restores viewed restored) ∧
      t.backend.repository = b.repository := by
  intro b viewed editing t
  have unsaved : Unsaved ⟨editing, b⟩ reworks := by
    refine ⟨nofun, ?nameless, nofun, nofun, ?offline, nofun, nofun, nofun, nofun, nofun, trivial⟩
    all_goals
      rintro _ ⟨⟩
      exact ⟨_, rfl⟩
  obtain ⟨_, restores⟩ := restored_along_run opened_viewedRole offering rfl b reworks
  obtain ⟨canceled, stored⟩ := restores unsaved
  have renamed : t.screen.record.id = some (.ofNat 9) := by decide +kernel
  have pending : t.screen.editorsPending = true := by decide +kernel
  exact ⟨opened_viewedRole, rfl, unsaved, renamed, pending, canceled, stored⟩

end Session

end BackOffice.Screen
