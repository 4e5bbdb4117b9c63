import BackOffice.Backend
import BackOffice.Proofs.Association.Editing
import BackOffice.Screen.Edit

/-!
# Sessions of a record screen

A record screen and the backend that it calls, as long as nobody else writes to that. Calls are made
as a whole here: while one is under way the screen takes no other act, so nothing can come between
its halves. The connection may go down and come back at any time.

A call that fails, on either side of the connection, leaves a message and violations and nothing
else; `Submitted` and the lemmas on outcomes say so for each of the three calls.
-/
namespace BackOffice.Screen

open BackOffice.Association
open BackOffice.Field (Recognizer)

/-- A change to the fields of a record that leaves its identifier alone. It may write anything to
the links, since the editors have the last word on them, but it cannot change which ones there are. -/
structure FieldEdit where
  apply : Record → Record
  id : ∀ r, (apply r).id = r.id
  names : ∀ r, (apply r).links.map (·.1) = r.links.map (·.1)

structure Session where
  screen : EditScreen
  backend : Backend

namespace Session

inductive Act where
  | connection (reachable : Bool)
  | edit (f : FieldEdit)
  | editLinks (name : String) (e : Association.Edit Record Uuid)
  | startEditing
  | duplicate
  | cancel
  | save (fresh : Uuid)
  | changeStatus (fresh : Uuid) (status : String)
  | delete

/-- Saving, from the check to the backend's answer. -/
def save [Recognizer] (t : Session) (fresh : Uuid) : Session × Except Problem Navigation :=
  match t.screen.startSave with
  | (checked, .error p) => ({ t with screen := checked }, .error p)
  | (started, .ok record) =>
    let (backend, answer) := t.backend.save fresh record
    let (screen, result) := started.finishSave answer
    (⟨screen, backend⟩, result)

def changeStatus (t : Session) (fresh : Uuid) (status : String) :
    Session × Except Problem Navigation :=
  match t.screen.startChangeStatus status with
  | .error p => (t, .error p)
  | .ok (started, record) =>
    let (backend, answer) := t.backend.save fresh record
    let (screen, result) := started.finishChangeStatus answer
    (⟨screen, backend⟩, result)

def delete (t : Session) : Session × Except Problem Navigation :=
  match t.screen.startDelete with
  | .error p => (t, .error p)
  | .ok (started, id) =>
    let (backend, answer) := t.backend.delete id
    let (screen, result) := started.finishDelete answer
    (⟨screen, backend⟩, result)

/-- The session after an act that concerns the screen alone, if it is not refused. -/
def show? (t : Session) (screen : Except Problem EditScreen) : Session :=
  screen.toOption.elim t fun screen => { t with screen }

def act [Recognizer] (t : Session) : Act → Session
  | .connection reachable => { t with backend := { t.backend with reachable } }
  | .edit f => t.show? (t.screen.edit f.apply)
  | .editLinks name e => t.show? (t.screen.editLinks name fun s => s.edit e)
  | .startEditing => t.show? t.screen.startEditing
  | .duplicate => t.show? t.screen.duplicate
  | .cancel => t.show? (t.screen.cancel.map (·.1))
  | .save fresh => (t.save fresh).1
  | .changeStatus fresh status => (t.changeStatus fresh status).1
  | .delete => t.delete.1

def run [Recognizer] (t : Session) (acts : List Act) : Session := acts.foldl act t

/-! ## Outcomes of calls -/

variable {t : Session}

/-- What became of a call that submits a record: it failed and left no more than a message and
violations, or the screen shows what is stored now. -/
inductive Submitted (t : Session) (record : Record) (fresh : Uuid) :
    Session × Except Problem Navigation → Prop
  | failed (violations : List Violation) (message : Option String) (p : Problem) :
      Submitted t record fresh
        (⟨{ t.screen with running := none, violations, message }, t.backend⟩, .error p)
  | stored {next : Repository} {saved : Record} (violations : List Violation) (n : Navigation)
      (reachable : t.backend.reachable = true)
      (save : t.backend.repository.save fresh record = .ok (next, saved)) :
      Submitted t record fresh
        (⟨EditScreen.showSaved { t.screen with running := none, violations, message := none } saved,
          ⟨next, t.backend.reachable⟩⟩, .ok n)

/-- The backend fails and stays as it is, or stores the record. -/
theorem backend_save_cases (b : Backend) (fresh : Uuid) (record : Record) :
    (∃ p, b.save fresh record = (b, .error p)) ∨
      ∃ next saved, b.reachable = true ∧ b.repository.save fresh record = .ok (next, saved) ∧
        b.save fresh record = (⟨next, b.reachable⟩, .ok saved) := by
  rw [Backend.save, Backend.ensure]
  by_cases reachable : b.reachable = true
  · rw [if_pos reachable]
    cases save : b.repository.save fresh record with
    | error p => exact .inl ⟨p, rfl⟩
    | ok stored => exact .inr ⟨stored.1, stored.2, reachable, rfl, rfl⟩
  · rw [if_neg reachable]
    exact .inl ⟨_, rfl⟩

theorem backend_delete_cases (b : Backend) (id : Uuid) :
    (∃ p, b.delete id = (b, .error p)) ∨
      b.delete id = ({ b with repository :=
        { b.repository with records := b.repository.records.erase id } }, .ok ()) := by
  rw [Backend.delete, Backend.ensure, Repository.delete]
  by_cases reachable : b.reachable = true
  · rw [if_pos reachable]
    by_cases known : b.repository.records.contains id = true
    · rw [if_pos known]
      exact .inr rfl
    · rw [if_neg known]
      exact .inl ⟨_, rfl⟩
  · rw [if_neg reachable]
    exact .inl ⟨_, rfl⟩

theorem startSave_cases [Recognizer] {s : EditScreen} (idle : s.running = none) :
    (∃ violations p, s.startSave = ({ s with violations }, .error p)) ∨
      s.mode.allows .save = true ∧ s.rules.check s.record.field? = [] ∧ s.startSave =
        ({ s with running := some .save, violations := [] },
          .ok (EditScreen.flatten s.editors s.record)) := by
  rw [EditScreen.startSave, Mode.ensure]
  by_cases allowed : s.mode.allows .save = true
  · rw [if_pos allowed]
    by_cases valid : s.rules.check s.record.field? = []
    · refine .inr ⟨allowed, valid, ?_⟩
      simp [valid, EditScreen.start, idle]
    · refine .inl ⟨s.rules.check s.record.field?, .invalid (s.rules.check s.record.field?), ?_⟩
      simp [valid]
  · rw [if_neg allowed]
    exact .inl ⟨s.violations, _, rfl⟩

theorem startChangeStatus_cases {s : EditScreen} (idle : s.running = none) (status : String) :
    (∃ p, s.startChangeStatus status = .error p) ∨
      ∃ id, s.mode.allows .changeStatus = true ∧ s.record.id = some id ∧
        s.startChangeStatus status =
          .ok ({ s with running := some .changeStatus }, s.record.withStatus status) := by
  rw [EditScreen.startChangeStatus, Mode.ensure, EditScreen.identify, EditScreen.start, idle]
  by_cases allowed : s.mode.allows .changeStatus = true
  · cases s.record.id with
    | none =>
      rw [if_pos allowed]
      exact .inl ⟨_, rfl⟩
    | some id =>
      rw [if_pos allowed]
      exact .inr ⟨id, allowed, rfl, rfl⟩
  · rw [if_neg allowed]
    exact .inl ⟨_, rfl⟩

theorem startDelete_cases {s : EditScreen} (idle : s.running = none) :
    (∃ p, s.startDelete = .error p) ∨
      ∃ id, s.mode.allows .delete = true ∧ s.record.id = some id ∧
        s.startDelete = .ok ({ s with running := some .delete }, id) := by
  rw [EditScreen.startDelete, Mode.ensure, EditScreen.identify, EditScreen.start, idle]
  by_cases allowed : s.mode.allows .delete = true
  · cases s.record.id with
    | none =>
      rw [if_pos allowed]
      exact .inl ⟨_, rfl⟩
    | some id =>
      rw [if_pos allowed]
      exact .inr ⟨id, allowed, rfl, rfl⟩
  · rw [if_neg allowed]
    exact .inl ⟨_, rfl⟩

theorem save_cases [Recognizer] (idle : t.screen.running = none) (fresh : Uuid) :
    Submitted t (EditScreen.flatten t.screen.editors t.screen.record) fresh (t.save fresh) := by
  obtain ⟨violations, p, refused⟩ | ⟨allowed, _, started⟩ := startSave_cases idle
  · have failed : Submitted t (EditScreen.flatten t.screen.editors t.screen.record) fresh
        (⟨{ t.screen with running := none, violations }, t.backend⟩, .error p) :=
      .failed violations t.screen.message p
    rw [← idle] at failed
    rw [save, refused]
    exact failed
  · have leaves : t.screen.mode.leaveBy .save = .ok .leave := by
      rw [Mode.leaveBy, Mode.ensure, if_pos allowed]
      rfl
    rw [save, started]
    obtain ⟨p, failed⟩ | ⟨next, saved, reachable, stored, answered⟩ :=
      backend_save_cases t.backend fresh (EditScreen.flatten t.screen.editors t.screen.record)
    · simp only [failed]
      exact .failed _ _ p
    · simp only [answered, EditScreen.finishSave, leaves]
      exact .stored _ .leave reachable stored

theorem changeStatus_cases (idle : t.screen.running = none) (fresh : Uuid) (status : String) :
    Submitted t (t.screen.record.withStatus status) fresh (t.changeStatus fresh status) := by
  obtain ⟨p, refused⟩ | ⟨_, _, _, started⟩ := startChangeStatus_cases idle status
  · have failed : Submitted t (t.screen.record.withStatus status) fresh
        (⟨{ t.screen with running := none }, t.backend⟩, .error p) :=
      .failed t.screen.violations t.screen.message p
    rw [← idle] at failed
    rw [changeStatus, refused]
    exact failed
  · rw [changeStatus, started]
    obtain ⟨p, failed⟩ | ⟨next, saved, reachable, stored, answered⟩ :=
      backend_save_cases t.backend fresh (t.screen.record.withStatus status)
    · simp only [failed]
      exact .failed _ _ p
    · simp only [answered, EditScreen.finishChangeStatus]
      exact .stored _ .stay reachable stored

theorem delete_cases (idle : t.screen.running = none) :
    (∃ message, t.delete.1 = ⟨{ t.screen with running := none, message }, t.backend⟩) ∨
      ∃ id, t.delete.1 = ⟨{ t.screen with running := none, message := none },
        { t.backend with repository :=
          { t.backend.repository with records := t.backend.repository.records.erase id } }⟩ := by
  obtain ⟨p, refused⟩ | ⟨id, _, _, started⟩ := startDelete_cases idle
  · refine .inl ⟨t.screen.message, ?_⟩
    rw [delete, refused, ← idle]
  · rw [delete, started]
    obtain ⟨p, failed⟩ | deleted := backend_delete_cases t.backend id
    · simp only [failed]
      exact .inl ⟨_, rfl⟩
    · simp only [deleted]
      exact .inr ⟨id, rfl⟩

end Session

end BackOffice.Screen
