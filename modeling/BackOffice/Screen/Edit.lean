import BackOffice.Association.Sync
import BackOffice.Problem
import BackOffice.Query.Page
import BackOffice.Record.Document

/-!
# Record screens

A screen that shows one record together with an editor for each of its associations. A call to the
backend is made in two halves: one that checks the action and says what to ask, and one that takes
the answer. Between them the screen is loading and refuses other calls. An answer that is a failure
leaves everything but the message as it was.
-/
namespace BackOffice.Screen

open BackOffice.Association
open BackOffice.Field (Recognizer)

/-- An editor of links between records. -/
abbrev Editor := Sync Record.key

structure EditScreen where
  resource : String
  rules : Ruleset
  mode : Mode
  record : Record
  /-- The record as it is stored; none for one that is being created. -/
  persisted : Option Record
  editors : List (String × Editor)
  /-- The action whose call is under way. -/
  running : Option Action
  message : Option String
  violations : List Violation

namespace EditScreen

def mapEditors (f : String → Editor → Editor) (editors : List (String × Editor)) :
    List (String × Editor) :=
  editors.map fun (name, e) => (name, f name e)

/-- Every editor takes over the links of a stored record. -/
def loadEditors (editors : List (String × Editor)) (r : Record) : List (String × Editor) :=
  mapEditors (fun name e => e.takeStored (r.linksOf name)) editors

/-- Every editor takes over the links of an unsaved record, with their tags. -/
def resumeEditors (editors : List (String × Editor)) (r : Record) : List (String × Editor) :=
  mapEditors (fun name e => e.takeDraft (r.linksOf name)) editors

def emptyEditors (names : List String) : List (String × Editor) :=
  names.map fun name => (name, .empty)

/-- The record with the links of every editor, as they have to be submitted. -/
def flatten (editors : List (String × Editor)) (r : Record) : Record :=
  editors.foldl (fun r (name, e) => r.withLinks name e.links) r

def editorsPending (s : EditScreen) : Bool := s.editors.any fun (_, e) => e.isPending

/-- Shows a stored record, given the backend's answer to a call for it. -/
def view (resource : String) (rules : Ruleset) (names : List String) (id : Uuid)
    (answer : Except Problem (Option Record)) : Except Problem EditScreen :=
  match answer with
  | .error p => .error p
  | .ok none => .error (.unknownRecord resource id)
  | .ok (some r) =>
    .ok ⟨resource, rules, .viewing, r, some r, loadEditors (emptyEditors names) r, none, none, []⟩

/-- Starts a record that is to be created. -/
def create (resource : String) (rules : Ruleset) (names : List String) (r : Record) : EditScreen :=
  ⟨resource, rules, .creating, r, none, resumeEditors (emptyEditors names) r, none, none, []⟩

def isBusy (s : EditScreen) : Bool := s.running.isSome

/-- Whether there are edits that were not saved. While editing, records are compared as documents. -/
def hasEdits (s : EditScreen) : Bool :=
  match s.mode with
  | .viewing => false
  | .creating => true
  | .editing =>
    s.editorsPending ||
      match s.persisted with
      | some p => !p.toJson.agrees s.record.toJson
      | none => true

/-! ## Editing -/

def ensureEnabled (s : EditScreen) : Except Problem Unit :=
  if s.mode.isEditable then .ok () else .error (.notAllowed .edit s.mode)

/-- Changes the fields of the record. -/
def edit (s : EditScreen) (f : Record → Record) : Except Problem EditScreen :=
  s.ensureEnabled.map fun _ => { s with record := f s.record }

/-- Changes the association of a name. -/
def editLinks (s : EditScreen) (name : String) (f : Editor → Editor) : Except Problem EditScreen :=
  s.ensureEnabled.map fun _ =>
    { s with editors := mapEditors (fun n e => if n = name then f e else e) s.editors }

def startEditing (s : EditScreen) : Except Problem EditScreen :=
  s.mode.toEdit.map fun mode => { s with mode }

/-- Turns the record that is viewed into an unsaved copy. -/
def duplicate (s : EditScreen) : Except Problem EditScreen :=
  s.mode.toDuplicate.map fun mode =>
    let copy := s.record.forCopy
    { s with mode, record := copy, persisted := none, editors := resumeEditors s.editors copy }

/-- Drops what was not saved. What was stored before is viewed again. -/
def cancel (s : EditScreen) : Except Problem (EditScreen × Navigation) :=
  (s.mode.leaveBy .cancel).map fun navigation =>
    match s.persisted with
    | some p =>
      ({ s with
          editors := loadEditors s.editors p
          record := p
          mode := .viewing
          violations := [] },
        navigation)
    | none => ({ s with violations := [] }, navigation)

/-! ## Calls -/

/-- Marks an action as under way, unless another one is. -/
def start (s : EditScreen) (a : Action) : Except Problem EditScreen :=
  match s.running with
  | some running => .error (.busy running.name)
  | none => .ok { s with running := some a }

/-- Ends the action under way; a failure leaves its message. -/
def stop {α : Type} (s : EditScreen) (answer : Except Problem α) : EditScreen :=
  match answer with
  | .ok _ => { s with running := none, message := none }
  | .error p => { s with running := none, message := some p.message }

/-- Shows a record as the backend stored it. -/
def showSaved (s : EditScreen) (saved : Record) : EditScreen :=
  { s with
    editors := loadEditors s.editors saved
    persisted := some saved
    record := saved
    mode := .viewing }

/-- The first half of saving: violations are reported without a call, else the record is to be
submitted with the links of its editors. -/
def startSave [Recognizer] (s : EditScreen) : EditScreen × Except Problem Record :=
  match s.mode.ensure .save with
  | .error p => (s, .error p)
  | .ok _ =>
    let violations := s.rules.check s.record.field?
    let checked := { s with violations }
    if !violations.isEmpty then (checked, .error (.invalid violations))
    else
      match checked.start .save with
      | .error p => (checked, .error p)
      | .ok started => (started, .ok (flatten s.editors s.record))

/-- The second half of saving. -/
def finishSave (s : EditScreen) (answer : Except Problem Record) :
    EditScreen × Except Problem Navigation :=
  let stopped := s.stop answer
  match answer with
  | .error p => (stopped, .error p)
  | .ok saved =>
    match s.mode.leaveBy .save with
    | .error p => (stopped, .error p)
    | .ok navigation => (stopped.showSaved saved, .ok navigation)

/-- The identifier of the record for an action that needs one. -/
def identify (s : EditScreen) (operation : String) : Except Problem Uuid :=
  match s.record.id with
  | some id => .ok id
  | none => .error (.unsaved s.resource operation)

/-- The first half of deleting, with the identifier to delete. -/
def startDelete (s : EditScreen) : Except Problem (EditScreen × Uuid) := do
  s.mode.ensure .delete
  let id ← s.identify "delete"
  let started ← s.start .delete
  return (started, id)

def finishDelete (s : EditScreen) (answer : Except Problem Unit) :
    EditScreen × Except Problem Navigation :=
  (s.stop answer, answer.map fun _ => .leave)

/-- The first half of changing the status, with the record to submit. Its associations are submitted
as they were last stored. -/
def startChangeStatus (s : EditScreen) (status : String) : Except Problem (EditScreen × Record) := do
  s.mode.ensure .changeStatus
  let _ ← s.identify "change status of"
  let started ← s.start .changeStatus
  return (started, s.record.withStatus status)

def finishChangeStatus (s : EditScreen) (answer : Except Problem Record) :
    EditScreen × Except Problem Navigation :=
  let stopped := s.stop answer
  match answer with
  | .error p => (stopped, .error p)
  | .ok saved => (stopped.showSaved saved, .ok .stay)

end EditScreen

end BackOffice.Screen
