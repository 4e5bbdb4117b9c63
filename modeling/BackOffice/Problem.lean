import BackOffice.Mode
import BackOffice.Query.Fault
import BackOffice.Rules

/-!
# Problems

Everything that can go wrong in a back office, with the sentence the user reads, and the code and
status under which it is answered to a client.
-/
namespace BackOffice

inductive Problem where
  | unreachable (operation cause : String)
  | invalid (violations : List Violation)
  /-- The record has no identifier yet. -/
  | unsaved (resource operation : String)
  | notAllowed (action : Action) (mode : Mode)
  | badQuery (fault : Query.Fault)
  | unknownRecord (resource : String) (id : Uuid)
  /-- The same operation is still under way. -/
  | busy (operation : String)
  | closed
  | misconfigured (cause : String)
  | defect (cause : String)
deriving DecidableEq

namespace Problem

def message : Problem → String
  | unreachable operation cause => operation ++ " failed: " ++ cause
  | invalid violations =>
    "validation failed: " ++ ", ".intercalate (violations.map (·.message))
  | unsaved resource operation =>
    "cannot " ++ operation ++ " " ++ resource ++ ": record has not been saved yet"
  | notAllowed action mode => "cannot " ++ action.name ++ " in " ++ mode.name ++ " mode"
  | badQuery fault => fault.message
  | unknownRecord resource id => resource ++ " with id '" ++ id.text ++ "' not found"
  | busy operation => operation ++ " is already in progress"
  | closed => "screen has been closed"
  | misconfigured cause => "configuration error: " ++ cause
  | defect cause => "internal error: " ++ cause

def code : Problem → String
  | unreachable .. => "TRANSPORT_ERROR"
  | invalid _ => "VALIDATION_ERROR"
  | unsaved .. => "MISSING_IDENTIFIER"
  | notAllowed .. => "ILLEGAL_ACTION"
  | badQuery _ => "INVALID_QUERY"
  | unknownRecord .. => "NOT_FOUND"
  | busy _ => "BUSY"
  | closed => "SCREEN_CLOSED"
  | misconfigured _ => "CONFIG_ERROR"
  | defect _ => "INTERNAL_ERROR"

def status : Problem → Nat
  | unreachable .. => 502
  | invalid _ => 422
  | unsaved .. => 400
  | notAllowed .. => 409
  | badQuery _ => 400
  | unknownRecord .. => 404
  | busy _ => 409
  | closed => 410
  | misconfigured _ => 500
  | defect _ => 500

/-- What a client is told beyond the sentence. -/
def details? : Problem → Option Json
  | invalid violations => some (.obj [("violations", .arr (violations.map Violation.toJson))])
  | unknownRecord resource id => some (.obj [("resource", .str resource), ("id", .str id.text)])
  | _ => none

/-- The body of the answer to a client. -/
def toJson (p : Problem) : Json :=
  let details :=
    match p.details? with
    | some j => [("details", j)]
    | none => []
  .obj <| [("code", .str p.code), ("message", .str p.message)] ++ details

/-- A call to a backend that cannot be reached. -/
def offline (operation : String) : Problem := unreachable operation "connection refused"

end Problem

namespace Mode

def ensure (m : Mode) (a : Action) : Except Problem Unit :=
  if m.allows a then .ok () else .error (.notAllowed a m)

/-- From viewing to editing. -/
def toEdit (m : Mode) : Except Problem Mode := (m.ensure .edit).map fun _ => editing

/-- From viewing to creating a copy. -/
def toDuplicate (m : Mode) : Except Problem Mode := (m.ensure .duplicate).map fun _ => creating

/-- Saving and cancelling leave the screen. -/
def leaveBy (m : Mode) (a : Action) : Except Problem Navigation :=
  (m.ensure a).map fun _ => .leave

end Mode

end BackOffice
