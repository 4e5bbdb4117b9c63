/-!
# Modes of a record screen

A record is viewed, edited, or being created. What the user may do follows from the mode alone:
viewing offers the ways into another state, editing and creating the ways out.
-/
namespace BackOffice

inductive Mode where
  | viewing
  | creating
  | editing
deriving DecidableEq

inductive Action where
  | edit
  | save
  | cancel
  | delete
  | duplicate
  | changeStatus
deriving DecidableEq

/-- Where the user goes after an action. -/
inductive Navigation where
  | stay
  | leave
deriving DecidableEq

namespace Mode

def name : Mode → String
  | viewing => "VIEW"
  | creating => "CREATE"
  | editing => "EDIT"

def ofName? (s : String) : Option Mode := [viewing, creating, editing].find? (·.name == s)

/-- The fields of the record can be changed. -/
def isEditable : Mode → Bool
  | viewing => false
  | creating | editing => true

def allows (m : Mode) (a : Action) : Bool :=
  match a with
  | .save | .cancel => m.isEditable
  | .edit | .delete | .duplicate | .changeStatus => !m.isEditable

end Mode

namespace Action

def name : Action → String
  | edit => "edit"
  | save => "save"
  | cancel => "cancel"
  | delete => "delete"
  | duplicate => "duplicate"
  | changeStatus => "change status"

/-- The word by which a client asks for an action. -/
def token : Action → String
  | changeStatus => "change_status"
  | a => a.name

def ofToken? (s : String) : Option Action :=
  [edit, save, cancel, delete, duplicate, changeStatus].find? (·.token == s)

end Action

def Navigation.name : Navigation → String
  | stay => "stay"
  | leave => "leave"

end BackOffice
