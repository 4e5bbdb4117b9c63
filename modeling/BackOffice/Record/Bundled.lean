import BackOffice.Record.Basic

/-!
# The records of a back office

Privileges are granted to roles, roles to users and groups; accounts have contacts.
-/
namespace BackOffice.Schema

def privilege : Schema :=
  ⟨"privilege", "privileges", [("name", .text), ("description", .optionalText)], []⟩

def user : Schema :=
  ⟨"user", "users", [("login", .text), ("name", .text), ("email", .text)], []⟩

def role : Schema :=
  ⟨"role", "roles", [("name", .text), ("description", .optionalText)],
    [("privileges", privilege), ("users", user)]⟩

def group : Schema :=
  ⟨"group", "groups", [("name", .text), ("description", .optionalText)], [("roles", role)]⟩

def contact : Schema :=
  ⟨"contact", "contacts",
    [("name", .text), ("email", .text), ("phone", .optionalText), ("account", .optionalUuid)], []⟩

def account : Schema :=
  ⟨"account", "accounts",
    [("name", .text), ("email", .optionalText), ("phone", .optionalText)], [("contacts", contact)]⟩

/-- The schemas of all records that are at hand without a definition of their own. -/
def bundled : List Schema := [privilege, user, role, group, contact, account]

/-- A new record with an active status; fields that are not given keep their initial values. -/
def create (s : Schema) (values : String → Option Field.Value) : Record :=
  let r := Record.blank s
  { r with
    status := Record.activeStatus
    values := r.values.map fun (name, v) => (name, (values name).getD v) }

end BackOffice.Schema
