import BackOffice.Settings.Basic

/-!
# The settings of the bundled records

What holds where no other settings are given.
-/
namespace BackOffice.Settings

open BackOffice.Field

def atMost (n : UInt64) (r : Rule) : Rule := { r with maxLength := some n }

def atLeast (n : UInt64) (r : Rule) : Rule := { r with minLength := some n }

def formatted (f : Format) (r : Rule) : Rule := { r with format := some f }

/-- The name and the description of what a role or a group is. -/
def labelRules : Ruleset :=
  ⟨[("name", atLeast 2 (atMost 64 .mandatory)), ("description", atMost 255 .free)]⟩

def privilegeRules : Ruleset :=
  ⟨[("name", formatted (.custom "^[A-Z][A-Z0-9_]*$") (atMost 64 .mandatory)),
    ("description", atMost 255 .free)]⟩

def userRules : Ruleset :=
  ⟨[("login", atLeast 3 (atMost 32 .mandatory)), ("name", atMost 128 .mandatory),
    ("email", formatted .email .mandatory)]⟩

def accountRules : Ruleset :=
  ⟨[("name", atMost 128 .mandatory), ("email", formatted .email .free),
    ("phone", formatted .phone .free)]⟩

def contactRules : Ruleset :=
  ⟨[("name", atMost 128 .mandatory), ("email", formatted .email .mandatory),
    ("phone", formatted .phone .free)]⟩

def bundled : Settings :=
  { empty with
    rules :=
      ⟨[("privilege", privilegeRules), ("role", labelRules), ("group", labelRules),
        ("user", userRules), ("account", accountRules), ("contact", contactRules)]⟩
    links :=
      [⟨"role", "privilege", "privileges", some "Privileges granted by a role"⟩,
        ⟨"role", "user", "users", some "Users holding a role"⟩,
        ⟨"group", "role", "roles", some "Roles granted to a group"⟩,
        ⟨"account", "contact", "contacts", some "Contacts of an account"⟩] }

end BackOffice.Settings
