import BackOffice.OrderedMap
import BackOffice.Problem
import BackOffice.Text.Blank
import BackOffice.Yaml.Reading
import BackOffice.Yaml.Writer

/-!
# Preferences of a user

JSON values by key. They last as long as the program, or are kept in a file as a YAML mapping. The
file is written anew on every change, before memory changes, so that after a failed write both are
as they were. How the mapping is written is left to a file format, because nothing here depends on
the choice of quotes and line breaks.
-/
namespace BackOffice

abbrev Preferences := OrderedMap String Json

namespace Preferences

def ofYaml? (n : Yaml.Node) : Option Preferences := do
  let entries ← n.textEntries?
  let pairs ← entries.mapM fun (key, value) => value.toJson?.map fun j => (key, j)
  some (OrderedMap.ofList pairs)

/-- How preferences are written to a file, and what a text in a file is read as. -/
class FileFormat where
  write : Preferences → String
  read? : String → Option Preferences

/-- A YAML mapping whose texts are all quoted. -/
instance FileFormat.quoted : FileFormat where
  write p := Yaml.writeMap p.entries
  read? s := (Yaml.Node.ofText? s).bind ofYaml?

/-- The content of a file that keeps the preferences. -/
def text [FileFormat] (p : Preferences) : String := FileFormat.write p

/-- The preferences that a file of the given content keeps; a blank one keeps none. -/
def ofText? [FileFormat] (s : String) : Option Preferences :=
  if Text.isBlank s then some .empty else FileFormat.read? s

def unreadable : Problem := .misconfigured "preferences cannot be read"

def unwritable : Problem := .misconfigured "preferences cannot be written"

end Preferences

/-- A place for a file: what it holds, if there is a file, and whether it can be written. -/
structure Medium where
  content : Option String
  writable : Bool

namespace Medium

def write (m : Medium) (s : String) : Except Problem Medium :=
  if m.writable then .ok { m with content := some s } else .error Preferences.unwritable

/-- The preferences in the file; none while there is no file. -/
def read [Preferences.FileFormat] (m : Medium) : Except Problem Preferences :=
  match m.content with
  | none => .ok .empty
  | some s =>
    match Preferences.ofText? s with
    | some p => .ok p
    | none => .error Preferences.unreadable

/-- The place is gone with everything in it. -/
def lost : Medium := ⟨none, false⟩

end Medium

/-- Preferences in memory, together with the file that keeps them. -/
structure KeptPreferences where
  entries : Preferences
  file : Medium

namespace KeptPreferences

variable [Preferences.FileFormat]

def openAt (file : Medium) : Except Problem KeptPreferences :=
  file.read.map fun entries => ⟨entries, file⟩

/-- Takes over new entries once they have been written. -/
def keep (k : KeptPreferences) (entries : Preferences) : KeptPreferences × Except Problem Unit :=
  match k.file.write entries.text with
  | .ok file => (⟨entries, file⟩, .ok ())
  | .error p => (k, .error p)

def get? (k : KeptPreferences) (key : String) : Option Json := k.entries.get? key

def set (k : KeptPreferences) (key : String) (value : Json) :
    KeptPreferences × Except Problem Unit :=
  k.keep (k.entries.insert key value)

/-- Removes a key and answers what it held. For a key that is not there nothing is written. -/
def remove (k : KeptPreferences) (key : String) :
    KeptPreferences × Except Problem (Option Json) :=
  match k.entries.get? key with
  | none => (k, .ok none)
  | some previous =>
    let (k, answer) := k.keep (k.entries.erase key)
    (k, answer.map fun _ => some previous)

end KeptPreferences

end BackOffice
