import BackOffice.Preferences.Basic

/-!
# Layout of the screens

Preferences of either kind as one store, and the layout that is remembered in them: whether the side
navigation is open, which it is unless the user closed it.
-/
namespace BackOffice

inductive PreferenceStore where
  | inMemory (entries : Preferences)
  | inFile (kept : KeptPreferences)

namespace PreferenceStore

variable [Preferences.FileFormat]

def get? : PreferenceStore → String → Option Json
  | inMemory entries, key => entries.get? key
  | inFile kept, key => kept.get? key

def set (s : PreferenceStore) (key : String) (value : Json) :
    PreferenceStore × Except Problem Unit :=
  match s with
  | inMemory entries => (inMemory (entries.insert key value), .ok ())
  | inFile kept =>
    let (kept, answer) := kept.set key value
    (inFile kept, answer)

def remove (s : PreferenceStore) (key : String) :
    PreferenceStore × Except Problem (Option Json) :=
  match s with
  | inMemory entries => (inMemory (entries.erase key), .ok (entries.get? key))
  | inFile kept =>
    let (kept, answer) := kept.remove key
    (inFile kept, answer)

/-- The store as the next run of the program finds it. -/
def reopen : PreferenceStore → Except Problem PreferenceStore
  | inMemory _ => .ok (inMemory .empty)
  | inFile kept => (KeptPreferences.openAt kept.file).map inFile

/-- The store after its file was lost with the place it stood in. -/
def loseFile : PreferenceStore → PreferenceStore
  | inMemory entries => inMemory entries
  | inFile kept => inFile { kept with file := .lost }

/-! ## Layout -/

def navigationKey : String := "layout.sidenav_open"

def isNavigationOpen (s : PreferenceStore) : Bool :=
  ((s.get? navigationKey).bind Json.bool?).getD true

def setNavigation (s : PreferenceStore) (isOpen : Bool) : PreferenceStore × Except Problem Unit :=
  s.set navigationKey (.bool isOpen)

/-- Opens or closes the side navigation and answers which it is now. -/
def toggleNavigation (s : PreferenceStore) : PreferenceStore × Except Problem Bool :=
  let isOpen := !s.isNavigationOpen
  let (s, answer) := s.setNavigation isOpen
  (s, answer.map fun _ => isOpen)

end PreferenceStore

end BackOffice
