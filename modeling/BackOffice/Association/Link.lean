import BackOffice.OrderedMap

/-!
# Links and what to do with them

A link attaches a target to its owner and carries what is to be done with it when the owner is
saved. The stored side settles a list of submitted links against the list it holds: it keeps what it
has, adds what is created, drops what is deleted and refreshes what is updated.
-/
namespace BackOffice.Association

inductive Tag where
  | kept
  | created
  | updated
  | deleted
  | statusChanged
deriving DecidableEq

namespace Tag

def token : Tag → String
  | kept => "NONE"
  | created => "CREATE"
  | updated => "UPDATE"
  | deleted => "DELETE"
  | statusChanged => "CHANGE_STATUS"

def ofToken? (s : String) : Option Tag :=
  [kept, created, updated, deleted, statusChanged].find? (·.token == s)

end Tag

structure Link (α : Type) where
  target : α
  tag : Tag
deriving DecidableEq

namespace Link

variable {α κ : Type}

/-- A link that is stored as it is. -/
def stored (a : α) : Link α := ⟨a, .kept⟩

def isDeleted (l : Link α) : Bool := l.tag == .deleted

/-- The key of a link is that of its target. -/
def key (keyOf : α → κ) (l : Link α) : κ := keyOf l.target

end Link

variable {α κ : Type} [DecidableEq κ]

/-- What one submitted link does to the stored targets. -/
def settleOne (keyOf : α → κ) (targets : OrderedMap κ α) (l : Link α) : OrderedMap κ α :=
  let k := keyOf l.target
  match l.tag with
  | .created => if targets.contains k then targets else targets.insert k l.target
  | .deleted => targets.erase k
  | .updated | .statusChanged => if targets.contains k then targets.insert k l.target else targets
  | .kept => targets

/-- The links that are stored once submitted ones have been settled. -/
def settle (keyOf : α → κ) (previous submitted : List (Link α)) : List (Link α) :=
  let targets := OrderedMap.ofList (previous.map fun l => (keyOf l.target, l.target))
  (submitted.foldl (settleOne keyOf) targets).values.map Link.stored

/-- The links that a copy of their owner has to create. -/
def forCopy {α : Type} (links : List (Link α)) : List (Link α) :=
  (links.filter (!·.isDeleted)).map fun l => { l with tag := .created }

end BackOffice.Association
