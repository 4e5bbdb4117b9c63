import BackOffice.Keyed
import BackOffice.Association.Link

/-!
# Editing an association

Two lists over the same keys: a pool of candidates, of which one page is loaded and whose checkboxes
are its selection, and the membership, whose links carry what saving has to do. A click on a checkbox
or in the membership changes tags only; nothing is stored until the owner is saved.
-/
namespace BackOffice.Association

structure Sync {α κ : Type} (keyOf : α → κ) where
  pool : Keyed keyOf
  membership : Keyed (Link.key keyOf)

/-- What became of a member that was removed. -/
inductive Removal where
  | discarded
  | marked
  | restored
  | unknown
deriving DecidableEq

def Removal.name : Removal → String
  | discarded => "Discarded"
  | marked => "MarkedDeleted"
  | restored => "Restored"
  | unknown => "NotFound"

/-- How many links wait to be created, deleted and updated. -/
structure Counts where
  created : Nat
  deleted : Nat
  updated : Nat
deriving DecidableEq

def Counts.total (c : Counts) : Nat := c.created + c.deleted + c.updated

namespace Sync

variable {α κ : Type} [DecidableEq κ] {keyOf : α → κ}

def empty : Sync keyOf := ⟨.empty, .empty⟩

/-- The keys of the members that are not marked for deletion. -/
def attached (s : Sync keyOf) : List κ :=
  (s.membership.toList.filter (!·.isDeleted)).map (Link.key keyOf)

/-- Checks exactly the loaded candidates that are attached. -/
def checkAttached (s : Sync keyOf) : Sync keyOf :=
  let bare := s.pool.clearSelection.1
  { s with pool := s.attached.foldl (fun pool k => (pool.select k).1) bare }

/-- Takes over stored links: whatever their tags, they are kept. -/
def takeStored (s : Sync keyOf) (links : List (Link α)) : Sync keyOf :=
  checkAttached { s with membership := s.membership.load (links.map fun l => .stored l.target) }

/-- Takes over the links of an owner that was never saved, with their tags. -/
def takeDraft (s : Sync keyOf) (links : List (Link α)) : Sync keyOf :=
  checkAttached { s with membership := s.membership.load links }

/-- Shows another page of candidates; the membership stays. -/
def offer (s : Sync keyOf) (candidates : List α) : Sync keyOf :=
  checkAttached { s with pool := s.pool.load candidates }

def tag? (s : Sync keyOf) (k : κ) : Option Tag := (s.membership.find? k).map (·.tag)

def setTag (s : Sync keyOf) (k : κ) (tag : Tag) : Sync keyOf :=
  match s.membership.find? k with
  | some l => { s with membership := s.membership.replace k { l with tag } }
  | none => s

/-- Attaches a candidate: a new member is created, a deleted one restored. -/
def attach (s : Sync keyOf) (k : κ) (candidate : α) : Sync keyOf :=
  match s.tag? k with
  | none => { s with membership := s.membership.append ⟨candidate, .created⟩ }
  | some .deleted => s.setTag k .kept
  | some _ => s

/-- Detaches a member: one still to be created is dropped, any other marked for deletion. -/
def detach (s : Sync keyOf) (k : κ) : Sync keyOf :=
  match s.tag? k with
  | some .created => { s with membership := s.membership.remove k }
  | some .kept | some .updated | some .statusChanged => s.setTag k .deleted
  | some .deleted | none => s

def attachLoaded (s : Sync keyOf) (k : κ) : Sync keyOf :=
  match s.pool.find? k with
  | some candidate => s.attach k candidate
  | none => s

/-- Carries a change of the pool's selection over to the membership. Candidates that are not loaded
cannot be attached and are passed over. -/
def apply (s : Sync keyOf) (change : KeyChange κ) : Sync keyOf :=
  change.removed.foldl detach (change.added.foldl attachLoaded s)

/-- An operation on the pool's selection, carried over to the membership. -/
def follow (s : Sync keyOf) (result : Keyed keyOf × KeyChange κ) :
    Sync keyOf × KeyChange κ :=
  (({ s with pool := result.1 } : Sync keyOf).apply result.2, result.2)

/-- Ticks the checkbox of a candidate. -/
def check (s : Sync keyOf) (k : κ) : Sync keyOf × KeyChange κ :=
  s.follow (s.pool.select k)

def uncheck (s : Sync keyOf) (k : κ) : Sync keyOf × KeyChange κ :=
  s.follow (s.pool.deselect k)

def toggle (s : Sync keyOf) (k : κ) : Sync keyOf × KeyChange κ :=
  s.follow (s.pool.toggle k)

def toggleAll (s : Sync keyOf) : Sync keyOf × KeyChange κ :=
  s.follow s.pool.toggleAll

/-- Removal from the membership list, which a second time restores a stored member. The checkbox of
the candidate keeps step. -/
def strike (s : Sync keyOf) (k : κ) : Sync keyOf × Removal :=
  match s.tag? k with
  | none => (s, .unknown)
  | some .created =>
    (⟨(s.pool.deselect k).1, s.membership.remove k⟩, .discarded)
  | some .deleted =>
    let t := s.setTag k .kept
    ({ t with pool := (t.pool.select k).1 }, .restored)
  | some _ =>
    let t := s.setTag k .deleted
    ({ t with pool := (t.pool.deselect k).1 }, .marked)

def isCreated (s : Sync keyOf) (k : κ) : Bool := s.tag? k == some .created

def isDeleted (s : Sync keyOf) (k : κ) : Bool := s.tag? k == some .deleted

/-- The links to submit with the owner. -/
def links (s : Sync keyOf) : List (Link α) := s.membership.toList

def counts (s : Sync keyOf) : Counts :=
  let count (p : Tag → Bool) : Nat := (s.links.filter fun l => p l.tag).length
  ⟨count (· == .created), count (· == .deleted),
    count fun t => t == .updated || t == .statusChanged⟩

def isPending (s : Sync keyOf) : Bool := 0 < s.counts.total

end Sync

end BackOffice.Association
