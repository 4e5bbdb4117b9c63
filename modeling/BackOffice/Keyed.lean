import BackOffice.OrderedMap

/-!
# Keyed lists with a selection

A list of items in which every item is known by a key, together with the keys that are selected.
Items are matched by key alone. Operations on the selection tell which keys they changed; a listener
can follow the selection from these changes.
-/
namespace BackOffice

/-- The keys that became selected and those that ceased to be. -/
structure KeyChange (κ : Type) where
  added : List κ
  removed : List κ
deriving DecidableEq

namespace KeyChange

def none {κ : Type} : KeyChange κ := ⟨[], []⟩

def isEmpty {κ : Type} (c : KeyChange κ) : Bool := c.added.isEmpty && c.removed.isEmpty

end KeyChange

/-- Items under the keys that `keyOf` gives them, and the selected keys in order of selection. -/
structure Keyed {α κ : Type} (keyOf : α → κ) where
  items : OrderedMap κ α
  selected : List κ

namespace Keyed

variable {α κ : Type} {keyOf : α → κ}

def empty : Keyed keyOf := ⟨.empty, []⟩

def toList (s : Keyed keyOf) : List α := s.items.values

def keys (s : Keyed keyOf) : List κ := s.items.keys

def clear (_ : Keyed keyOf) : Keyed keyOf := empty

variable [DecidableEq κ]

def find? (s : Keyed keyOf) (k : κ) : Option α := s.items.get? k

def contains (s : Keyed keyOf) (k : κ) : Bool := s.items.contains k

def position? (s : Keyed keyOf) (k : κ) : Option Nat := s.items.position? k

/-- Puts other items in place of all; the selection keeps what is still there. -/
def load (s : Keyed keyOf) (items : List α) : Keyed keyOf :=
  let items := OrderedMap.ofList (items.map fun a => (keyOf a, a))
  ⟨items, s.selected.filter items.contains⟩

def append (s : Keyed keyOf) (a : α) : Keyed keyOf :=
  { s with items := s.items.putLast (keyOf a) a }

def prepend (s : Keyed keyOf) (a : α) : Keyed keyOf :=
  { s with items := s.items.putFirst (keyOf a) a }

def remove (s : Keyed keyOf) (k : κ) : Keyed keyOf :=
  ⟨s.items.erase k, s.selected.filter (· ≠ k)⟩

/-- Adds a key to the selected ones, at the end, unless it is among them. -/
def withKey (selected : List κ) (k : κ) : List κ :=
  if selected.contains k then selected else selected ++ [k]

/-- Puts an item in the place of the one under `old`, if there is one. The selection follows the
item to its new key. -/
def replace (s : Keyed keyOf) (old : κ) (a : α) : Keyed keyOf :=
  if !s.contains old then s
  else if keyOf a = old then { s with items := s.items.insert old a }
  else
    let others := s.selected.filter (· ≠ old)
    ⟨s.items.rekey old (keyOf a) a,
      if s.selected.contains old then withKey others (keyOf a) else others⟩

/-! ## Selection -/

def isSelected (s : Keyed keyOf) (k : κ) : Bool := s.selected.contains k

/-- The selected items, in the order of the list. -/
def selection (s : Keyed keyOf) : List α :=
  (s.items.entries.filter fun (k, _) => s.isSelected k).map (·.2)

/-- Selects a key that is loaded and not yet selected; any other is passed over. -/
def select (s : Keyed keyOf) (k : κ) : Keyed keyOf × KeyChange κ :=
  if s.contains k && !s.isSelected k then
    ({ s with selected := s.selected ++ [k] }, ⟨[k], []⟩)
  else (s, .none)

def deselect (s : Keyed keyOf) (k : κ) : Keyed keyOf × KeyChange κ :=
  if s.isSelected k then ({ s with selected := s.selected.filter (· ≠ k) }, ⟨[], [k]⟩)
  else (s, .none)

def toggle (s : Keyed keyOf) (k : κ) : Keyed keyOf × KeyChange κ :=
  if s.isSelected k then s.deselect k else s.select k

def selectAll (s : Keyed keyOf) : Keyed keyOf × KeyChange κ :=
  let added := s.keys.filter (!s.isSelected ·)
  ({ s with selected := s.selected ++ added }, ⟨added, []⟩)

def clearSelection (s : Keyed keyOf) : Keyed keyOf × KeyChange κ :=
  ({ s with selected := [] }, ⟨[], s.selected⟩)

/-- Every loaded item is selected, and there is one. -/
def allSelected (s : Keyed keyOf) : Bool := !s.items.isEmpty && s.keys.all s.isSelected

/-- The header checkbox: selects all, or clears a selection that is already full. -/
def toggleAll (s : Keyed keyOf) : Keyed keyOf × KeyChange κ :=
  if s.allSelected then s.clearSelection else s.selectAll

end Keyed

end BackOffice
