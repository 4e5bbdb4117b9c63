import BackOffice.Keyed

/-!
# Keyed lists, place by place

The edits of a keyed list as they go by places: an entry is put in, taken out or moved at an index,
and the entries behind it make room or move up. Each edit answers with what there was to it, the item
that was taken out or whether there was one to be replaced.
-/
namespace BackOffice

namespace OrderedMap

variable {κ α : Type}

/-- The map without the entry at a place. -/
def eraseAt (m : OrderedMap κ α) (i : Nat) : OrderedMap κ α := ⟨m.entries.eraseIdx i⟩

/-- The map with another value in the entry at a place. -/
def setAt (m : OrderedMap κ α) (i : Nat) (a : α) : OrderedMap κ α :=
  ⟨m.entries.modify i fun e => (e.1, a)⟩

/-- The map with the entry at one place moved to another. -/
def move (m : OrderedMap κ α) (i j : Nat) : OrderedMap κ α :=
  match m.entries[i]? with
  | some e => ⟨(m.entries.eraseIdx i).insertIdx j e⟩
  | none => m

variable [DecidableEq κ]

/-- The map with an entry at a place. One that has its key gets the value and is moved there. -/
def insertAt (m : OrderedMap κ α) (i : Nat) (k : κ) (a : α) : OrderedMap κ α :=
  match m.position? k with
  | some j => (m.setAt j a).move j i
  | none => ⟨m.entries.insertIdx i (k, a)⟩

/-- Puts a new entry in at a place and drops any other of its key. If that one stood before the
place, the place has moved up. -/
def supplant (m : OrderedMap κ α) (i : Nat) (k : κ) (a : α) : OrderedMap κ α :=
  match m.position? k with
  | some twin =>
    let rest := m.eraseAt twin
    rest.insertAt (min (if twin < i then i - 1 else i) rest.size) k a
  | none => m.insertAt (min i m.size) k a

end OrderedMap

namespace Keyed

variable {α κ : Type} {keyOf : α → κ} [DecidableEq κ]

/-- Puts an item in, in the place of its key if that is there, and moves it to the end. -/
def pushBack (s : Keyed keyOf) (a : α) : Keyed keyOf :=
  let place := (s.items.position? (keyOf a)).getD s.items.size
  let items := s.items.insert (keyOf a) a
  { s with items := items.move place (items.size - 1) }

/-- Puts an item in at the front, to which one of its key is moved. -/
def pushFront (s : Keyed keyOf) (a : α) : Keyed keyOf :=
  { s with items := s.items.insertAt 0 (keyOf a) a }

/-- Takes the item of a key out of the list and of the selection, and gives it. -/
def takeOut (s : Keyed keyOf) (k : κ) : Keyed keyOf × Option α :=
  let selected := s.selected.filter (· ≠ k)
  match s.items.position? k with
  | some i => (⟨s.items.eraseAt i, selected⟩, s.items.entries[i]?.map (·.2))
  | none => (⟨s.items, selected⟩, none)

/-- Puts an item in the place of the one under `old` and tells whether there was one. The selection
follows the item to its new key. -/
def exchange (s : Keyed keyOf) (old : κ) (a : α) : Keyed keyOf × Bool :=
  match s.items.position? old with
  | none => (s, false)
  | some i =>
    if keyOf a = old then ({ s with items := s.items.setAt i a }, true)
    else
      let others := s.selected.filter (· ≠ old)
      (⟨(s.items.eraseAt i).supplant i (keyOf a) a,
        if s.selected.contains old then withKey others (keyOf a) else others⟩, true)

end Keyed

end BackOffice
