/-!
# Maps in order of first arrival

A map that keeps its keys in the order in which they first came. Giving a key a new value leaves it
in its place; a key that was erased comes last when it returns.
-/
namespace BackOffice

structure OrderedMap (κ α : Type) where
  entries : List (κ × α)
deriving DecidableEq

namespace OrderedMap

variable {κ α β : Type}

def empty : OrderedMap κ α := ⟨[]⟩

instance : Inhabited (OrderedMap κ α) := ⟨empty⟩

def keys (m : OrderedMap κ α) : List κ := m.entries.map (·.1)

def values (m : OrderedMap κ α) : List α := m.entries.map (·.2)

def size (m : OrderedMap κ α) : Nat := m.entries.length

def isEmpty (m : OrderedMap κ α) : Bool := m.entries.isEmpty

def mapValues (f : α → β) (m : OrderedMap κ α) : OrderedMap κ β :=
  ⟨m.entries.map fun (k, a) => (k, f a)⟩

variable [DecidableEq κ]

def get? (m : OrderedMap κ α) (k : κ) : Option α := m.entries.lookup k

def contains (m : OrderedMap κ α) (k : κ) : Bool := m.entries.any (·.1 == k)

def position? (m : OrderedMap κ α) (k : κ) : Option Nat := m.entries.findIdx? (·.1 == k)

/-- The entries with the value of one key replaced, or the key added at the end. -/
def put (k : κ) (a : α) : List (κ × α) → List (κ × α)
  | [] => [(k, a)]
  | (l, b) :: rest => if l = k then (k, a) :: rest else (l, b) :: put k a rest

def insert (m : OrderedMap κ α) (k : κ) (a : α) : OrderedMap κ α := ⟨put k a m.entries⟩

def erase (m : OrderedMap κ α) (k : κ) : OrderedMap κ α := ⟨m.entries.filter (·.1 ≠ k)⟩

/-- The map with a key at the end, wherever it stood. -/
def putLast (m : OrderedMap κ α) (k : κ) (a : α) : OrderedMap κ α :=
  ⟨(m.erase k).entries ++ [(k, a)]⟩

/-- The map with a key at the front, wherever it stood. -/
def putFirst (m : OrderedMap κ α) (k : κ) (a : α) : OrderedMap κ α :=
  ⟨(k, a) :: (m.erase k).entries⟩

/-- Puts a new entry in the place of an old key, and drops any other entry under the new key. -/
def rekey (m : OrderedMap κ α) (old k : κ) (a : α) : OrderedMap κ α :=
  let before := m.entries.takeWhile (·.1 ≠ old)
  let after := (m.entries.dropWhile (·.1 ≠ old)).drop 1
  ⟨before.filter (·.1 ≠ k) ++ (k, a) :: after.filter (·.1 ≠ k)⟩

def insertAll (m : OrderedMap κ α) (pairs : List (κ × α)) : OrderedMap κ α :=
  pairs.foldl (fun m (k, a) => m.insert k a) m

/-- Each key in the place of its first pair, with the value of its last. -/
def ofList (pairs : List (κ × α)) : OrderedMap κ α := empty.insertAll pairs

end OrderedMap

end BackOffice
