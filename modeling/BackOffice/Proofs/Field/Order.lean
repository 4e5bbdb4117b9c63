import BackOffice.Field.Order
import BackOffice.Record.Schema

/-!
# The order of the values of one field

All values of a field are of its kind, or nothing where the field is optional. Among these the order
is a linear preorder. It is read off the place of a value, a number that every value but text has,
and the text; nothing has neither and comes first. Across kinds of numbers this would not hold.
-/
namespace BackOffice

open BackOffice.Field

namespace FieldKind

/-- What a field of each kind can hold. -/
inductive Holds : FieldKind → Value → Prop
  | text (s : String) : Holds text (.text s)
  | someText (s : String) : Holds optionalText (.text s)
  | noText : Holds optionalText .null
  | someUuid (u : Uuid) : Holds optionalUuid (.uuid u)
  | noUuid : Holds optionalUuid .null
  | int (n : Int64) : Holds integer (.int n)
  | float (x : Binary64) : Holds decimal (.float x)
  | bool (b : Bool) : Holds flag (.bool b)
  | someInstant (t : Instant) : Holds optionalInstant (.instant t)
  | noInstant : Holds optionalInstant .null

theorem admits_iff {k : FieldKind} {v : Value} : k.admits v = true ↔ k.Holds v := by
  constructor
  · intro h
    cases k <;> cases v <;> first | constructor | cases h
  · rintro ⟨⟩ <;> rfl

end FieldKind

namespace Field.Value

/-- The place of a value among those of its kind. Text has none. -/
def place? : Value → Option Int
  | int n => some n.toInt
  | float x => some x.totalKey
  | bool b => some b.toNat
  | uuid u => some u.bits.toNat
  | instant t => some t.orderKey
  | text _ | null => none

/-- The order by places, then by texts. -/
def placing : Value → Value → Ordering :=
  compareLex (compareOn place?) (compareOn text?)

instance : Std.TransCmp placing :=
  inferInstanceAs (Std.TransCmp (compareLex (compareOn place?) (compareOn text?)))

theorem placing_of_place? {a b : Value} {m n : Int} (ha : a.place? = some m)
    (hb : b.place? = some n) : a.placing b = Ord.compare m n := by
  have noText : ∀ {v : Value} {k : Int}, v.place? = some k → v.text? = none := by
    rintro ⟨⟩ k h <;> first | rfl | cases h
  simp only [placing, compareLex, compareOn, ha, hb, noText ha, noText hb]
  exact Ordering.then_eq

theorem compare_natCast (m n : Nat) : Ord.compare (m : Int) (n : Int) = Ord.compare m n := by
  simp only [Ord.compare, compareOfLessAndEq, Int.ofNat_lt, Int.ofNat_inj]

/-- Values of one field compare by their places and texts. -/
theorem compare_eq_placing {k : FieldKind} {a b : Value} (ha : k.Holds a) (hb : k.Holds b) :
    a.compare b = a.placing b := by
  cases ha with
  | text s => cases hb; rfl
  | someText s => cases hb <;> rfl
  | noText => cases hb <;> rfl
  | someUuid u =>
    cases hb with
    | someUuid w =>
      rw [placing_of_place? rfl rfl]
      exact (compare_natCast _ _).symm
    | noUuid => rfl
  | noUuid => cases hb <;> rfl
  | int n =>
    cases hb with
    | int m => exact (placing_of_place? rfl rfl).symm
  | float x =>
    cases hb with
    | float y => exact (placing_of_place? rfl rfl).symm
  | bool b =>
    cases hb with
    | bool c => cases b <;> cases c <;> rfl
  | someInstant t =>
    cases hb with
    | someInstant w => exact (placing_of_place? rfl rfl).symm
    | noInstant => rfl
  | noInstant => cases hb <;> rfl

end Field.Value

end BackOffice
