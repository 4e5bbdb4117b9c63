import BackOffice.Field.Order
import BackOffice.Field.Retyping
import BackOffice.Proofs.Instant
import BackOffice.Proofs.Number.Whole
import BackOffice.Proofs.Uuid

/-!
# Values given back their kind

The text of a value is read as that value by a field of its kind, if the value has a text of its own.
By a field of the other kind of numbers it is read as the number in that kind, if it is written as
one. A field that has no value only reads the text that says so.
-/
namespace BackOffice.Field.Value

open BackOffice.Numeral

/-! ## The kind of the field -/

theorem retyped_int (n m : Int64) : (text (int n).wire).retyped (int m) = int n := by
  simp only [retyped, ofWire?, wire, signedWord?_signedText, Option.map_some, Option.getD_some]

theorem retyped_bool (b c : Bool) : (text (bool b).wire).retyped (bool c) = bool b := by
  cases b <;> rfl

theorem retyped_uuid (u w : Uuid) : (text (uuid u).wire).retyped (uuid w) = uuid u := by
  simp only [retyped, ofWire?, wire, Uuid.ofText?_text, Option.map_some, Option.getD_some]

theorem retyped_instant {t : Instant} (year : 0 ≤ t.year ∧ t.year ≤ 9999) (w : Instant) :
    (text (instant t).wire).retyped (instant w) = instant t.shown := by
  simp only [retyped, ofWire?, wire, Instant.ofText?_text year, Option.map_some, Option.getD_some]

theorem retyped_instant_none {t : Instant} (year : ¬(0 ≤ t.year ∧ t.year ≤ 9999)) (w : Instant) :
    (text (instant t).wire).retyped (instant w) = text t.text := by
  simp only [retyped, ofWire?, wire, Instant.ofText?_text_none year, Option.map_none,
    Option.getD_none]

/-- Whatever is read from the text of an instant is written as it. -/
theorem wire_retyped_instant (t w : Instant) :
    ((text (instant t).wire).retyped (instant w)).wire = (instant t).wire := by
  by_cases year : 0 ≤ t.year ∧ t.year ≤ 9999
  · rw [retyped_instant year]
    exact t.text_shown
  · rw [retyped_instant_none year]
    rfl

theorem retyped_float (x y : Binary64) : (text (float x).wire).retyped (float y) =
    float (if x.isNaN then Binary64.nan else x) := by
  simp only [retyped, ofWire?, wire, Binary64.ofText?_text, Option.map_some, Option.getD_some]

/-- A field without a value reads only the text of nothing. -/
theorem retyped_null {s : String} (other : s ≠ "null") : (text s).retyped null = text s := by
  simp only [retyped, ofWire?, if_neg other, Option.getD_none]

theorem retyped_uuid_null (u : Uuid) : (text (uuid u).wire).retyped null = text u.text := by
  refine retyped_null fun same => ?_
  have read := u.ofText?_text
  rw [show u.text = "null" from same] at read
  cases read

theorem retyped_instant_null {t : Instant} (year : 0 ≤ t.year ∧ t.year ≤ 9999) :
    (text (instant t).wire).retyped null = text t.text := by
  refine retyped_null fun same => ?_
  have read := Instant.ofText?_text year
  rw [show t.text = "null" from same] at read
  cases read

theorem wire_retyped_null (s : String) : ((text s).retyped null).wire = s := by
  by_cases h : s = "null"
  · rw [h]
    rfl
  · rw [retyped_null h, wire]

/-- All that are no numbers have one text, which is read as one of them. -/
theorem wire_float_canonical (x : Binary64) :
    (float x).wire = (float (if x.isNaN then Binary64.nan else x)).wire := by
  cases h : x.isNaN with
  | true => exact Binary64.text_of_isNaN h
  | false => rfl

/-! ## Values of one kind -/

/-- Two values are of one kind. -/
inductive SameKind : Value → Value → Prop
  | text (s other : String) : SameKind (.text s) (.text other)
  | int (n other : Int64) : SameKind (.int n) (.int other)
  | float (x other : Binary64) : SameKind (.float x) (.float other)
  | bool (b other : Bool) : SameKind (.bool b) (.bool other)
  | uuid (u other : Uuid) : SameKind (.uuid u) (.uuid other)
  | instant (t other : Instant) : SameKind (.instant t) (.instant other)
  | null : SameKind .null .null

/-- The value has a text of its own, which a field of its kind reads as it. Floats that are no
number share one text, a year that has not four digits is written with a sign that is not read, and
a leap second before the end of a minute is written as the second after it. -/
def IsLegible : Value → Prop
  | float x => x.isNaN = false ∨ x = Binary64.nan
  | instant t => t.IsReadable
  | text _ | int _ | bool _ | uuid _ | null => True

variable {v model : Value}

/-- A field takes values of its own kind as they are. -/
theorem retyped_of_sameKind (same : SameKind v model) : v.retyped model = v := by
  cases same <;> rfl

theorem retyped_float_iff (x y : Binary64) : (text (float x).wire).retyped (float y) = float x ↔
    x.isNaN = false ∨ x = Binary64.nan := by
  rw [retyped_float]
  cases h : x.isNaN with
  | false => exact iff_of_true rfl (Or.inl rfl)
  | true =>
    constructor
    · intro canonical
      exact Or.inr (float.inj canonical).symm
    · rintro (number | rfl)
      · cases number
      · rfl

theorem retyped_instant_iff (t w : Instant) :
    (text (instant t).wire).retyped (instant w) = instant t ↔ t.IsReadable := by
  rw [← Instant.ofText?_text_iff]
  simp only [retyped, ofWire?, wire]
  cases Instant.ofText? t.text with
  | none => simp only [Option.map_none, Option.getD_none, reduceCtorEq]
  | some u => simp only [Option.map_some, Option.getD_some, instant.injEq, Option.some_inj]

/-- A value that travels as text is read as itself, by any field of its kind, exactly if it is
legible; one that has not travelled is taken as it is. All texts, whole numbers, truth values and
identifiers are legible, and so are nothing and the instants of years with four digits, but for leap
seconds before the end of a minute. -/
theorem retyped_wire_iff (same : SameKind v model) :
    ((text v.wire).retyped model = v ↔ v.IsLegible) ∧ v.retyped model = v := by
  refine ⟨?_, retyped_of_sameKind same⟩
  cases same with
  | text s other => exact iff_of_true rfl trivial
  | int n other => exact iff_of_true (retyped_int n other) trivial
  | float x other => exact retyped_float_iff x other
  | bool b other => exact iff_of_true (retyped_bool b other) trivial
  | uuid u other => exact iff_of_true (retyped_uuid u other) trivial
  | instant t other => exact retyped_instant_iff t other
  | null => exact iff_of_true rfl trivial

/-- The last second of a leap year's last day but one, cut to milliseconds, and a leap second of the
year zero to the nanosecond. -/
theorem retyped_wire_instants :
    let t : Instant := ⟨2024, 12, 30, 23, 59, 59, 999000000, by decide, by decide⟩
    let u : Instant := ⟨0, 2, 29, 12, 30, 59, 1000000001, by decide, by decide⟩
    SameKind (instant t) (instant u) ∧ t.text = "2024-12-30T23:59:59.999+00:00" ∧
      u.text = "0000-02-29T12:30:60.000000001+00:00" ∧
      (text (instant t).wire).retyped (instant u) = instant t ∧
      (text (instant u).wire).retyped (instant t) = instant u := by
  intro t u
  have same : SameKind (instant t) (instant u) := .instant t u
  have back : SameKind (instant u) (instant t) := .instant u t
  exact ⟨same, by decide, by decide, (retyped_wire_iff same).1.mpr (by decide : t.IsReadable),
    (retyped_wire_iff back).1.mpr (by decide : u.IsReadable)⟩

/-- A leap second after the twenty-ninth second of a minute is shown as the thirtieth, and read as
the thirtieth. -/
theorem retyped_wire_leap :
    let t : Instant := ⟨2020, 1, 1, 0, 0, 29, 1333333333, by decide, by decide⟩
    let u : Instant := ⟨2020, 1, 1, 0, 0, 30, 333333333, by decide, by decide⟩
    SameKind (instant t) (instant t) ∧ (0 ≤ t.year ∧ t.year ≤ 9999) ∧
      (instant t).wire = "2020-01-01T00:00:30.333333333+00:00" ∧
      (text (instant t).wire).retyped (instant t) = instant u ∧ instant u ≠ instant t := by
  intro t u
  have year : 0 ≤ t.year ∧ t.year ≤ 9999 := by decide
  have next : t.shown = u := by decide +kernel
  exact ⟨.instant t t, year, by decide, next ▸ retyped_instant year t, by decide⟩

/-! ## The other kind of numbers -/

theorem retyped_int_float (n : Int64) (y : Binary64) :
    (text (int n).wire).retyped (float y) = float (asFloat n) := by
  simp only [retyped, ofWire?, wire, Binary64.ofText?_signedText, Option.map_some,
    Option.getD_some, asFloat]

theorem retyped_float_int {x : Binary64} {k : Int64} (written : x.text = signedText k.toInt)
    (m : Int64) : (text (float x).wire).retyped (int m) = int k := by
  simp only [retyped, ofWire?, wire, written, signedWord?_signedText, Option.map_some,
    Option.getD_some]

theorem retyped_float_int_none {x : Binary64} (unread : signedWord? x.text = none) (m : Int64) :
    (text (float x).wire).retyped (int m) = text x.text := by
  simp only [retyped, ofWire?, wire, unread, Option.map_none, Option.getD_none]

/-- A number that is written as a whole number is that whole number. -/
theorem asFloat_of_text {x : Binary64} {k : Int64} (written : x.text = signedText k.toInt) :
    asFloat k = x := by
  have read := Binary64.ofText?_text x
  rw [written, Binary64.ofText?_signedText] at read
  cases h : x.isNaN with
  | true =>
    have word := signedWord?_signedText k
    rw [← written, Binary64.text_of_isNaN h] at word
    cases word
  | false =>
    rw [h] at read
    exact Option.some.inj read

/-- Whole numbers keep their order in double precision as far as they stay apart there. -/
theorem totalCompare_asFloat (n k : Int64) : (asFloat n).totalCompare (asFloat k) =
    if asFloat n = asFloat k then .eq else Ord.compare n.toInt k.toInt := by
  split
  · next same => exact Binary64.totalCompare_eq_iff.mpr same
  · next apart =>
    have keys : (asFloat n).totalKey ≠ (asFloat k).totalKey :=
      fun same => apart (Binary64.totalKey_injective same)
    rw [Binary64.totalCompare]
    rcases Int.lt_trichotomy n.toInt k.toInt with less | equal | greater
    · have order : (asFloat n).totalKey ≤ (asFloat k).totalKey :=
        Binary64.totalKey_ofInt_mono (Int.le_of_lt less)
      rw [Int.compare_eq_lt.mpr less, Int.compare_eq_lt]
      omega
    · exact absurd (congrArg Binary64.ofInt equal) apart
    · have order : (asFloat k).totalKey ≤ (asFloat n).totalKey :=
        Binary64.totalKey_ofInt_mono (Int.le_of_lt greater)
      rw [Int.compare_eq_gt.mpr greater, Int.compare_eq_gt]
      omega

end BackOffice.Field.Value
