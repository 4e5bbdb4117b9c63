import BackOffice.Proofs.Field.Retyping
import BackOffice.Proofs.Query.Params
import BackOffice.Proofs.Record.Fields

/-!
# Values that travel

The values of a clause travel as text, and are given the kind of the field that they are compared
with. A value travels well if the operator cannot tell what comes out from what was sent. All values
of the kind of the field do, but for those that have no text of their own: nothing, of which the text
is one like others, numbers that are none, years of more than four digits, and leap seconds before
the end of a minute. Numbers of the other kind do as far as conversion leaves them alone.
-/
namespace BackOffice.Query

open BackOffice.Field BackOffice.Numeral
open BackOffice.Pattern (Engine)

/-! ## What operators ask -/

/-- The orders of a field and a value that an operator tells from the others. -/
def Operator.asks : Operator → Ordering → Bool
  | .equals, o | .differs, o | .oneOf, o | .noneOf, o => o == .eq
  | .less, o | .atLeast, o => o == .lt
  | .atMost, o | .greater, o => o == .gt
  | .between, o => o != .eq
  | .like, _ => false

/-- Whether an operator asks on which side of a value the field is. -/
def Operator.orders (op : Operator) : Bool := op.asks .lt || op.asks .gt

namespace Clause

/-- The operator cannot tell one value from the other when it compares a field with them. -/
structure Agrees (op : Operator) (field a b : Value) : Prop where
  wires : op = .like → a.wire = b.wire
  orders : ∀ o, op.asks o = true → (field.compare a = o ↔ field.compare b = o)

theorem Agrees.of_compare {op : Operator} {field a b : Value} (wires : a.wire = b.wire)
    (same : field.compare a = field.compare b) : Agrees op field a b :=
  ⟨fun _ => wires, fun _ _ => by rw [same]⟩

theorem Agrees.of_eq {op : Operator} {field a b : Value} (same : a = b) : Agrees op field a b :=
  .of_compare (congrArg Value.wire same) (congrArg field.compare same)

section Congruence

variable {op : Operator} {field : Value} {values : List Value} {f g : Value → Value}

theorem any_congr {p : Value → Bool} (same : ∀ v ∈ values, p (f v) = p (g v)) :
    (values.map f).any p = (values.map g).any p := by
  have images : (values.map f).map p = (values.map g).map p := by
    rw [List.map_map, List.map_map]
    exact List.map_congr_left same
  have any := congrArg (List.any · id) images
  simpa only [List.any_map, Function.id_comp] using any

theorem against_congr {p : Ordering → Bool} (i : Nat)
    (same : ∀ v ∈ values, p (field.compare (f v)) = p (field.compare (g v))) :
    (against field (values.map f) i).any p = (against field (values.map g) i).any p := by
  rw [against, against, List.getElem?_map, List.getElem?_map]
  cases at_i : values[i]? with
  | none => rfl
  | some v => exact same v (List.mem_of_getElem? at_i)

/-- Values that the operator cannot tell apart make no difference to a clause. -/
theorem holds_congr [Engine] (agrees : ∀ v ∈ values, Agrees op field (f v) (g v)) :
    holds op field (values.map f) = holds op field (values.map g) := by
  have asked {o : Ordering} (h : op.asks o = true) : ∀ v ∈ values,
      (field.compare (f v) == o) = (field.compare (g v) == o) := by
    intro v hv
    have same := (agrees v hv).orders o h
    rw [Bool.eq_iff_iff, beq_iff_eq, beq_iff_eq, same]
  have notBelow (h : op.asks .lt = true) : ∀ v ∈ values,
      (field.compare (f v)).isGE = (field.compare (g v)).isGE := by
    have isGE_eq (o : Ordering) : o.isGE = !(o == .lt) := by cases o <;> rfl
    intro v hv
    rw [isGE_eq, isGE_eq, asked h v hv]
  have notAbove (h : op.asks .gt = true) : ∀ v ∈ values,
      (field.compare (f v)).isLE = (field.compare (g v)).isLE := by
    have isLE_eq (o : Ordering) : o.isLE = !(o == .gt) := by cases o <;> rfl
    intro v hv
    rw [isLE_eq, isLE_eq, asked h v hv]
  cases op with
  | equals | oneOf => exact any_congr (asked rfl)
  | differs | noneOf => exact congrArg (!·) (any_congr (asked rfl))
  | between =>
    exact congrArg₂ (· && ·) (against_congr 0 (notBelow rfl)) (against_congr 1 (notAbove rfl))
  | less => exact against_congr 0 (asked rfl)
  | atMost => exact against_congr 0 (notAbove rfl)
  | greater => exact against_congr 0 (asked rfl)
  | atLeast => exact against_congr 0 (notBelow rfl)
  | like => exact any_congr fun v hv => congrArg (isLike · field.wire) ((agrees v hv).wires rfl)

end Congruence

/-! ## Values that travel -/

/-- Of the whole numbers that become `x`, a given one is the only one, the least or the greatest, as
far as an operator can tell. -/
def StandsFor (op : Operator) (x : Binary64) (k : Int64) : Prop :=
  ∀ n, Value.asFloat n = x → (op.asks .eq → n = k) ∧ (op.asks .lt → k.toInt ≤ n.toInt) ∧
    (op.asks .gt → n.toInt ≤ k.toInt)

/-- All whole numbers are below `x`, as far as an operator can tell. -/
def IsAbove (op : Operator) (x : Binary64) : Prop :=
  ∀ n, (op.asks .eq → Value.asFloat n ≠ x) ∧
    (op.asks .lt → (Value.asFloat n).totalCompare x = .lt) ∧
    (op.asks .gt → (Value.asFloat n).totalCompare x ≠ .gt)

/-- The values that mean the same to a clause once they have travelled, for a field of a kind and an
operator. Of the values that the field has anywhere, one is in the way of finding those that have
none: the text that stands for nothing on the way. -/
inductive Travels (stored : Value → Prop) : FieldKind → Operator → Value → Prop
  | text {kind op} (s : String) : Travels stored kind op (.text s)
  | noText {op} (equality : op.orders = false) (unused : op ≠ .like → ¬stored (.text "null")) :
    Travels stored .optionalText op .null
  | uuid {op} (u : Uuid) : Travels stored .optionalUuid op (.uuid u)
  | noUuid {op} (equality : op.orders = false) : Travels stored .optionalUuid op .null
  | instant {op} {t : Instant} (own : op = .like ∨ t.IsReadable) :
    Travels stored .optionalInstant op (.instant t)
  | noInstant {op} (equality : op.orders = false) : Travels stored .optionalInstant op .null
  | bool {op} (b : Bool) : Travels stored .flag op (.bool b)
  | int {op} (n : Int64) : Travels stored .integer op (.int n)
  | float {op} {x : Binary64} (number : op = .like ∨ x.isNaN = false ∨ x = .nan) :
    Travels stored .decimal op (.float x)
  | intAsFloat {op} {n : Int64}
    (written : op = .like → (Value.asFloat n).text = signedText n.toInt) :
    Travels stored .decimal op (.int n)
  | floatAsInt {op} {x : Binary64} {k : Int64} (written : x.text = signedText k.toInt)
    (only : StandsFor op x k) : Travels stored .integer op (.float x)
  /-- What is not read as a whole number stays text, which stands above all numbers. -/
  | floatAsText {op} {x : Binary64} (unread : signedWord? x.text = none) (above : IsAbove op x) :
    Travels stored .integer op (.float x)
  /-- The zero below zero is read as zero, below which there are the same whole numbers. -/
  | zeroBelow {op} (below : op = .less ∨ op = .atLeast) :
    Travels stored .integer op (.float Binary64.zero.neg)

theorem eq_of_asks {op : Operator} (equality : op.orders = false) {o : Ordering}
    (h : op.asks o = true) : o = .eq := by
  obtain ⟨noLess, noGreater⟩ := Bool.or_eq_false_iff.mp equality
  cases o with
  | lt =>
    rw [noLess] at h
    cases h
  | eq => rfl
  | gt =>
    rw [noGreater] at h
    cases h

theorem agrees_of_like {op : Operator} (like : op = .like) {field a b : Value}
    (wires : a.wire = b.wire) : Agrees op field a b := by
  subst like
  exact ⟨fun _ => wires, nofun⟩

/-- Nothing and a text that means nothing are both told from a value that is neither. -/
theorem agrees_of_ne {op : Operator} (equality : op.orders = false) {field a b : Value}
    (wires : a.wire = b.wire) (ha : field.compare a ≠ .eq) (hb : field.compare b ≠ .eq) :
    Agrees op field a b := by
  refine ⟨fun _ => wires, ?_⟩
  intro o h
  rw [eq_of_asks equality h]
  exact iff_of_false ha hb

theorem agrees_floatAsInt {op : Operator} {x : Binary64} {k : Int64}
    (written : x.text = signedText k.toInt) (only : StandsFor op x k) (m : Int64) :
    Agrees op (.int m) (.float x) (.int k) := by
  have own := Value.asFloat_of_text written
  refine ⟨fun _ => written, ?_⟩
  intro o h
  have order := Value.totalCompare_asFloat m k
  rw [own] at order
  show (Value.asFloat m).totalCompare x = o ↔ Ord.compare m.toInt k.toInt = o
  rw [order]
  split
  · next same =>
    obtain ⟨only, least, greatest⟩ := only m same
    cases o with
    | lt =>
      have := least h
      rw [Int.compare_eq_lt]
      exact iff_of_false nofun (Int.not_lt.mpr this)
    | eq =>
      rw [only h]
      exact iff_of_true rfl (Std.ReflCmp.compare_self)
    | gt =>
      have := greatest h
      rw [Int.compare_eq_gt]
      exact iff_of_false nofun (Int.not_lt.mpr this)
  · exact Iff.rfl

theorem agrees_floatAsText {op : Operator} {x : Binary64} (above : IsAbove op x) (m : Int64) :
    Agrees op (.int m) (.float x) (.text x.text) := by
  obtain ⟨other, below, notAbove⟩ := above m
  refine ⟨fun _ => rfl, ?_⟩
  intro o h
  show (Value.asFloat m).totalCompare x = o ↔ Ordering.lt = o
  cases o with
  | lt => exact iff_of_true (below h) rfl
  | eq => exact iff_of_false (fun same => other h (Binary64.totalCompare_eq_iff.mp same)) nofun
  | gt => exact iff_of_false (notAbove h) nofun

theorem agrees_zeroBelow {op : Operator} (below : op = .less ∨ op = .atLeast) (m : Int64) :
    Agrees op (.int m) (.float Binary64.zero.neg) (.int 0) := by
  have notLike : op ≠ .like := by
    rintro rfl
    rcases below with h | h <;> cases h
  have asked {o : Ordering} (h : op.asks o = true) : o = .lt := by
    rcases below with rfl | rfl <;> exact beq_iff_eq.mp h
  refine ⟨fun like => absurd like notLike, ?_⟩
  intro o h
  rw [asked h]
  show (Value.asFloat m).totalCompare Binary64.zero.neg = .lt ↔ Ord.compare m.toInt 0 = .lt
  rw [Binary64.totalCompare, Int.compare_eq_lt, Int.compare_eq_lt]
  exact Binary64.totalKey_ofInt_lt_zero m.toInt

/-- What travels means the same to the operator, whatever value the field has. -/
theorem Travels.agrees {stored : Value → Prop} {kind : FieldKind} {op : Operator} {v field : Value}
    (t : Travels stored kind op v) (holds : kind.Holds field) (used : stored field) :
    Agrees op field (v.retyped field) ((Value.text v.wire).retyped field) := by
  cases t with
  | text s => exact .of_eq rfl
  | noText equality unused =>
    cases holds with
    | someText s =>
      by_cases like : op = .like
      · exact agrees_of_like like rfl
      · refine agrees_of_ne equality rfl nofun ?_
        intro same
        have means : s = "null" := Std.LawfulEqOrd.eq_of_compare same
        exact unused like (means ▸ used)
    | noText => exact .of_eq rfl
  | uuid u =>
    cases holds with
    | someUuid w => exact .of_eq (Value.retyped_uuid u w).symm
    | noUuid =>
      -- A field without a value stands before an identifier and before its text alike.
      rw [Value.retyped_uuid_null u]
      exact .of_compare rfl rfl
  | noUuid equality =>
    cases holds with
    | someUuid w => exact agrees_of_ne equality rfl nofun nofun
    | noUuid => exact .of_eq rfl
  | @instant op t own =>
    cases holds with
    | someInstant w =>
      rcases own with like | readable
      · exact agrees_of_like like (Value.wire_retyped_instant t w).symm
      · exact .of_eq ((Value.retyped_instant_iff t w).mpr readable).symm
    | noInstant =>
      rcases own with like | readable
      · exact agrees_of_like like (Value.wire_retyped_null t.text).symm
      · rw [Value.retyped_instant_null readable.1]
        exact .of_compare rfl rfl
  | noInstant equality =>
    cases holds with
    | someInstant w => exact agrees_of_ne equality rfl nofun nofun
    | noInstant => exact .of_eq rfl
  | bool b =>
    cases holds with
    | bool c => exact .of_eq (Value.retyped_bool b c).symm
  | int n =>
    cases holds with
    | int m => exact .of_eq (Value.retyped_int n m).symm
  | float number =>
    cases holds with
    | float y =>
      rw [Value.retyped_float]
      rcases number with like | number | rfl
      · exact agrees_of_like like (Value.wire_float_canonical _)
      · rw [number]
        exact .of_eq rfl
      · exact .of_eq rfl
  | @intAsFloat op n written =>
    cases holds with
    | float y =>
      rw [Value.retyped_int_float n y]
      exact ⟨fun like => (written like).symm, fun _ _ => Iff.rfl⟩
  | floatAsInt written only =>
    cases holds with
    | int m =>
      rw [Value.retyped_float_int written m]
      exact agrees_floatAsInt written only m
  | floatAsText unread above =>
    cases holds with
    | int m =>
      rw [Value.retyped_float_int_none unread m]
      exact agrees_floatAsText above m
  | zeroBelow below =>
    cases holds with
    | int m => exact agrees_zeroBelow below m

/-! ### Numbers of the other kind

Near zero they travel under every operator, and as patterns of texts they travel nearly always.
-/

theorem travels_intAsFloat {stored : Value → Prop} {op : Operator} {n : Int64}
    (small : n.toInt.natAbs < 2 ^ 53) : Travels stored .decimal op (.int n) :=
  .intAsFloat fun _ => Binary64.text_ofInt small

theorem travels_floatAsInt {stored : Value → Prop} {op : Operator} {k : Int64}
    (small : k.toInt.natAbs < 2 ^ 53) : Travels stored .integer op (.float (Value.asFloat k)) := by
  refine .floatAsInt (Binary64.text_ofInt small) ?_
  intro n same
  have equal : n.toInt = k.toInt := Binary64.ofInt_inj small same
  exact ⟨fun _ => Int64.toInt_inj.mp equal, fun _ => Int.le_of_eq equal.symm,
    fun _ => Int.le_of_eq equal⟩

/-- Only the zero below zero is read as a number that is written otherwise. -/
theorem travels_like {stored : Value → Prop} {x : Binary64} (other : x ≠ Binary64.zero.neg) :
    Travels stored .integer .like (.float x) := by
  cases read : signedWord? x.text with
  | none => exact .floatAsText read fun n => ⟨nofun, nofun, nofun⟩
  | some k =>
    exact .floatAsInt (Binary64.signedText_of_signedWord? other read).symm
      fun n _ => ⟨nofun, nofun, nofun⟩

/-! ## Clauses that travel -/

/-- A clause whose values travel is true of the same records once it has travelled. -/
theorem accepts_asText [Engine] {c : Clause} {s : Schema} {r : Record} {stored : Value → Prop}
    (fits : Record.Fits s r) (used : ∀ v, r.field? c.name = some v → stored v)
    (travels : ∀ kind, s.kind? c.name = some kind →
      ∀ v ∈ c.values, Travels stored kind c.operator v) :
    c.asText.accepts (r.field? c.name) = c.accepts (r.field? c.name) := by
  rcases fits.field? c.name with ⟨_, lacks⟩ | ⟨kind, field, known, has, holds⟩
  · rw [lacks]
    rfl
  · have agrees : ∀ v ∈ c.values, Agrees c.operator field (v.retyped field)
        ((Value.text v.wire).retyped field) := fun v hv =>
      (travels kind known v hv).agrees holds (used field has)
    rw [has, accepts, accepts, asText, List.map_map]
    exact (holds_congr agrees).symm

end Clause

theorem Criteria.accepts_asText [Engine] {c : Criteria} {field : String → Option Value}
    (same : ∀ clause ∈ c.clauses,
      clause.asText.accepts (field clause.name) = clause.accepts (field clause.name)) :
    c.asText.accepts field = c.accepts field := by
  have images : c.clauses.map (fun clause => clause.asText.accepts (field clause.name)) =
      c.clauses.map fun clause => clause.accepts (field clause.name) := List.map_congr_left same
  have all := congrArg (List.all · id) images
  have any := congrArg (List.any · id) images
  rw [List.all_map, List.all_map] at all
  rw [List.any_map, List.any_map] at any
  simp only [accepts, asText, List.isEmpty_map, List.all_map, List.any_map]
  split
  · rfl
  · cases c.join with
    | all => exact all
    | any => exact any

end BackOffice.Query
