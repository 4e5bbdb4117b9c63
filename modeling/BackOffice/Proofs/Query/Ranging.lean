import BackOffice.Proofs.Field.Linearity
import BackOffice.Proofs.Query.Paging

/-!
# Ranges of sorted records

Records that are sorted by a field stand in the order in which a clause on that field compares them
with its bound: those up to the bound come first and those beyond it follow. Before it compares, each
record reads a bound that came as text by the kind of its own value. Records of one field read it
alike, with one exception: where the field is empty, the text `null` is read as nothing. Such a record
ties with that bound though values after it may stand before the bound, and it is missing from the
records below.
-/
namespace BackOffice

open BackOffice.Field BackOffice.Query
open BackOffice.Pattern (Engine)

namespace Field.Value

variable {k : FieldKind} {a b w : Value}

theorem compare_null_ne_gt (a : Value) : null.compare a ≠ .gt := by
  cases a <;> exact nofun

theorem compare_null_eq_lt (value : a ≠ null) : null.compare a = .lt := by
  cases a with
  | null => exact absurd rfl value
  | text | int | float | bool | uuid | instant => rfl

theorem compare_null_eq_gt (value : a ≠ null) : a.compare null = .gt := by
  rw [compare_swap, compare_null_eq_lt value]
  rfl

theorem fine_of_holds (ha : k.Holds a) (other : ¬(k = .integer ∧ ∃ n, w = int n)) :
    a.fine w = .eq := by
  cases ha with
  | int m =>
    cases w with
    | int n => exact absurd ⟨rfl, n, rfl⟩ other
    | text | float | bool | uuid | instant | null => rfl
  | text | someText | noText | someUuid | noUuid | float | bool | someInstant | noInstant => rfl

/-- What is below a value or not beyond it is so from any earlier value of its field on, whatever it
is compared with. -/
theorem compare_mono (ha : k.Holds a) (hb : k.Holds b) (order : a.compare b ≠ .gt) (w : Value) :
    (b.compare w ≠ .gt → a.compare w ≠ .gt) ∧ (b.compare w = .lt → a.compare w = .lt) := by
  by_cases whole : k = .integer ∧ ∃ n, w = int n
  · obtain ⟨rfl, n, rfl⟩ := whole
    cases ha with
    | int l =>
      cases hb with
      | int m =>
        simp only [compare, ne_eq, Int.compare_eq_gt, Int.compare_eq_lt] at order ⊢
        omega
  · have coarsely : (a.coarse b).isLE = true := (compare_ne_gt_iff.mp order).1
    have first : a.compare w = a.coarse w := by
      rw [compare_eq_then, fine_of_holds ha whole, Ordering.then_eq]
    have second : b.compare w = b.coarse w := by
      rw [compare_eq_then, fine_of_holds hb whole, Ordering.then_eq]
    simp only [first, second, ← Ordering.isLE_iff_ne_gt]
    exact ⟨Std.TransCmp.isLE_trans coarsely, Std.TransCmp.lt_of_isLE_of_lt coarsely⟩

/-! ## A bound as a record reads it -/

theorem retyped_congr (ha : k.Holds a) (hb : k.Holds b) (alike : a = null ↔ b = null) (v : Value) :
    v.retyped a = v.retyped b := by
  cases v with
  | text s =>
    cases ha <;> cases hb <;>
      first | rfl | exact absurd (alike.mpr rfl) nofun | exact absurd (alike.mp rfl) nofun
  | int | float | bool | uuid | instant | null => rfl

theorem retyped_null_of_ne {v : Value} (other : v ≠ text "null") : v.retyped null = v := by
  cases v with
  | text s => exact retyped_null fun same => other (congrArg text same)
  | int | float | bool | uuid | instant | null => rfl

/-- No value but nothing reads the text `null` as anything else. -/
theorem retyped_text_null (value : a ≠ null) : (text "null").retyped a = text "null" := by
  cases a with
  | null => exact absurd rfl value
  | text | int | float | bool | uuid | instant => rfl

/-- How a value compares with a bound as it reads it. -/
def comparedWith (a v : Value) : Ordering := a.compare (v.retyped a)

/-- Along the values of one field, what is not beyond the bound comes first, and so does what is below
it, unless the bound is the text that nothing reads as itself. -/
theorem comparedWith_mono (ha : k.Holds a) (hb : k.Holds b) (order : a.compare b ≠ .gt) (v : Value) :
    (b.comparedWith v ≠ .gt → a.comparedWith v ≠ .gt) ∧
    (¬(v = text "null" ∧ a = null ∧ b ≠ null) → b.comparedWith v = .lt → a.comparedWith v = .lt) := by
  rw [comparedWith, comparedWith]
  by_cases alike : a = null ↔ b = null
  · rw [retyped_congr ha hb alike]
    obtain ⟨within, below⟩ := compare_mono ha hb order (v.retyped b)
    exact ⟨within, fun _ => below⟩
  · have first : a = null := by
      by_contra value
      have last : b = null := by
        by_contra other
        exact alike (iff_of_false value other)
      rw [last] at order
      exact order (compare_null_eq_gt value)
    have second : b ≠ null := fun last => alike (iff_of_true first last)
    subst first
    refine ⟨fun _ => compare_null_ne_gt _, fun plain below => ?_⟩
    have other : v ≠ text "null" := fun same => plain ⟨same, rfl, second⟩
    rw [retyped_null_of_ne other]
    refine compare_null_eq_lt fun nothing => ?_
    rw [nothing] at below
    cases (compare_null_eq_gt second).symm.trans below

end Field.Value

namespace Query

/-! ## Stretches of a list -/

/-- Where what holds of an element holds of all before it, it holds of a stretch at the front. -/
theorem filter_eq_take {α : Type} {p : α → Bool} {l : List α}
    (falling : l.Pairwise fun a b => p b = true → p a = true) :
    l.filter p = l.take (l.countP p) ∧ l.filter (!p ·) = l.drop (l.countP p) := by
  induction l with
  | nil => exact ⟨rfl, rfl⟩
  | cons a l ih =>
    obtain ⟨first, rest⟩ := List.pairwise_cons.mp falling
    by_cases holds : p a = true
    · rw [List.filter_cons_of_pos holds, List.countP_cons_of_pos holds, (ih rest).1,
        List.filter_cons_of_neg (by simp [holds]), (ih rest).2]
      exact ⟨rfl, rfl⟩
    · have none : ∀ b ∈ a :: l, p b = false := by
        simp only [List.forall_mem_cons, ← Bool.not_eq_true]
        exact ⟨holds, fun b hb later => holds (first b hb later)⟩
      have count : (a :: l).countP p = 0 := by
        rw [List.countP_eq_zero]
        exact fun b hb => by simp [none b hb]
      rw [count, List.filter_eq_nil_iff.mpr fun b hb => by simp [none b hb],
        List.filter_eq_self.mpr fun b hb => by simp [none b hb]]
      exact ⟨rfl, rfl⟩

/-! ## Records -/

/-- Records in the order of one field. -/
def sortedBy (name : String) (records : List Record) : List Record :=
  records.mergeSort (Repository.notAfter [⟨name, .ascending⟩])

/-- Whether a clause with one bound is true of a record. -/
def within [Engine] (op : Operator) (name : String) (v : Value) (r : Record) : Bool :=
  (Clause.mk name op [v]).accepts (r.field? name)

/-- The field is empty in one record, and another has a value in it before the text `null`. -/
def StraddlesNull (name : String) (records : List Record) : Prop :=
  (∃ r ∈ records, r.field? name = some .null) ∧
    ∃ r ∈ records, ∃ a, r.field? name = some a ∧ a ≠ .null ∧ a.compare (.text "null") = .lt

variable {s : Schema} {records : List Record} {name : String} {k : FieldKind} {a : Value}
  {r : Record}

theorem exists_field (kind : s.kind? name = some k) (fits : Record.Fits s r) :
    ∃ a, r.field? name = some a ∧ k.Holds a := by
  rcases fits.field? name with ⟨lacking, _⟩ | ⟨k', a, known, has, holds⟩
  · cases lacking.symm.trans kind
  · cases known.symm.trans kind
    exact ⟨a, has, holds⟩

theorem within_atMost_iff [Engine] (has : r.field? name = some a) {v : Value} :
    within .atMost name v r = true ↔ a.comparedWith v ≠ .gt := by
  rw [within, has]
  exact Ordering.isLE_iff_ne_gt

theorem within_less_iff [Engine] (has : r.field? name = some a) {v : Value} :
    within .less name v r = true ↔ a.comparedWith v = .lt := by
  rw [within, has]
  exact beq_iff_eq

theorem within_greater [Engine] (has : r.field? name = some a) {v : Value} :
    within .greater name v r = !within .atMost name v r := by
  rw [within, within, has]
  change (a.comparedWith v == .gt) = !(a.comparedWith v).isLE
  cases a.comparedWith v <;> rfl

theorem within_atLeast [Engine] (has : r.field? name = some a) {v : Value} :
    within .atLeast name v r = !within .less name v r := by
  rw [within, within, has]
  change (a.comparedWith v).isGE = !(a.comparedWith v == .lt)
  cases a.comparedWith v <;> rfl

theorem mem_sortedBy : r ∈ sortedBy name records ↔ r ∈ records := List.mem_mergeSort

/-- The values of a field never fall in the order of that field. -/
theorem pairwise_sortedBy (fits : ∀ r ∈ records, Record.Fits s r) :
    (sortedBy name records).Pairwise fun q r => ∀ a b, q.field? name = some a →
      r.field? name = some b → a.compare b ≠ .gt := by
  refine (pairwise_mergeSort [⟨name, .ascending⟩] fits).imp fun {q r} order a b ha hb => ?_
  rw [compareBy, compareBy, ha, hb, Ordering.then_eq] at order
  exact order

theorem falling_atMost [Engine] (fits : ∀ r ∈ records, Record.Fits s r)
    (kind : s.kind? name = some k) (v : Value) :
    (sortedBy name records).Pairwise fun q r =>
      within .atMost name v r = true → within .atMost name v q = true := by
  refine (pairwise_sortedBy fits).imp_of_mem fun {q r} hq hr order => ?_
  obtain ⟨a, ha, holdsA⟩ := exists_field kind (fits q (mem_sortedBy.mp hq))
  obtain ⟨b, hb, holdsB⟩ := exists_field kind (fits r (mem_sortedBy.mp hr))
  rw [within_atMost_iff ha, within_atMost_iff hb]
  exact (Value.comparedWith_mono holdsA holdsB (order a b ha hb) v).1

theorem falling_less [Engine] (fits : ∀ r ∈ records, Record.Fits s r) (kind : s.kind? name = some k)
    {v : Value} (plain : ¬(v = .text "null" ∧ StraddlesNull name records)) :
    (sortedBy name records).Pairwise fun q r =>
      within .less name v r = true → within .less name v q = true := by
  refine (pairwise_sortedBy fits).imp_of_mem fun {q r} hq hr order => ?_
  obtain ⟨a, ha, holdsA⟩ := exists_field kind (fits q (mem_sortedBy.mp hq))
  obtain ⟨b, hb, holdsB⟩ := exists_field kind (fits r (mem_sortedBy.mp hr))
  rw [within_less_iff ha, within_less_iff hb]
  intro below
  refine (Value.comparedWith_mono holdsA holdsB (order a b ha hb) v).2 ?_ below
  rintro ⟨rfl, rfl, value⟩
  rw [Value.comparedWith, Value.retyped_text_null value] at below
  exact plain ⟨rfl, ⟨q, mem_sortedBy.mp hq, ha⟩, r, mem_sortedBy.mp hr, b, hb, value, below⟩

/-- With the text `null` for the bound, a record without a value stands before one below the bound and
is not below it. -/
theorem filter_less_ne_take [Engine] (fits : ∀ r ∈ records, Record.Fits s r)
    (straddles : StraddlesNull name records) (m : Nat) :
    (sortedBy name records).filter (within .less name (.text "null")) ≠
      (sortedBy name records).take m := by
  intro front
  obtain ⟨⟨q, hq, empty⟩, r, hr, b, has, value, below⟩ := straddles
  have out : within .less name (.text "null") q = false := by
    rw [← Bool.not_eq_true, within_less_iff empty]
    exact nofun
  have inside : within .less name (.text "null") r = true := by
    rw [within_less_iff has, Value.comparedWith, Value.retyped_text_null value]
    exact below
  have before : r ∈ (sortedBy name records).take m := by
    rw [← front]
    exact List.mem_filter.mpr ⟨mem_sortedBy.mpr hr, inside⟩
  have behind : q ∈ (sortedBy name records).drop m := by
    have member : q ∈ sortedBy name records := mem_sortedBy.mpr hq
    rw [← List.take_append_drop m (sortedBy name records), List.mem_append, ← front] at member
    refine member.resolve_left fun among => ?_
    cases out.symm.trans (List.mem_filter.mp among).2
  have order : (sortedBy name records).Pairwise _ := pairwise_sortedBy fits
  rw [← List.take_append_drop m (sortedBy name records), List.pairwise_append] at order
  exact order.2.2 r before q behind b .null has empty (Value.compare_null_eq_gt value)

/-- Of records sorted by a field, those at most a bound are a stretch at the front and those above it
the rest; those below the bound are among the former, and those at least it are all others. The records
below are a stretch at the front as well and those at least the bound the rest, except where the bound
is the text `null` and both an empty field and a value before that text occur. -/
theorem ranges_of_sortedBy [Engine] (fits : ∀ r ∈ records, Record.Fits s r)
    (kind : s.kind? name = some k) (v : Value) :
    let sorted := sortedBy name records
    let matched (op : Operator) := sorted.filter (within op name v)
    ∃ n, matched .atMost = sorted.take n ∧ matched .greater = sorted.drop n ∧
      (∀ r ∈ sorted, (within .less name v r = true → within .atMost name v r = true) ∧
        (within .atLeast name v r = true ↔ ¬ within .less name v r = true)) ∧
      ((∃ m ≤ n, matched .less = sorted.take m ∧ matched .atLeast = sorted.drop m) ↔
        ¬(v = .text "null" ∧ StraddlesNull name records)) := by
  intro sorted matched
  have has : ∀ r ∈ sorted, ∃ a, r.field? name = some a := fun r hr =>
    (exists_field kind (fits r (mem_sortedBy.mp hr))).imp fun _ h => h.1
  have weaker : ∀ r ∈ sorted, within .less name v r = true → within .atMost name v r = true := by
    intro r hr below
    obtain ⟨a, ha⟩ := has r hr
    rw [within_less_iff ha] at below
    rw [within_atMost_iff ha, below]
    exact nofun
  have greater : matched .greater = sorted.filter (!within .atMost name v ·) :=
    List.filter_congr fun r hr => (has r hr).elim fun _ h => within_greater h
  have atLeast : matched .atLeast = sorted.filter (!within .less name v ·) :=
    List.filter_congr fun r hr => (has r hr).elim fun _ h => within_atLeast h
  obtain ⟨front, rest⟩ := filter_eq_take (falling_atMost fits kind v)
  refine ⟨sorted.countP (within .atMost name v), front, greater.trans rest, ?_, ?_⟩
  · intro r hr
    obtain ⟨a, ha⟩ := has r hr
    refine ⟨weaker r hr, ?_⟩
    rw [within_atLeast ha, Bool.not_eq_true', Bool.not_eq_true]
  · constructor
    · rintro ⟨m, -, below, -⟩ ⟨rfl, straddles⟩
      exact filter_less_ne_take fits straddles m below
    · intro plain
      obtain ⟨front, rest⟩ := filter_eq_take (falling_less fits kind plain)
      exact ⟨sorted.countP (within .less name v), List.countP_mono_left weaker, front,
        atLeast.trans rest⟩

/-- A privilege with a description or without one. -/
def described (n : Nat) (description : Option String) : Record :=
  Repository.privilegeNumbered n "active" description

def describedPrivileges : List Record :=
  [described 1 (some "b"), described 2 none, described 3 (some "d"), described 4 (some "b")]

theorem fits_describedPrivileges : ∀ r ∈ describedPrivileges, Record.Fits .privilege r := by
  simp [describedPrivileges, described, Repository.fits_privilegeNumbered]

theorem sortedBy_describedPrivileges : sortedBy "description" describedPrivileges =
    [described 2 none, described 1 (some "b"), described 4 (some "b"), described 3 (some "d")] := by
  let notAfter := Repository.notAfter [⟨"description", .ascending⟩]
  have firstHalf : notAfter (described 1 (some "b")) (described 2 none) = false := rfl
  have secondHalf : notAfter (described 3 (some "d")) (described 4 (some "b")) = false := rfl
  have heads : notAfter (described 2 none) (described 4 (some "b")) = true := rfl
  have ties : notAfter (described 1 (some "b")) (described 4 (some "b")) = true := rfl
  simp only [notAfter] at firstHalf secondHalf heads ties
  simp [sortedBy, describedPrivileges, List.mergeSort, firstHalf, secondHalf, heads, ties]

/-- Two of four privileges tie with the bound and one has no description. -/
theorem ranges_of_describedPrivileges :
    let sorted := sortedBy "description" describedPrivileges
    let matched (op : Operator) := sorted.filter (within op "description" (.text "b"))
    (∀ r ∈ describedPrivileges, Record.Fits .privilege r) ∧
      Schema.privilege.kind? "description" = some .optionalText ∧
      sorted.map Record.key = [.ofNat 2, .ofNat 1, .ofNat 4, .ofNat 3] ∧
      (matched .less).map Record.key = [.ofNat 2] ∧
      (matched .greater).map Record.key = [.ofNat 3] ∧
      ∃ n, matched .atMost = sorted.take n ∧ matched .greater = sorted.drop n ∧
        (∀ r ∈ sorted, (within .less "description" (.text "b") r = true →
            within .atMost "description" (.text "b") r = true) ∧
          (within .atLeast "description" (.text "b") r = true ↔
            ¬ within .less "description" (.text "b") r = true)) ∧
        ((∃ m ≤ n, matched .less = sorted.take m ∧ matched .atLeast = sorted.drop m) ↔
          ¬(Value.text "b" = .text "null" ∧ StraddlesNull "description" describedPrivileges)) := by
  intro sorted matched
  have kind : Schema.privilege.kind? "description" = some .optionalText := by decide
  have order : sorted = _ := sortedBy_describedPrivileges
  refine ⟨fits_describedPrivileges, kind, ?_, ?_, ?_,
    ranges_of_sortedBy fits_describedPrivileges kind (.text "b")⟩
  · rw [order]
    rfl
  · simp only [matched, order]
    rfl
  · simp only [matched, order]
    rfl

/-- Of the same privileges all with a description are below the text `null`. The one without stands
before them and is not. -/
theorem described_below_null :
    let sorted := sortedBy "description" describedPrivileges
    let below := sorted.filter (within .less "description" (.text "null"))
    sorted.map Record.key = [.ofNat 2, .ofNat 1, .ofNat 4, .ofNat 3] ∧
      below.map Record.key = [.ofNat 1, .ofNat 4, .ofNat 3] ∧ ∀ m, below ≠ sorted.take m := by
  intro sorted below
  have order : sorted = _ := sortedBy_describedPrivileges
  have keys : below.map Record.key = [.ofNat 1, .ofNat 4, .ofNat 3] := by
    simp only [below, order]
    rfl
  refine ⟨by rw [order]; rfl, keys, fun m front => ?_⟩
  rw [front, order, List.map_take] at keys
  cases m with
  | zero => cases keys
  | succ m => exact absurd (List.cons.inj keys).1 (by decide)

end Query

end BackOffice
