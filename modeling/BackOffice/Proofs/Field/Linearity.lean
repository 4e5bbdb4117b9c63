import BackOffice.Proofs.Field.Order
import BackOffice.Proofs.Field.Retyping

/-!
# How far the order of values is linear

Comparing is symmetric for all values. It is also transitive once every whole number is taken in
double precision, and whole numbers among themselves are in their own order, which is finer: beyond
the fifty-third bit several of them have one double. Each of these ties with that double, though no
two of them tie. Nowhere else is the order not transitive.
-/
namespace BackOffice.Field.Value

/-! ## Coarse and fine -/

/-- A whole number in double precision. Any other value is left as it is. -/
def blurred : Value → Value
  | int n => float (asFloat n)
  | v => v

@[simp] theorem blurred_int (n : Int64) : (int n).blurred = float (asFloat n) := rfl

@[simp] theorem blurred_float (x : Binary64) : (float x).blurred = float x := rfl

/-- The order by ranks and then by places, with whole numbers in double precision. -/
def coarse : Value → Value → Ordering :=
  compareLex (compareOn rank)
    (compareLex (compareOn fun v => v.blurred.place?) (compareOn fun v => v.blurred.text?))

instance : Std.TransCmp coarse :=
  inferInstanceAs (Std.TransCmp (compareLex (compareOn rank)
    (compareLex (compareOn fun v => v.blurred.place?) (compareOn fun v => v.blurred.text?))))

/-- What whole numbers among themselves are told apart by. -/
def fine : Value → Value → Ordering
  | int m, int n => Ord.compare m.toInt n.toInt
  | _, _ => .eq

variable {a b c : Value}

theorem coarse_eq_then (a b : Value) :
    a.coarse b = (Ord.compare a.rank b.rank).then (a.blurred.placing b.blurred) := rfl

theorem compare_of_rank_ne (apart : a.rank ≠ b.rank) :
    a.compare b = Ord.compare a.rank b.rank := by
  cases a <;> cases b <;> first | rfl | exact absurd rfl apart

theorem coarse_of_rank_ne (apart : a.rank ≠ b.rank) : a.coarse b = Ord.compare a.rank b.rank := by
  rw [coarse_eq_then]
  cases order : Ord.compare a.rank b.rank with
  | eq => exact absurd (Std.LawfulEqCmp.eq_of_compare order) apart
  | lt | gt => rfl

theorem coarse_of_rank_eq (same : a.rank = b.rank) : a.coarse b = a.blurred.placing b.blurred := by
  rw [coarse_eq_then, same, Nat.compare_eq_eq.mpr rfl]
  rfl

theorem placing_float (x y : Binary64) : (float x).placing (float y) = x.totalCompare y :=
  placing_of_place? rfl rfl

theorem fine_of_rank_ne (apart : a.rank ≠ b.rank) : a.fine b = .eq := by
  cases a with
  | int m =>
    cases b with
    | int n => exact absurd rfl apart
    | text | float | bool | uuid | instant | null => rfl
  | text | float | bool | uuid | instant | null => rfl

/-- Whole numbers do not change their order in double precision, though some of them tie there. -/
theorem compare_int (m n : Int64) :
    (int m).compare (int n) =
      ((asFloat m).totalCompare (asFloat n)).then (Ord.compare m.toInt n.toInt) := by
  rw [totalCompare_asFloat]
  split
  · rfl
  · exact (Ordering.then_self).symm

/-- Values of one rank are compared coarsely and, where that does not tell them apart, finely. -/
theorem compare_of_rank_eq (same : a.rank = b.rank) :
    a.compare b = (a.blurred.placing b.blurred).then (a.fine b) := by
  cases a with
  | int m =>
    cases b with
    | int n => rw [compare_int, blurred_int, blurred_int, placing_float, fine]
    | float y => exact ((Ordering.then_eq).trans (placing_float _ y)).symm
    | text | bool | uuid | instant | null => cases same
  | float x =>
    cases b with
    | int n => exact ((Ordering.then_eq).trans (placing_float x _)).symm
    | float y => exact ((Ordering.then_eq).trans (placing_float x y)).symm
    | text | bool | uuid | instant | null => cases same
  | text s =>
    cases b with
    | text t => exact (compare_eq_placing (.text s) (.text t)).trans Ordering.then_eq.symm
    | int | float | bool | uuid | instant | null => cases same
  | bool p =>
    cases b with
    | bool q => exact (compare_eq_placing (.bool p) (.bool q)).trans Ordering.then_eq.symm
    | int | float | text | uuid | instant | null => cases same
  | uuid u =>
    cases b with
    | uuid w => exact (compare_eq_placing (.someUuid u) (.someUuid w)).trans Ordering.then_eq.symm
    | int | float | text | bool | instant | null => cases same
  | instant t =>
    cases b with
    | instant w =>
      exact (compare_eq_placing (.someInstant t) (.someInstant w)).trans Ordering.then_eq.symm
    | int | float | text | bool | uuid | null => cases same
  | null =>
    cases b with
    | null => rfl
    | int | float | text | bool | uuid | instant => cases same

/-- Values are compared coarsely and, where that does not tell them apart, finely. -/
theorem compare_eq_then (a b : Value) : a.compare b = (a.coarse b).then (a.fine b) := by
  by_cases same : a.rank = b.rank
  · rw [compare_of_rank_eq same, coarse_of_rank_eq same]
  · rw [compare_of_rank_ne same, coarse_of_rank_ne same, fine_of_rank_ne same, Ordering.then_eq]

theorem fine_swap (a b : Value) : a.fine b = (b.fine a).swap := by
  cases a with
  | int m =>
    cases b with
    | int n => exact Std.OrientedOrd.eq_swap
    | text | float | bool | uuid | instant | null => rfl
  | text | float | bool | uuid | instant | null =>
    cases b <;> rfl

theorem compare_swap (a b : Value) : a.compare b = (b.compare a).swap := by
  have coarsely : a.coarse b = (b.coarse a).swap := Std.OrientedCmp.eq_swap
  rw [compare_eq_then, compare_eq_then b a, Ordering.swap_then, ← coarsely, ← fine_swap]

/-! ## Where the order is not transitive -/

/-- Of three values, each not after the next, two are different whole numbers of one double and the
third is that double. Where it stands between them, they stand the wrong way round. -/
inductive Tangled : Value → Value → Value → Prop
  | around {m n : Int64} (falling : n.toInt < m.toInt) (one : asFloat m = asFloat n) :
      Tangled (int m) (float (asFloat m)) (int n)
  | before {m n : Int64} (rising : m.toInt < n.toInt) (one : asFloat m = asFloat n) :
      Tangled (int m) (int n) (float (asFloat n))
  | after {m n : Int64} (rising : m.toInt < n.toInt) (one : asFloat m = asFloat n) :
      Tangled (float (asFloat m)) (int m) (int n)

/-- The third step of a triangle is told by the other two: it does not go back, and it stays in place
only if both do. -/
def Closes (ab bc ac : Ordering) : Prop :=
  ac ≠ .gt ∧ (ac = .eq → ab = .eq ∧ bc = .eq)

theorem coarse_int_int (m n : Int64) :
    (int m).coarse (int n) = (asFloat m).totalCompare (asFloat n) := by
  have same : (int m).rank = (int n).rank := rfl
  rw [coarse_of_rank_eq same, blurred_int, blurred_int, placing_float]

theorem coarse_int_float (m : Int64) (y : Binary64) :
    (int m).coarse (float y) = (asFloat m).totalCompare y := by
  have same : (int m).rank = (float y).rank := rfl
  rw [coarse_of_rank_eq same, blurred_int, blurred_float, placing_float]

/-- What ties with a whole number in double precision. -/
theorem coarse_int_eq_iff {m : Int64} : (int m).coarse b = .eq ↔
    (∃ n, b = int n ∧ asFloat m = asFloat n) ∨ b = float (asFloat m) := by
  constructor
  · intro tie
    have same : (int m).rank = b.rank := by
      by_contra apart
      rw [coarse_of_rank_ne apart] at tie
      exact apart (Std.LawfulEqCmp.eq_of_compare tie)
    cases b with
    | int n =>
      rw [coarse_int_int, Binary64.totalCompare_eq_iff] at tie
      exact .inl ⟨n, rfl, tie⟩
    | float y =>
      rw [coarse_int_float, Binary64.totalCompare_eq_iff] at tie
      exact .inr (congrArg float tie.symm)
    | text | bool | uuid | instant | null => cases same
  · rintro (⟨n, rfl, one⟩ | rfl)
    · rw [coarse_int_int, Binary64.totalCompare_eq_iff]
      exact one
    · rw [coarse_int_float, Binary64.totalCompare_eq_iff]

theorem coarse_eq_comm : a.coarse b = .eq ↔ b.coarse a = .eq := Std.OrientedCmp.eq_comm

theorem Tangled.coarse_eq (h : Tangled a b c) : a.coarse c = .eq := by
  cases h with
  | around _ one => exact coarse_int_eq_iff.mpr (.inl ⟨_, rfl, one⟩)
  | before _ one => exact coarse_int_eq_iff.mpr (.inr (congrArg float one.symm))
  | after _ one => exact coarse_eq_comm.mp (coarse_int_eq_iff.mpr (.inr (congrArg float one)))

theorem compare_of_tie (tie : a.coarse b = .eq) : a.compare b = a.fine b := by
  rw [compare_eq_then, tie]
  rfl

theorem fine_of_not_int (other : ∀ n, a ≠ int n) (b : Value) : a.fine b = .eq := by
  cases a with
  | int m => exact absurd rfl (other m)
  | text | float | bool | uuid | instant | null => rfl

theorem fine_int_float (m : Int64) (x : Binary64) : (int m).fine (float x) = .eq := rfl

theorem not_tangled_of_floats {x y : Binary64} : ¬ Tangled (float x) b (float y) := nofun

theorem Tangled.falling {x : Binary64} {m n : Int64} (h : Tangled (int m) (float x) (int n)) :
    n.toInt < m.toInt := by
  cases h with
  | around falling _ => exact falling

theorem Tangled.rising {x : Binary64} {m n : Int64} (h : Tangled (float x) (int m) (int n)) :
    m.toInt < n.toInt := by
  cases h with
  | after rising _ => exact rising

theorem closes_before_iff {o : Ordering} : Closes o .eq .eq ↔ o = .eq := by
  cases o <;> simp [Closes]

theorem closes_after_iff {o : Ordering} : Closes .eq o .eq ↔ o = .eq := by
  cases o <;> simp [Closes]

theorem closes_around_iff {o : Ordering} : Closes .eq .eq o ↔ o ≠ .gt := by
  cases o <;> simp [Closes]

theorem closes_self : Closes .eq .eq .eq := closes_around_iff.mpr nofun

theorem fine_int_eq_iff {m n : Int64} (order : (int m).fine (int n) ≠ .gt) :
    (int m).fine (int n) = .eq ↔ ¬ m.toInt < n.toInt := by
  simp only [fine, ne_eq, Int.compare_eq_gt, Int.compare_eq_eq] at order ⊢
  omega

/-- Of values that tie coarsely with a whole number, each is a whole number of the same double or that
double. Only the former are told apart, and only from each other. -/
theorem closes_fine_iff (ab : a.coarse b = .eq) (bc : b.coarse c = .eq) (ac : a.coarse c = .eq)
    (first : a.fine b ≠ .gt) (second : b.fine c ≠ .gt) :
    Closes (a.fine b) (b.fine c) (a.fine c) ↔ ¬ Tangled a b c := by
  by_cases whole : ∃ m, a = int m
  · obtain ⟨m, rfl⟩ := whole
    rcases coarse_int_eq_iff.mp ab with ⟨n, rfl, one⟩ | rfl
    · rcases coarse_int_eq_iff.mp bc with ⟨k, rfl, _⟩ | rfl
      · -- three whole numbers
        refine iff_of_true ?_ nofun
        simp only [Closes, fine, ne_eq, Int.compare_eq_gt, Int.compare_eq_eq] at first second ⊢
        omega
      · -- two whole numbers before their double
        rw [fine_int_float, fine_int_float, closes_before_iff, fine_int_eq_iff first]
        refine not_congr ⟨fun rising => .before rising one, ?_⟩
        rintro ⟨⟩
        assumption
    · rcases coarse_int_eq_iff.mp ac with ⟨n, rfl, one⟩ | rfl
      · -- two whole numbers around their double
        have float_fine (x : Binary64) : (float x).fine (int n) = .eq := rfl
        rw [fine_int_float, float_fine, closes_around_iff]
        simp only [fine, ne_eq, Int.compare_eq_gt]
        exact not_congr ⟨fun falling => .around falling one, Tangled.falling⟩
      · exact iff_of_true closes_self nofun
  · rw [fine_of_not_int (not_exists.mp whole) b, fine_of_not_int (not_exists.mp whole) c]
    by_cases next : ∃ m, b = int m
    · obtain ⟨m, rfl⟩ := next
      rcases coarse_int_eq_iff.mp (coarse_eq_comm.mp ab) with ⟨n, rfl, _⟩ | rfl
      · exact absurd ⟨n, rfl⟩ whole
      · rcases coarse_int_eq_iff.mp bc with ⟨n, rfl, one⟩ | rfl
        · -- two whole numbers after their double
          rw [closes_after_iff, fine_int_eq_iff second]
          exact not_congr ⟨fun rising => .after rising one, Tangled.rising⟩
        · rw [fine_int_float]
          exact iff_of_true closes_self not_tangled_of_floats
    · rw [fine_of_not_int (not_exists.mp next) c]
      refine iff_of_true closes_self ?_
      rintro (_ | _ | _)
      · exact whole ⟨_, rfl⟩
      · exact whole ⟨_, rfl⟩
      · exact next ⟨_, rfl⟩

/-- Where the first two steps do not go back, they do not go back coarsely, nor finely where they tie
coarsely. -/
theorem compare_ne_gt_iff : a.compare b ≠ .gt ↔
    (a.coarse b).isLE = true ∧ (a.coarse b = .eq → a.fine b ≠ .gt) := by
  rw [compare_eq_then]
  cases a.coarse b <;> simp [Ordering.then]

theorem closes_iff (first : a.compare b ≠ .gt) (second : b.compare c ≠ .gt) :
    Closes (a.compare b) (b.compare c) (a.compare c) ↔ ¬ Tangled a b c := by
  obtain ⟨coarseAB, fineAB⟩ := compare_ne_gt_iff.mp first
  obtain ⟨coarseBC, fineBC⟩ := compare_ne_gt_iff.mp second
  have coarseAC : (a.coarse c).isLE = true := Std.TransCmp.isLE_trans coarseAB coarseBC
  by_cases tie : a.coarse c = .eq
  · -- then all three tie
    have back : (c.coarse a).isLE = true := by
      rw [coarse_eq_comm.mp tie]
      rfl
    have ab : a.coarse b = .eq :=
      Std.OrientedCmp.isLE_antisymm coarseAB (Std.TransCmp.isLE_trans coarseBC back)
    have bc : b.coarse c = .eq :=
      Std.OrientedCmp.isLE_antisymm coarseBC (Std.TransCmp.isLE_trans back coarseAB)
    rw [compare_of_tie ab, compare_of_tie bc, compare_of_tie tie]
    exact closes_fine_iff ab bc tie (fineAB ab) (fineBC bc)
  · have less : a.compare c = .lt := by
      rw [compare_eq_then]
      cases order : a.coarse c with
      | lt => rfl
      | eq => exact absurd order tie
      | gt =>
        rw [order] at coarseAC
        cases coarseAC
    rw [less]
    exact iff_of_true ⟨nofun, nofun⟩ fun tangled => tie tangled.coarse_eq

/-- Whole numbers of fifty-three bits are kept apart in double precision. -/
theorem not_tangled_of_exact
    (exact : ∀ n, int n ∈ [a, b, c] → n.toInt.natAbs < 2 ^ 53) : ¬ Tangled a b c := by
  have apart {m n : Int64} (small : m.toInt.natAbs < 2 ^ 53) (one : asFloat n = asFloat m) :
      n.toInt = m.toInt := Binary64.ofInt_inj small one
  rintro (⟨falling, one⟩ | ⟨rising, one⟩ | ⟨rising, one⟩)
  all_goals
    have same := apart (exact _ (by simp)) one
    omega

/-- Any two values compare the opposite way round, and of three values in order the third step is
told by the other two, except where two whole numbers have one double and the third value is that
double. Among values whose whole numbers have fifty-three bits nothing is excepted. -/
theorem compare_linear_iff (a b c : Value) :
    a.compare b = (b.compare a).swap ∧
    (a.compare b ≠ .gt → b.compare c ≠ .gt →
      ((a.compare c ≠ .gt ∧ (a.compare c = .eq → a.compare b = .eq ∧ b.compare c = .eq)) ↔
        ¬ Tangled a b c)) ∧
    ((∀ n, int n ∈ [a, b, c] → n.toInt.natAbs < 2 ^ 53) → ¬ Tangled a b c) :=
  ⟨compare_swap a b, closes_iff, not_tangled_of_exact⟩

/-- A double at the end of the fifty-three bits between the whole number that it is and the one after
the next, which has a double of its own. -/
theorem compare_linear_at_double :
    let least := int 9007199254740992
    let double := float (asFloat 9007199254740992)
    let next := int 9007199254740994
    least.compare double ≠ .gt ∧ double.compare next ≠ .gt ∧ ¬ Tangled least double next ∧
      least.compare next ≠ .gt ∧
      (least.compare next = .eq → least.compare double = .eq ∧ double.compare next = .eq) := by
  intro least double next
  have first : least.compare double ≠ .gt := by decide +kernel
  have second : double.compare next ≠ .gt := by decide +kernel
  have free : ¬ Tangled least double next := by
    intro tangled
    exact absurd tangled.falling (by decide)
  obtain ⟨_, closes, _⟩ := compare_linear_iff least double next
  exact ⟨first, second, free, (closes first second).mpr free⟩

/-- The least whole number that has no double of its own ties with that of the number before it. -/
theorem compare_not_linear :
    let odd := int 9007199254740993
    let double := float (asFloat 9007199254740992)
    let even := int 9007199254740992
    odd.compare double = .eq ∧ double.compare even = .eq ∧ odd.compare even = .gt ∧
      ¬ ∀ a b c : Value, a.compare b = (b.compare a).swap ∧
        (a.compare b ≠ .gt → b.compare c ≠ .gt →
          a.compare c ≠ .gt ∧ (a.compare c = .eq → a.compare b = .eq ∧ b.compare c = .eq)) := by
  intro odd double even
  have first : odd.compare double = .eq := by decide +kernel
  have second : double.compare even = .eq := by decide +kernel
  have back : odd.compare even = .gt := by decide +kernel
  refine ⟨first, second, back, fun linear => ?_⟩
  obtain ⟨_, closes⟩ := linear odd double even
  exact (closes (by simp [first]) (by simp [second])).1 back

end BackOffice.Field.Value
