import BackOffice.Proofs.Number.Numeral
import BackOffice.Proofs.Number.Rounding

/-!
# Decimals read back

The text of a number in double precision is read as that number; a number that is none has only one
text, which is read as the one that the reader makes. The digits that are written lie in the cell of
the magnitude, and reading rounds them back to it. That there are such digits at all is a matter of
seventeen places: the steps of that grid are shorter than any cell.
-/
namespace BackOffice.Binary64

open BackOffice.Numeral

/-- A decimal `significand * 10 ^ exponent` lies in the cell of a magnitude. -/
def Near (m significand : Nat) (exponent : Int) : Prop :=
  InCell m (significand * 10 ^ exponent.toNat * 2 ^ unitExponent) (10 ^ (-exponent).toNat)

theorem pow_ten_pos (n : Nat) : 0 < 10 ^ n := Nat.pow_pos (by decide)

/-- Zeros behind the digits do not matter if the exponent makes up for them. -/
theorem near_shift {m t i : Nat} {x : Int} : Near m (t * 10 ^ i) (x - i) ↔ Near m t x := by
  have exponents : i + (x - i).toNat + (-x).toNat = x.toNat + (-(x - i)).toNat := by omega
  have powers : 10 ^ i * 10 ^ (x - i).toNat * 10 ^ (-x).toNat =
      10 ^ x.toNat * 10 ^ (-(x - i)).toNat := by
    rw [← Nat.pow_add, ← Nat.pow_add, ← Nat.pow_add, exponents]
  have same (one : Nat) : t * 10 ^ i * 10 ^ (x - i).toNat * one * 10 ^ (-x).toNat =
      t * 10 ^ x.toNat * one * 10 ^ (-(x - i)).toNat := by
    calc t * 10 ^ i * 10 ^ (x - i).toNat * one * 10 ^ (-x).toNat
        = t * one * (10 ^ i * 10 ^ (x - i).toNat * 10 ^ (-x).toNat) := by ring
      _ = t * one * (10 ^ x.toNat * 10 ^ (-(x - i)).toNat) := by rw [powers]
      _ = t * 10 ^ x.toNat * one * 10 ^ (-(x - i)).toNat := by ring
  constructor
  · intro h
    exact InCell.congr h (pow_ten_pos _) (pow_ten_pos _) (same _)
  · intro h
    exact InCell.congr h (pow_ten_pos _) (pow_ten_pos _) (same _).symm

/-! ## Rounding a decimal -/

-- The exponents below are kept apart from numbers that compute: comparing powers by their exponents
-- is a matter of a step, while the powers have hundreds of digits.

theorem two_pow_lt_ten_pow {a b : Nat} (small : 2 ^ a < 10 ^ b) (k i j : Nat) (some : k ≠ 0)
    (below : i ≤ a * k) (above : b * k ≤ j) : 2 ^ i < 10 ^ j := by
  calc 2 ^ i ≤ 2 ^ (a * k) := Nat.pow_le_pow_right (by decide) below
    _ = (2 ^ a) ^ k := Nat.pow_mul ..
    _ < (10 ^ b) ^ k := Nat.pow_lt_pow_left small some
    _ = 10 ^ (b * k) := (Nat.pow_mul ..).symm
    _ ≤ 10 ^ j := Nat.pow_le_pow_right (by decide) above

theorem two_pow_mul_le (a b c d : Nat) (h : a + b ≤ c + d) : 2 ^ a * 2 ^ b ≤ 2 ^ c * 2 ^ d := by
  rw [← Nat.pow_add, ← Nat.pow_add]
  exact Nat.pow_le_pow_right (by decide) h

theorem two_mul_two_pow (i : Nat) : 2 * 2 ^ i = 2 ^ (i + 1) := by
  rw [Nat.pow_succ, Nat.mul_comm]

theorem units_lt : 2 ^ (unitExponent + 1) < 10 ^ 331 := by
  have small : 2 ^ 215 < 10 ^ 66 := by decide
  have := two_pow_lt_ten_pow small 5 (unitExponent + 1) 331 (by decide) (by decide) (by decide)
  exact this

theorem finite_lt : 2 ^ 1024 < 10 ^ 310 := by
  have small : 2 ^ 205 < 10 ^ 62 := by decide
  have := two_pow_lt_ten_pow small 5 1024 310 (by decide) (by decide) (by decide)
  exact this

theorem low_pos {m : Nat} (positive : 0 < m) : 0 < low m := by
  have own : scaled (m - 1) < scaled m := scaled_strictMono (by omega)
  rw [low]
  omega

theorem high_le {m : Nat} (finite : m < infiniteMagnitude) :
    high m ≤ 2 * (2 ^ 1024 * 2 ^ unitExponent) := by
  have place : Place infiniteMagnitude 2046 (2 ^ 52) := ⟨rfl, by decide, .inr (by decide)⟩
  have top : scaled infiniteMagnitude ≤ 2 ^ 1024 * 2 ^ unitExponent :=
    Nat.le_trans (Nat.le_of_eq place.scaled_eq)
      (two_pow_mul_le 52 2046 1024 unitExponent (by decide))
  have own : scaled m ≤ scaled infiniteMagnitude := scaled_strictMono.monotone (by omega)
  have next : scaled (m + 1) ≤ scaled infiniteMagnitude := scaled_strictMono.monotone finite
  rw [high]
  omega

section Sizes

variable {m s : Nat} {e : Int}

theorem Near.significand_ne_zero (near : Near m s e) (positive : 0 < m) : s ≠ 0 := by
  rintro rfl
  have bound := (InCell.le near).1
  have cell := Nat.mul_pos (low_pos positive) (pow_ten_pos (-e).toNat)
  omega

/-- What rounds to a positive magnitude is not too small to be looked at. -/
theorem Near.size_least (near : Near m s e) (positive : 0 < m) :
    -330 ≤ ((digits s).length : Int) + e := by
  by_contra tiny
  have bound := (InCell.le near).1
  have whole : e.toNat = 0 := by omega
  have fits : (digits s).length + 331 ≤ (-e).toNat := by omega
  have small : s * 10 ^ 331 < s * 2 ^ (unitExponent + 1) := by
    calc s * 10 ^ 331 < 10 ^ (digits s).length * 10 ^ 331 :=
          Nat.mul_lt_mul_of_pos_right (lt_pow_length_digits s) (pow_ten_pos _)
      _ = 10 ^ ((digits s).length + 331) := (pow_add ..).symm
      _ ≤ 10 ^ (-e).toNat := Nat.pow_le_pow_right (by decide) fits
      _ ≤ low m * 10 ^ (-e).toNat := Nat.le_mul_of_pos_left _ (low_pos positive)
      _ ≤ 2 * (s * 10 ^ e.toNat * 2 ^ unitExponent) := bound
      _ = s * 2 ^ (unitExponent + 1) := by
        rw [whole, Nat.pow_zero, Nat.mul_one, Nat.mul_left_comm, two_mul_two_pow]
  exact Nat.lt_asymm (Nat.lt_of_mul_lt_mul_left small) units_lt

/-- What rounds to a finite magnitude is not too large to be looked at. -/
theorem Near.size_most (near : Near m s e) (positive : 0 < m) (finite : m < infiniteMagnitude) :
    ((digits s).length : Int) + e ≤ 310 := by
  by_contra huge
  have bound := (InCell.le near).2
  have some := Nat.pos_of_ne_zero (near.significand_ne_zero positive)
  have fits : 310 + (-e).toNat ≤ (digits s).length - 1 + e.toNat := by
    have := List.length_pos_iff.mpr (digits_ne_nil s)
    omega
  have large : 10 ^ 310 * 10 ^ (-e).toNat ≤ s * 10 ^ e.toNat := by
    calc 10 ^ 310 * 10 ^ (-e).toNat = 10 ^ (310 + (-e).toNat) := (pow_add ..).symm
      _ ≤ 10 ^ ((digits s).length - 1 + e.toNat) := Nat.pow_le_pow_right (by decide) fits
      _ = 10 ^ ((digits s).length - 1) * 10 ^ e.toNat := Nat.pow_add ..
      _ ≤ s * 10 ^ e.toNat := Nat.mul_le_mul_right _ (pow_length_digits_le some)
  have within :
      s * 10 ^ e.toNat * 2 ^ unitExponent ≤ 2 ^ 1024 * 10 ^ (-e).toNat * 2 ^ unitExponent := by
    have top := Nat.mul_le_mul_right (10 ^ (-e).toNat) (high_le finite)
    generalize 2 ^ unitExponent = one at bound top ⊢
    generalize 2 ^ 1024 = most at top ⊢
    have order : most * 10 ^ (-e).toNat * one = most * one * 10 ^ (-e).toNat := by ring
    have twice : 2 * (most * one) * 10 ^ (-e).toNat = 2 * (most * one * 10 ^ (-e).toNat) :=
      Nat.mul_assoc ..
    omega
  have cancelled := Nat.le_of_mul_le_mul_right within (Nat.two_pow_pos unitExponent)
  have small := Nat.le_of_mul_le_mul_right (Nat.le_trans large cancelled) (pow_ten_pos _)
  exact Nat.not_le.mpr finite_lt small

end Sizes

/-- A decimal is rounded to the magnitude in whose cell it lies; the answers given without building
the powers are those for decimals in no such cell. -/
theorem roundDecimal_eq {m s : Nat} {e : Int} (near : Near m s e) (positive : 0 < m)
    (finite : m < infiniteMagnitude) : roundDecimal s e = m := by
  have some := near.significand_ne_zero positive
  have least := near.size_least positive
  have most := near.size_most positive finite
  rw [roundDecimal, if_neg (by omega), if_neg (by omega)]
  split
  · next whole =>
    have unit : (-e).toNat = 0 := by omega
    rw [Near, unit, Nat.pow_zero] at near
    exact roundRatio_eq (by decide) (Nat.le_of_lt finite) near
  · next fraction =>
    have unit : e.toNat = 0 := by omega
    rw [Near, unit, Nat.pow_zero, Nat.mul_one] at near
    exact roundRatio_eq (pow_ten_pos _) (Nat.le_of_lt finite) near

/-! ## The digits that are written -/

/-- Whether a multiple of a power of ten rounds to a magnitude. -/
def inside (m : Nat) (power : Int) (c : Nat) : Bool :=
  let unit := 2 ^ (unitExponent + 1) * 10 ^ power.toNat
  let scale := 10 ^ (-power).toNat
  if m % 2 = 0 then low m * scale ≤ c * unit && c * unit ≤ high m * scale
  else low m * scale < c * unit && c * unit < high m * scale

theorem inside_iff {m c : Nat} {power : Int} : inside m power c = true ↔ Near m c power := by
  have unit : c * (2 ^ (unitExponent + 1) * 10 ^ power.toNat) =
      2 * (c * 10 ^ power.toNat * 2 ^ unitExponent) := by
    rw [← two_mul_two_pow]
    generalize 2 ^ unitExponent = one
    ring
  rw [inside, Near, InCell]
  simp only [unit]
  split <;> simp only [Bool.and_eq_true, decide_eq_true_eq]

/-- The multiple of a power of ten that is not above a magnitude. -/
def below (m : Nat) (power : Int) : Nat :=
  2 * scaled m * 10 ^ (-power).toNat / (2 ^ (unitExponent + 1) * 10 ^ power.toNat)

/-- Of the two multiples around a magnitude those that round to it are taken, if there are any. -/
theorem onGrid?_eq (m places : Nat) : onGrid? m places =
    let power := leadingPoint (2 * scaled m) - places
    let unit := 2 ^ (unitExponent + 1) * 10 ^ power.toNat
    let upperNearer := unit ≤ 2 * (2 * scaled m * 10 ^ (-power).toNat % unit)
    match inside m power (below m power), inside m power (below m power + 1) with
    | true, true => some (if upperNearer then below m power + 1 else below m power, power)
    | true, false => some (below m power, power)
    | false, true => some (below m power + 1, power)
    | false, false => none := rfl

theorem near_of_onGrid? {m places c : Nat} {power : Int} (h : onGrid? m places = some (c, power)) :
    Near m c power ∧ power = leadingPoint (2 * scaled m) - places := by
  rw [← inside_iff]
  rw [onGrid?_eq] at h
  dsimp only at h
  split at h
  · next this above =>
    split at h
    · cases h
      exact ⟨above, rfl⟩
    · cases h
      exact ⟨this, rfl⟩
  · next this _ =>
    cases h
    exact ⟨this, rfl⟩
  · next _ this =>
    cases h
    exact ⟨this, rfl⟩
  · cases h

/-- Cells are no shorter than one part in `2 ^ 53` of what they stand for. -/
theorem cell_wide {m : Nat} (positive : 0 < m) :
    2 * scaled m + 2 ^ 53 * low m ≤ 2 ^ 53 * high m := by
  obtain ⟨e, k, p, inner⟩ := exists_place m
  have next := (p.succ inner).scaled_eq
  have own := p.scaled_eq
  have some : 0 < k := by
    have := p.eq
    have := p.normal
    omega
  rw [low, high, next, own]
  have grown : (k + 1) * 2 ^ e = k * 2 ^ e + 2 ^ e := by ring
  have bound : k * 2 ^ e ≤ 2 ^ 53 * 2 ^ e := Nat.mul_le_mul_right _ (Nat.le_of_lt inner)
  obtain wide | bottom : (e = 0 ∨ 2 ^ 52 < k) ∨ k = 2 ^ 52 := by
    have := p.normal
    omega
  · have before := (p.pred some wide).scaled_eq
    have shrunk : (k - 1) * 2 ^ e + 2 ^ e = k * 2 ^ e := by
      rw [← Nat.succ_mul, Nat.succ_eq_add_one, Nat.sub_add_cancel some]
    rw [before]
    omega
  · have before : scaled (m - 1) ≤ scaled m := scaled_strictMono.monotone (by omega)
    rw [own] at before
    subst bottom
    omega

/-- The powers of ten are at most one part in `10 ^ 16` of a value `halves * 2 ^ -1075`. -/
def ShortSteps (halves : Nat) (power : Int) : Prop :=
  2 ^ (unitExponent + 1) * 10 ^ power.toNat * 10 ^ 16 ≤ halves * 10 ^ (-power).toNat

theorem shortSteps_seventeen {halves : Nat} (positive : 0 < halves) {power : Int}
    (seventeen : power = leadingPoint halves - 17) : ShortSteps halves power := by
  have unit := Nat.two_pow_pos (unitExponent + 1)
  rw [ShortSteps]
  rw [leadingPoint] at seventeen
  generalize 2 ^ (unitExponent + 1) = one at *
  split at seventeen
  · next large =>
    have leading := pow_length_digits_le (Nat.div_pos large unit)
    have exponents : power.toNat + 16 = (digits (halves / one)).length - 1 + (-power).toNat := by
      have := List.length_pos_iff.mpr (digits_ne_nil (halves / one))
      omega
    generalize (digits (halves / one)).length - 1 = length at leading exponents
    calc one * 10 ^ power.toNat * 10 ^ 16
        = one * 10 ^ (power.toNat + 16) := by rw [Nat.pow_add, Nat.mul_assoc]
      _ = 10 ^ length * one * 10 ^ (-power).toNat := by
        rw [exponents, Nat.pow_add, ← Nat.mul_assoc, Nat.mul_comm one]
      _ ≤ halves / one * one * 10 ^ (-power).toNat :=
        Nat.mul_le_mul_right _ (Nat.mul_le_mul_right _ leading)
      _ ≤ halves * 10 ^ (-power).toNat :=
        Nat.mul_le_mul_right _ (Nat.div_mul_le_self halves one)
  · next small =>
    have whole : power.toNat = 0 := by omega
    have fraction : (-power).toNat = (digits ((one - 1) / halves)).length + 16 := by omega
    have length := lt_pow_length_digits ((one - 1) / halves)
    generalize (digits ((one - 1) / halves)).length = places at length fraction
    have within : one ≤ halves * 10 ^ places := by
      have := Nat.lt_mul_of_div_lt length positive
      rw [Nat.mul_comm]
      omega
    rw [whole, fraction, Nat.pow_zero, Nat.mul_one, Nat.pow_add, ← Nat.mul_assoc]
    exact Nat.mul_le_mul_right _ within

theorem outside {m c : Nat} {power : Int} (h : ¬inside m power c = true) :
    c * (2 ^ (unitExponent + 1) * 10 ^ power.toNat) ≤ low m * 10 ^ (-power).toNat ∨
      high m * 10 ^ (-power).toNat ≤ c * (2 ^ (unitExponent + 1) * 10 ^ power.toNat) := by
  rw [inside] at h
  generalize 2 ^ (unitExponent + 1) * 10 ^ power.toNat = unit at *
  split at h
  · rw [Bool.and_eq_true, decide_eq_true_eq, decide_eq_true_eq] at h
    omega
  · rw [Bool.and_eq_true, decide_eq_true_eq, decide_eq_true_eq] at h
    omega

/-- Around a positive magnitude, one of the two neighbours on a grid of short steps rounds to it. -/
theorem inside_below_or {m : Nat} (positive : 0 < m) {power : Int}
    (short : ShortSteps (2 * scaled m) power) :
    inside m power (below m power) = true ∨ inside m power (below m power + 1) = true := by
  by_contra neither
  obtain ⟨notBelow, notAbove⟩ := not_or.mp neither
  have downward := outside notBelow
  have upward := outside notAbove
  rw [below] at downward upward
  rw [ShortSteps] at short
  have pos := Nat.mul_pos (Nat.two_pow_pos (unitExponent + 1)) (pow_ten_pos power.toNat)
  have pos' := pow_ten_pos (-power).toNat
  generalize 2 ^ (unitExponent + 1) * 10 ^ power.toNat = unit at *
  generalize 10 ^ (-power).toNat = scale at *
  have under : low m < 2 * scaled m := by
    have : scaled (m - 1) < scaled m := scaled_strictMono (by omega)
    rw [low]
    omega
  have upper : 2 * scaled m < high m := by
    have := scaled_lt_succ m
    rw [high]
    omega
  have under' := Nat.mul_lt_mul_of_pos_right under pos'
  have upper' := Nat.mul_lt_mul_of_pos_right upper pos'
  have wide := Nat.mul_le_mul_right scale (cell_wide positive)
  have floor := Nat.div_add_mod' (2 * scaled m * scale) unit
  have rest := Nat.mod_lt (2 * scaled m * scale) pos
  rw [Nat.add_mul, Nat.mul_assoc (2 ^ 53), Nat.mul_assoc (2 ^ 53)] at wide
  rw [Nat.succ_mul] at upward
  -- Neither neighbour lies between the midpoints, so a step is no shorter than the cell.
  omega

theorem isSome_onGrid? {m places : Nat} {power : Int}
    (same : power = leadingPoint (2 * scaled m) - places)
    (either : inside m power (below m power) = true ∨ inside m power (below m power + 1) = true) :
    (onGrid? m places).isSome = true := by
  rw [onGrid?_eq, ← same]
  rcases either with first | second
  · simp only [first]
    cases inside m power (below m power + 1) <;> rfl
  · simp only [second]
    cases inside m power (below m power) <;> rfl

theorem onGrid?_seventeen {m : Nat} (positive : 0 < m) : (onGrid? m 17).isSome = true := by
  have value : 0 < 2 * scaled m := by
    have : scaled 0 < scaled m := scaled_strictMono positive
    omega
  exact isSome_onGrid? rfl (inside_below_or positive (shortSteps_seventeen value rfl))

/-- The digits that are written stand on the first grid that has any, so on none with more places
than one that has. -/
theorem shortest_of_onGrid? {m n : Nat} (places : n < 17)
    (some : (onGrid? m (n + 1)).isSome = true) :
    ∃ l ≤ n, ∃ c power, onGrid? m (l + 1) = .some (c, power) ∧ shortest m =
      ⟨withoutTrailingZeros (digits c), (digits c).length + power⟩ := by
  have tried : n ∈ List.range 17 := List.mem_range.mpr places
  cases found : (List.range 17).findSome? fun n => onGrid? m (n + 1) with
  | none =>
    have none := List.findSome?_eq_none_iff.mp found n tried
    rw [none] at some
    cases some
  | some pair =>
    obtain ⟨before, l, after, split, made, none⟩ := List.findSome?_eq_some_iff.mp found
    refine ⟨l, ?_, pair.1, pair.2, made, ?_⟩
    · have ordered : (List.range 17).Pairwise (· < ·) := List.pairwise_lt_range
      rw [split] at tried ordered
      rcases List.mem_append.mp tried with earlier | this
      · rw [none n earlier] at some
        cases some
      · have rest := (List.pairwise_append.mp ordered).2.1
        rcases List.mem_cons.mp this with same | behind
        · exact Nat.le_of_eq same.symm
        · exact Nat.le_of_lt (List.rel_of_pairwise_cons rest behind)
    · rw [shortest, found]

/-- The digits written for a positive magnitude are those of a decimal in its cell. -/
theorem exists_near_shortest {m : Nat} (positive : 0 < m) :
    ∃ c power, Near m c power ∧ shortest m =
      ⟨withoutTrailingZeros (digits c), (digits c).length + power⟩ := by
  obtain ⟨l, _, c, power, made, written⟩ :=
    shortest_of_onGrid? (by decide : 16 < 17) (onGrid?_seventeen positive)
  exact ⟨c, power, (near_of_onGrid? made).1, written⟩

end BackOffice.Binary64
