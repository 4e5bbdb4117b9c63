import BackOffice.Number.Binary64
import Mathlib.Tactic.Ring

/-!
# Rounding to double precision

A magnitude is the rounding of exactly those ratios that lie in its cell, between the midpoints to
its neighbours; a midpoint itself belongs to the even one. Everything about rounding follows from
the cells: they leave no gap, since the rounded magnitude of a ratio has the ratio in its cell, and
they do not overlap, since scaled values increase with their magnitudes.
-/
namespace BackOffice.Binary64

/-! ## Values of magnitudes -/

/-- A magnitude is a place `k` on the grid with steps of `2 ^ e`. The grids of consecutive exponents
meet at `k = 2 ^ 53`, and only the finest one goes down to zero. -/
structure Place (m e k : Nat) : Prop where
  eq : m = e * 2 ^ 52 + k
  le : k ≤ 2 ^ 53
  normal : e = 0 ∨ 2 ^ 52 ≤ k

theorem Place.scaled_eq {m e k : Nat} (p : Place m e k) : scaled m = k * 2 ^ e := by
  obtain ⟨rfl, le, normal⟩ := p
  rw [Binary64.scaled]
  by_cases top : k = 2 ^ 53
  · have exponent : (e * 2 ^ 52 + k) / 2 ^ 52 = e + 2 := by omega
    have fraction : (e * 2 ^ 52 + k) % 2 ^ 52 = 0 := by omega
    simp only [exponent, fraction]
    rw [if_neg (by omega), top, show e + 2 - 1 = e + 1 from rfl, Nat.pow_succ 2 e]
    ring
  · by_cases low : k < 2 ^ 52
    · have finest : e = 0 := by omega
      have exponent : (e * 2 ^ 52 + k) / 2 ^ 52 = 0 := by omega
      have fraction : (e * 2 ^ 52 + k) % 2 ^ 52 = k := by omega
      simp only [exponent, fraction]
      rw [if_pos trivial, finest, Nat.pow_zero, Nat.mul_one]
    · have exponent : (e * 2 ^ 52 + k) / 2 ^ 52 = e + 1 := by omega
      have fraction : 2 ^ 52 + (e * 2 ^ 52 + k) % 2 ^ 52 = k := by omega
      simp only [exponent, fraction]
      rw [if_neg (by omega), Nat.add_sub_cancel]

theorem Place.succ {m e k : Nat} (p : Place m e k) (inner : k < 2 ^ 53) :
    Place (m + 1) e (k + 1) := by
  obtain ⟨rfl, _, normal⟩ := p
  exact ⟨by omega, by omega, by omega⟩

theorem Place.pred {m e k : Nat} (p : Place m e k) (positive : 0 < k)
    (inner : e = 0 ∨ 2 ^ 52 < k) : Place (m - 1) e (k - 1) := by
  obtain ⟨rfl, le, _⟩ := p
  exact ⟨by omega, by omega, by omega⟩

theorem exists_place (m : Nat) : ∃ e k, Place m e k ∧ k < 2 ^ 53 := by
  refine ⟨m / 2 ^ 52 - 1, m - (m / 2 ^ 52 - 1) * 2 ^ 52, ⟨?_, ?_, ?_⟩, ?_⟩ <;> omega

theorem scaled_lt_succ (m : Nat) : scaled m < scaled (m + 1) := by
  obtain ⟨e, k, p, inner⟩ := exists_place m
  rw [p.scaled_eq, (p.succ inner).scaled_eq]
  exact Nat.mul_lt_mul_of_pos_right (Nat.lt_succ_self k) (Nat.two_pow_pos e)

theorem scaled_strictMono : StrictMono scaled :=
  strictMono_nat_of_lt_succ scaled_lt_succ

/-! ## Cells -/

/-- Twice the midpoint below a magnitude. -/
def low (m : Nat) : Nat := scaled (m - 1) + scaled m

/-- Twice the midpoint above a magnitude. -/
def high (m : Nat) : Nat := scaled m + scaled (m + 1)

/-- A ratio of units lies between the midpoints around a magnitude, inside of them if that is odd. -/
def InCell (m units den : Nat) : Prop :=
  if m % 2 = 0 then low m * den ≤ 2 * units ∧ 2 * units ≤ high m * den
  else low m * den < 2 * units ∧ 2 * units < high m * den

theorem InCell.le {m units den : Nat} (h : InCell m units den) :
    low m * den ≤ 2 * units ∧ 2 * units ≤ high m * den := by
  rw [InCell] at h
  split at h <;> omega

section Ratios

variable {m n b units den units' den' : Nat}

theorem le_ratio_iff (pos : 0 < den) (pos' : 0 < den') (same : units * den' = units' * den) :
    b * den ≤ 2 * units ↔ b * den' ≤ 2 * units' := by
  have left : b * den * den' = b * den' * den := by ring
  have right : 2 * units * den' = 2 * units' * den := by rw [Nat.mul_assoc, same, Nat.mul_assoc]
  rw [← Nat.mul_le_mul_right_iff pos', left, right, Nat.mul_le_mul_right_iff pos]

theorem ratio_le_iff (pos : 0 < den) (pos' : 0 < den') (same : units * den' = units' * den) :
    2 * units ≤ b * den ↔ 2 * units' ≤ b * den' := by
  have left : 2 * units * den' = 2 * units' * den := by rw [Nat.mul_assoc, same, Nat.mul_assoc]
  have right : b * den * den' = b * den' * den := by ring
  rw [← Nat.mul_le_mul_right_iff pos', left, right, Nat.mul_le_mul_right_iff pos]

/-- Equal ratios lie in the same cells. -/
theorem InCell.congr (h : InCell m units den) (pos : 0 < den) (pos' : 0 < den')
    (same : units * den' = units' * den) : InCell m units' den' := by
  rw [InCell] at h ⊢
  simp only [← Nat.not_le] at h ⊢
  rwa [le_ratio_iff pos pos' same, ratio_le_iff pos pos' same, le_ratio_iff pos pos' same,
    ratio_le_iff pos pos' same] at h

/-- A smaller ratio does not lie in the cell of a greater magnitude. -/
theorem InCell.mono (h : InCell m units den) (h' : InCell n units' den') (pos : 0 < den)
    (pos' : 0 < den') (le : units * den' ≤ units' * den) : m ≤ n := by
  by_contra less
  have first : scaled n ≤ scaled (m - 1) := scaled_strictMono.monotone (by omega)
  have second : scaled (n + 1) ≤ scaled m := scaled_strictMono.monotone (by omega)
  have meet : high n * (den * den') ≤ low m * (den * den') :=
    Nat.mul_le_mul_right _ (Nat.add_le_add first second)
  have swap : den' * den = den * den' := Nat.mul_comm den' den
  have below := Nat.mul_le_mul_right den' h.le.1
  have above := Nat.mul_le_mul_right den h'.le.2
  simp only [Nat.mul_assoc, swap] at below above
  -- The cells can only meet in the midpoint between two neighbours, of which one is odd.
  obtain odd | odd | apart : m % 2 = 1 ∨ n % 2 = 1 ∨ n < m - 1 := by omega
  · rw [InCell, if_neg (by omega)] at h
    have strict := Nat.mul_lt_mul_of_pos_right h.1 pos'
    simp only [Nat.mul_assoc] at strict
    omega
  · rw [InCell, if_neg (by omega)] at h'
    have strict := Nat.mul_lt_mul_of_pos_right h'.2 pos
    simp only [Nat.mul_assoc, swap] at strict
    omega
  · have gap : high n < low m := Nat.add_lt_add_of_lt_of_le (scaled_strictMono apart) second
    have strict := Nat.mul_lt_mul_of_pos_right gap (Nat.mul_pos pos pos')
    omega

end Ratios

/-! ## Rounded magnitudes -/

/-- The rounded quotient is within a half of the ratio, and even where it is a half away. -/
theorem nearestEven_bounds (num : Nat) {den : Nat} (pos : 0 < den) :
    (2 * nearestEven num den) * den ≤ 2 * num + den ∧
      2 * num ≤ (2 * nearestEven num den + 1) * den ∧
      (nearestEven num den % 2 = 1 →
        (2 * nearestEven num den) * den < 2 * num + den ∧
          2 * num < (2 * nearestEven num den + 1) * den) := by
  have split : num = num / den * den + num % den := (Nat.div_add_mod' num den).symm
  have rest : num % den < den := Nat.mod_lt num pos
  rw [nearestEven]
  generalize num / den = q at *
  generalize num % den = r at *
  have once : (2 * q + 1) * den = 2 * (q * den) + den := by ring
  have twice : 2 * q * den = 2 * (q * den) := by ring
  have nextTwice : 2 * (q + 1) * den = 2 * (q * den) + 2 * den := by ring
  have nextOnce : (2 * (q + 1) + 1) * den = 2 * (q * den) + 3 * den := by ring
  split
  · omega
  · split
    · omega
    · split <;> omega

/-- The magnitude that a ratio of units is rounded to lies in the place that the ratio has on the
grid of its leading bits. -/
theorem exists_place_nearestEven (units : Nat) {den : Nat} (pos : 0 < den) :
    let shift := (units / den).log2 - 52
    Place (shift * 2 ^ 52 + nearestEven units (den * 2 ^ shift)) shift
        (nearestEven units (den * 2 ^ shift)) ∧
      units < 2 ^ 53 * (den * 2 ^ shift) ∧
      (shift = 0 ∨ 2 ^ 52 * (den * 2 ^ shift) ≤ units) := by
  intro shift
  have grid : 0 < den * 2 ^ shift := Nat.mul_pos pos (Nat.two_pow_pos shift)
  have less : units < 2 ^ 53 * (den * 2 ^ shift) := by
    have bits : units / den < 2 ^ (53 + shift) := by
      by_cases zero : units / den = 0
      · rw [zero]
        exact Nat.two_pow_pos _
      · exact (Nat.log2_lt zero).mp (by omega)
    have within := Nat.lt_mul_of_div_lt bits pos
    rw [Nat.pow_add] at within
    calc units < 2 ^ 53 * 2 ^ shift * den := within
      _ = 2 ^ 53 * (den * 2 ^ shift) := by ring
  have least : shift = 0 ∨ 2 ^ 52 * (den * 2 ^ shift) ≤ units := by
    by_cases finest : shift = 0
    · exact .inl finest
    · right
      have some : units / den ≠ 0 := by
        intro zero
        rw [show shift = (units / den).log2 - 52 from rfl, zero] at finest
        exact finest rfl
      have bits : 2 ^ (52 + shift) ≤ units / den := (Nat.le_log2 some).mp (by omega)
      have within := (Nat.le_div_iff_mul_le pos).mp bits
      rw [Nat.pow_add] at within
      calc 2 ^ 52 * (den * 2 ^ shift) = 2 ^ 52 * 2 ^ shift * den := by ring
        _ ≤ units := within
  obtain ⟨below, above, _⟩ := nearestEven_bounds units grid
  refine ⟨⟨rfl, ?_, ?_⟩, less, least⟩
  · have bound : 2 * nearestEven units (den * 2 ^ shift) * (den * 2 ^ shift) <
        (2 * 2 ^ 53 + 1) * (den * 2 ^ shift) := by
      rw [Nat.add_mul]
      omega
    have := Nat.lt_of_mul_lt_mul_right bound
    omega
  · rcases least with finest | least
    · exact .inl finest
    · right
      have bound : 2 ^ 53 * (den * 2 ^ shift) ≤
          (2 * nearestEven units (den * 2 ^ shift) + 1) * (den * 2 ^ shift) := by omega
      have := Nat.le_of_mul_le_mul_right bound grid
      omega

section Nearest

variable {m e k units den : Nat}

/-- A ratio above the nearest place is below the midpoint behind that. -/
theorem Place.le_high (p : Place m e k) (pos : 0 < den) (less : units < 2 ^ 53 * (den * 2 ^ e))
    (near : 2 * units ≤ (2 * k + 1) * (den * 2 ^ e))
    (odd : k % 2 = 1 → 2 * units < (2 * k + 1) * (den * 2 ^ e)) :
    2 * units ≤ high m * den ∧ (k % 2 = 1 → 2 * units < high m * den) := by
  have own : scaled m * den = k * (den * 2 ^ e) := by rw [p.scaled_eq]; ring
  have le := p.le
  obtain inner | top : k < 2 ^ 53 ∨ k = 2 ^ 53 := by omega
  · have next : scaled (m + 1) * den = (k + 1) * (den * 2 ^ e) := by
      rw [(p.succ inner).scaled_eq]; ring
    have sum : high m * den = (2 * k + 1) * (den * 2 ^ e) := by
      rw [high, Nat.add_mul, own, next]; ring
    rw [sum]
    exact ⟨near, odd⟩
  · have next := Nat.mul_lt_mul_of_pos_right (scaled_lt_succ m) pos
    rw [own, top] at next
    rw [high, Nat.add_mul, own, top]
    omega

theorem Place.low_le (p : Place m e k) (pos : 0 < den)
    (least : e = 0 ∨ 2 ^ 52 * (den * 2 ^ e) ≤ units)
    (near : (2 * k) * (den * 2 ^ e) ≤ 2 * units + den * 2 ^ e)
    (odd : k % 2 = 1 → (2 * k) * (den * 2 ^ e) < 2 * units + den * 2 ^ e) :
    low m * den ≤ 2 * units ∧ (k % 2 = 1 → low m * den < 2 * units) := by
  have own : scaled m * den = k * (den * 2 ^ e) := by rw [p.scaled_eq]; ring
  have normal := p.normal
  have twice : 2 * k * (den * 2 ^ e) = 2 * (k * (den * 2 ^ e)) := Nat.mul_assoc ..
  obtain zero | bottom | inner : k = 0 ∨ (e ≠ 0 ∧ k = 2 ^ 52) ∨ (0 < k ∧ (e = 0 ∨ 2 ^ 52 < k)) := by
    omega
  · have none : m = 0 := by
      have := p.eq
      omega
    have nothing : low m = 0 := by rw [none]; decide
    rw [nothing]
    omega
  · have before : scaled (m - 1) < scaled m := scaled_strictMono (by have := p.eq; omega)
    have strict := Nat.mul_lt_mul_of_pos_right before pos
    rw [own, bottom.2] at strict
    rw [low, Nat.add_mul, own, bottom.2]
    omega
  · have before : scaled (m - 1) * den + den * 2 ^ e = k * (den * 2 ^ e) := by
      rw [(p.pred inner.1 inner.2).scaled_eq]
      obtain ⟨j, rfl⟩ := Nat.exists_eq_add_of_lt inner.1
      rw [Nat.zero_add, Nat.add_sub_cancel]
      ring
    rw [low, Nat.add_mul, own]
    omega

end Nearest

/-- Rounding leaves no gap: a ratio lies in the cell of the magnitude that it is rounded to. -/
theorem inCell_nearestEven (units : Nat) {den : Nat} (pos : 0 < den) :
    let shift := (units / den).log2 - 52
    InCell (shift * 2 ^ 52 + nearestEven units (den * 2 ^ shift)) units den := by
  intro shift
  obtain ⟨place, less, least⟩ := exists_place_nearestEven units pos
  obtain ⟨below, above, odd⟩ :=
    nearestEven_bounds units (Nat.mul_pos pos (Nat.two_pow_pos shift))
  obtain ⟨atMost, under⟩ := place.le_high pos less above fun h => (odd h).2
  obtain ⟨atLeast, upper⟩ := place.low_le pos least below fun h => (odd h).1
  rw [InCell]
  split
  · exact ⟨atLeast, atMost⟩
  · next other =>
    have parity : nearestEven units (den * 2 ^ shift) % 2 = 1 := by omega
    exact ⟨upper parity, under parity⟩

/-- The magnitude to which a ratio is rounded is known by its cell. -/
theorem roundRatio_eq {m num den : Nat} (pos : 0 < den) (finite : m ≤ infiniteMagnitude)
    (cell : InCell m (num * 2 ^ unitExponent) den) : roundRatio num den = m := by
  have own := inCell_nearestEven (num * 2 ^ unitExponent) pos
  have same := Nat.le_antisymm (own.mono cell pos pos (Nat.le_refl _))
    (cell.mono own pos pos (Nat.le_refl _))
  rw [roundRatio]
  simp only [same]
  exact Nat.min_eq_left finite

theorem roundRatio_mono {num num' den : Nat} (pos : 0 < den) (le : num ≤ num') :
    roundRatio num den ≤ roundRatio num' den := by
  have own := inCell_nearestEven (num * 2 ^ unitExponent) pos
  have own' := inCell_nearestEven (num' * 2 ^ unitExponent) pos
  have less := own.mono own' pos pos
    (Nat.mul_le_mul_right _ (Nat.mul_le_mul_right _ le))
  rw [roundRatio, roundRatio]
  exact Nat.le_min.mpr ⟨Nat.le_trans (Nat.min_le_left _ _) less, Nat.min_le_right _ _⟩

end BackOffice.Binary64
