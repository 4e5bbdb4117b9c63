import BackOffice.Proofs.Number.Reading

/-!
# Whole numbers in double precision

Whole numbers keep their order when they become numbers in double precision, but far from zero
several of them become the same. Nearer than `2 ^ 53` each has a number of its own, and the text of
that number is its own text.
-/
namespace BackOffice.Binary64

open BackOffice.Numeral

/-! ## Their order -/

theorem totalKey_injective : Function.Injective totalKey := by
  intro x y same
  have left := x.bits.toNat_lt
  have right := y.bits.toNat_lt
  have bits : x.bits.toNat = y.bits.toNat := by
    simp only [totalKey, negative, decide_eq_true_eq] at same
    split at same <;> split at same <;> omega
  cases x
  cases y
  exact congrArg mk (UInt64.toNat_inj.mp bits)

theorem totalCompare_eq_iff {x y : Binary64} : x.totalCompare y = .eq ↔ x = y := by
  rw [totalCompare, Std.LawfulEqCmp.compare_eq_iff_eq]
  exact totalKey_injective.eq_iff

section Signed

variable {m : Nat} (bound : m < 2 ^ 63) (negative : Bool)
include bound

theorem bits_ofMagnitude :
    (ofMagnitude negative m).bits.toNat = m + if negative then 2 ^ 63 else 0 := by
  cases negative with
  | true =>
    rw [ofMagnitude, if_pos rfl, UInt64.toNat_ofNat']
    omega
  | false =>
    rw [ofMagnitude, if_neg (by decide), UInt64.toNat_ofNat']
    omega

theorem negative_ofMagnitude : (ofMagnitude negative m).negative = negative := by
  rw [Binary64.negative, bits_ofMagnitude bound negative]
  cases negative with
  | true =>
    rw [if_pos rfl]
    exact decide_eq_true (Nat.le_add_left _ m)
  | false =>
    rw [if_neg (by decide)]
    exact decide_eq_false (Nat.not_le.mpr bound)

theorem magnitude_ofMagnitude : (ofMagnitude negative m).magnitude = m := by
  rw [magnitude, bits_ofMagnitude bound negative]
  split <;> omega

theorem totalKey_ofMagnitude :
    (ofMagnitude negative m).totalKey = if negative then -1 - (m : Int) else m := by
  rw [totalKey, negative_ofMagnitude bound negative, bits_ofMagnitude bound negative]
  split <;> omega

end Signed

theorem roundRatio_lt_sign (num den : Nat) : roundRatio num den < 2 ^ 63 :=
  Nat.lt_of_le_of_lt (Nat.min_le_right _ _) (by decide)

theorem totalKey_ofInt (n : Int) : (ofInt n).totalKey =
    if n < 0 then -1 - (roundRatio n.natAbs 1 : Int) else roundRatio n.natAbs 1 := by
  rw [ofInt, totalKey_ofMagnitude (roundRatio_lt_sign _ _)]
  simp only [decide_eq_true_eq]

theorem totalKey_ofInt_mono {m n : Int} (le : m ≤ n) :
    (ofInt m).totalKey ≤ (ofInt n).totalKey := by
  rw [totalKey_ofInt, totalKey_ofInt]
  by_cases negative : n < 0
  · have absolute : n.natAbs ≤ m.natAbs := by omega
    have rounded := roundRatio_mono Nat.one_pos absolute
    rw [if_pos (by omega), if_pos negative]
    omega
  · rw [if_neg negative]
    by_cases crossing : m < 0
    · rw [if_pos crossing]
      omega
    · have absolute : m.natAbs ≤ n.natAbs := by omega
      have rounded := roundRatio_mono Nat.one_pos absolute
      rw [if_neg crossing]
      omega

/-! ## Near zero -/

/-- The value of a magnitude lies in its own cell. -/
theorem inCell_scaled (m : Nat) : InCell m (scaled m) 1 := by
  have above := scaled_lt_succ m
  have under : scaled (m - 1) ≤ scaled m := scaled_strictMono.monotone (Nat.sub_le m 1)
  rw [InCell, low, high]
  split
  · omega
  · have below : scaled (m - 1) < scaled m := scaled_strictMono (by omega)
    omega

/-- Nothing is lost of a number of at most 53 bits. -/
theorem roundRatio_whole {k : Nat} (small : k ≤ 2 ^ 53) :
    roundRatio k 1 < infiniteMagnitude ∧ scaled (roundRatio k 1) = k * 2 ^ unitExponent := by
  suffices place : ∃ m, m < infiniteMagnitude ∧ scaled m = k * 2 ^ unitExponent by
    obtain ⟨m, finite, value⟩ := place
    have own := inCell_scaled m
    rw [value] at own
    rw [roundRatio_eq Nat.one_pos (Nat.le_of_lt finite) own]
    exact ⟨finite, value⟩
  by_cases zero : k = 0
  · refine ⟨0, by decide, ?_⟩
    have nothing : scaled 0 = 0 := rfl
    rw [zero, nothing]
    generalize 2 ^ unitExponent = unit
    exact (Nat.zero_mul unit).symm
  · have least := Nat.log2_self_le zero
    have most := Nat.lt_log2_self (n := k)
    -- Shifted by `s` the number has 53 bits; only `2 ^ 53` has one more, which its place allows.
    obtain ⟨s, full⟩ : ∃ s, s + k.log2 = 52 ∨ s = 0 ∧ k = 2 ^ 53 := by
      by_cases top : k = 2 ^ 53
      · exact ⟨0, .inr ⟨rfl, top⟩⟩
      · have bits : k.log2 < 53 := (Nat.log2_lt zero).mpr (Nat.lt_of_le_of_ne small top)
        exact ⟨52 - k.log2, .inl (by omega)⟩
    have normal : 2 ^ 52 ≤ k * 2 ^ s ∧ k * 2 ^ s ≤ 2 ^ 53 := by
      rcases full with bits | ⟨rfl, rfl⟩
      · have lower := Nat.mul_le_mul_right (2 ^ s) least
        have upper := Nat.mul_le_mul_right (2 ^ s) (Nat.le_of_lt most)
        rw [← Nat.pow_add, Nat.add_comm, bits] at lower
        rw [← Nat.pow_add, show k.log2 + 1 + s = 53 by omega] at upper
        exact ⟨lower, upper⟩
      · decide
    have inside : s ≤ unitExponent := Nat.le_trans (by omega) (by decide : 52 ≤ unitExponent)
    obtain ⟨e, exponent⟩ : ∃ e, s + e = unitExponent := ⟨_, Nat.add_sub_cancel' inside⟩
    have place : Place (e * 2 ^ 52 + k * 2 ^ s) e (k * 2 ^ s) := ⟨rfl, normal.2, .inr normal.1⟩
    refine ⟨_, ?_, place.scaled_eq.trans ?_⟩
    · have bound : e ≤ unitExponent := exponent ▸ Nat.le_add_left e s
      rw [unitExponent] at bound
      rw [infiniteMagnitude]
      omega
    · rw [Nat.mul_assoc, ← Nat.pow_add, exponent]

theorem roundRatio_inj {j k : Nat} (small : k < 2 ^ 53) (same : roundRatio j 1 = roundRatio k 1) :
    j = k := by
  have own := (roundRatio_whole (Nat.le_of_lt small)).2
  have unit := Nat.two_pow_pos unitExponent
  rcases Nat.lt_trichotomy j k with less | equal | greater
  · have other := (roundRatio_whole (Nat.le_of_lt (Nat.lt_trans less small))).2
    rw [same, own] at other
    exact (Nat.eq_of_mul_eq_mul_right unit other).symm
  · exact equal
  · have next := (roundRatio_whole (Nat.succ_le_of_lt small)).2
    have beyond := roundRatio_mono Nat.one_pos (Nat.succ_le_of_lt greater)
    have reached := scaled_strictMono.monotone beyond
    rw [next, same, own] at reached
    exact absurd (Nat.le_of_mul_le_mul_right reached unit) (Nat.not_succ_le_self k)

/-- No other whole number becomes the same as one near zero. -/
theorem ofInt_inj {j k : Int} (small : k.natAbs < 2 ^ 53) (same : ofInt j = ofInt k) : j = k := by
  have keys := congrArg totalKey same
  rw [totalKey_ofInt, totalKey_ofInt] at keys
  have absolute : j.natAbs = k.natAbs := by
    apply roundRatio_inj small
    split at keys <;> split at keys <;> omega
  split at keys <;> split at keys <;> omega

/-- The zero below zero stands right above the whole numbers below zero. -/
theorem totalKey_ofInt_lt_zero (n : Int) : (ofInt n).totalKey < zero.neg.totalKey ↔ n < 0 := by
  have last : zero.neg.totalKey = -1 := by decide
  rw [totalKey_ofInt, last]
  split
  · next below =>
    have some : roundRatio n.natAbs 1 ≠ 0 := by
      intro none
      have zero : n.natAbs = 0 := roundRatio_inj (by decide) (none.trans roundRatio_zero.symm)
      omega
    exact iff_of_true (by omega) below
  · next notBelow => exact iff_of_false (by omega) notBelow

/-! ## Their texts -/

theorem digits_mul_pow {c : Nat} (some : 0 < c) (i : Nat) :
    digits (c * 10 ^ i) = digits c ++ zeros i := by
  have value : continued? 10 digit? 0 (digits c ++ zeros i) = .some (c * 10 ^ i) := by
    rw [continued?_append, continued?_digits, Option.bind_some, continued?_zeros]
  have lead : (digits c ++ zeros i).head? ≠ .some '0' := by
    obtain ⟨first, rest, cons⟩ := List.exists_cons_of_ne_nil (digits_ne_nil c)
    have written := head_digits_ne_zero some
    rw [cons] at written ⊢
    exact written
  exact (digits_of_continued? (by simp [digits_ne_nil]) lead value).2

/-- A decimal without a fraction is written with its own digits. -/
theorem positional_withoutTrailingZeros {c : Nat} (some : 0 < c) (i : Nat) :
    Decimal.positional ⟨withoutTrailingZeros (digits c), (digits c).length + (i : Int)⟩ =
      digits (c * 10 ^ i) := by
  obtain ⟨n, cut⟩ := eq_withoutTrailingZeros_append (digits c)
  have length := congrArg List.length cut
  have filled := List.length_pos_iff.mpr (digits_ne_nil c)
  rw [List.length_append, zeros, List.length_replicate] at length
  have point : ((digits c).length + (i : Int)).toNat - (withoutTrailingZeros (digits c)).length =
      n + i := by omega
  rw [positional_whole (by dsimp only; omega) (by dsimp only; omega)]
  dsimp only
  rw [point, digits_mul_pow some]
  calc withoutTrailingZeros (digits c) ++ zeros (n + i)
      = withoutTrailingZeros (digits c) ++ (zeros n ++ zeros i) :=
        congrArg _ List.replicate_append_replicate.symm
    _ = withoutTrailingZeros (digits c) ++ zeros n ++ zeros i := (List.append_assoc ..).symm
    _ = digits c ++ zeros i := congrArg (· ++ zeros i) cut.symm

/-- As many places as a whole number has digits are enough to write it, so no fraction is written. -/
theorem shortest_whole {k : Nat} (some : 0 < k) (small : k < 2 ^ 53) :
    ∃ c i : Nat, Near (roundRatio k 1) c i ∧ shortest (roundRatio k 1) =
      ⟨withoutTrailingZeros (digits c), (digits c).length + (i : Int)⟩ := by
  have value : 2 * scaled (roundRatio k 1) = k * 2 ^ (unitExponent + 1) := by
    rw [(roundRatio_whole (Nat.le_of_lt small)).2, Nat.mul_left_comm, two_mul_two_pow]
  have unit := Nat.two_pow_pos (unitExponent + 1)
  have leading : leadingPoint (k * 2 ^ (unitExponent + 1)) = (digits k).length := by
    rw [leadingPoint]
    generalize 2 ^ (unitExponent + 1) = one at unit
    rw [if_pos (Nat.le_mul_of_pos_left one some), Nat.mul_div_cancel _ unit]
  obtain ⟨n, count⟩ : ∃ n, (digits k).length = n + 1 :=
    ⟨_, (Nat.succ_pred_eq_of_pos (List.length_pos_iff.mpr (digits_ne_nil k))).symm⟩
  have places : n < 17 := by
    have fits := pow_length_digits_le some
    have less : 10 ^ n < 10 ^ 17 := by
      rw [count, Nat.add_sub_cancel] at fits
      omega
    exact (Nat.pow_lt_pow_iff_right (by decide)).mp less
  have own : inside (roundRatio k 1) 0 (below (roundRatio k 1) 0) = true := by
    have exact : below (roundRatio k 1) 0 = k := by
      rw [below, value]
      generalize 2 ^ (unitExponent + 1) = one at unit
      simp only [Int.neg_zero, Int.toNat_zero, Nat.pow_zero, Nat.mul_one]
      exact Nat.mul_div_cancel _ unit
    have cell := inCell_scaled (roundRatio k 1)
    rw [(roundRatio_whole (Nat.le_of_lt small)).2] at cell
    rw [exact, inside_iff, Near]
    simp only [Int.neg_zero, Int.toNat_zero, Nat.pow_zero, Nat.mul_one]
    exact cell
  have enough : (onGrid? (roundRatio k 1) (n + 1)).isSome = true := by
    refine isSome_onGrid? ?_ (.inl own)
    rw [value, leading, count]
    omega
  obtain ⟨l, fewer, c, power, made, written⟩ := shortest_of_onGrid? places enough
  obtain ⟨near, rest⟩ := near_of_onGrid? made
  obtain ⟨i, whole⟩ : ∃ i : Nat, power = i := ⟨n - l, by
    rw [rest, value, leading, count]
    omega⟩
  exact ⟨c, i, whole ▸ near, whole ▸ written⟩

theorem positional_shortest_whole {k : Nat} (some : 0 < k) (small : k < 2 ^ 53) :
    (shortest (roundRatio k 1)).positional = digits k := by
  obtain ⟨c, i, near, written⟩ := shortest_whole some small
  have same : c * 10 ^ i = k := by
    apply roundRatio_inj small
    rw [Near, Int.toNat_natCast, Int.toNat_neg_natCast, Nat.pow_zero] at near
    exact roundRatio_eq Nat.one_pos (Nat.min_le_right _ _) near
  have positive : 0 < c := by
    refine Nat.pos_of_ne_zero fun zero => ?_
    rw [zero, Nat.zero_mul] at same
    exact absurd same (Nat.ne_of_lt some)
  rw [written, positional_withoutTrailingZeros positive, same]

/-- Near zero, a whole number in double precision is written as the whole number. -/
theorem text_ofInt {n : Int} (small : n.natAbs < 2 ^ 53) : (ofInt n).text = signedText n := by
  have finite := (roundRatio_whole (Nat.le_of_lt small)).1
  have negative := negative_ofMagnitude (roundRatio_lt_sign n.natAbs 1) (decide (n < 0))
  have magnitude := magnitude_ofMagnitude (roundRatio_lt_sign n.natAbs 1) (decide (n < 0))
  have number : (ofInt n).isNaN = false := by
    rw [isNaN, ofInt, magnitude]
    exact decide_eq_false (Nat.lt_asymm finite)
  have body : (ofInt n).body = digits n.natAbs := by
    rw [Binary64.body, ofInt, magnitude, if_neg (Nat.ne_of_lt finite)]
    split
    · next zero =>
      have none : n.natAbs = 0 := roundRatio_inj (by decide) (zero.trans roundRatio_zero.symm)
      rw [none]
      exact (digits_of_lt (by decide : 0 < 10)).symm
    · next some =>
      refine positional_shortest_whole (Nat.pos_of_ne_zero fun none => some ?_) small
      rw [none, roundRatio_zero]
  rw [text_of_body number, body, signedText, ofInt, negative]
  by_cases below : n < 0
  · rw [if_pos below, decide_eq_true below, if_pos rfl]
  · rw [if_neg below, decide_eq_false below, if_neg (by decide), Numeral.text]

end BackOffice.Binary64
