import BackOffice.Proofs.Number.Decimal
import Mathlib.Data.List.TakeWhile

/-!
# Numbers in double precision read back

The text of a number is read as that number. Only of NaN there are several, which share one text; it
is read as the NaN that the reader makes. Whole numbers written as such are read as what they are in
double precision.
-/
namespace BackOffice.Binary64

open BackOffice.Numeral

/-! ## Digits and zeros -/

theorem isDigit_of_mem_zeros {n : Nat} {c : Char} (h : c ∈ zeros n) : isDigit c = true := by
  rw [(List.mem_replicate.mp h).2]
  decide

theorem continued?_zeros (acc n : Nat) :
    continued? 10 digit? acc (zeros n) = some (acc * 10 ^ n) := by
  induction n generalizing acc with
  | zero => simp [zeros, continued?]
  | succ n ih =>
    have zero : digit? '0' = some 0 := by decide
    have rest := ih (acc * 10)
    rw [zeros] at rest ⊢
    rw [List.replicate_succ, continued?, zero]
    dsimp only
    rw [Nat.add_zero, rest, Nat.pow_succ', Nat.mul_assoc]

theorem eq_withoutTrailingZeros_append (ds : List Char) :
    ∃ n, ds = withoutTrailingZeros ds ++ zeros n := by
  have cut := List.takeWhile_append_dropWhile (p := (· == '0')) (l := ds.reverse)
  have all : ∀ c ∈ ds.reverse.takeWhile (· == '0'), c = '0' := by
    intro c hc
    have zero : (c == '0') = true := List.mem_takeWhile_imp (p := (· == '0')) hc
    exact beq_iff_eq.mp zero
  refine ⟨(ds.reverse.takeWhile (· == '0')).length, ?_⟩
  have same : ds.reverse.takeWhile (· == '0') = zeros (ds.reverse.takeWhile (· == '0')).length :=
    List.eq_replicate_iff.mpr ⟨rfl, all⟩
  have reversed := congrArg List.reverse cut
  rw [List.reverse_append, List.reverse_reverse, same] at reversed
  rw [withoutTrailingZeros]
  refine reversed.symm.trans (congrArg _ ?_)
  exact List.reverse_replicate

theorem isDigit_of_mem_zero : ∀ c ∈ ['0'], isDigit c = true :=
  List.forall_mem_singleton.mpr (by decide)

/-- Digits that stand for a number, with the place of their point. -/
structure Decimal.Means (d : Decimal) (t : Nat) (x : Int) : Prop where
  digits : ∀ c ∈ d.digits, isDigit c = true
  nonempty : d.digits ≠ []
  lead : d.digits.head? ≠ some '0'
  value : continued? 10 digit? 0 d.digits = some t
  point : d.point = d.digits.length + x

theorem means_withoutTrailingZeros {c : Nat} (positive : 0 < c) (power : Int) :
    ∃ t i : Nat, c = t * 10 ^ i ∧
      Decimal.Means ⟨withoutTrailingZeros (digits c), (digits c).length + power⟩ t (power + i) := by
  obtain ⟨i, cut⟩ := eq_withoutTrailingZeros_append (digits c)
  have value := continued?_digits c
  have length := congrArg List.length cut
  have all : ∀ d ∈ withoutTrailingZeros (digits c), isDigit d = true := by
    intro d hd
    have whole : d ∈ digits c := by
      rw [cut]
      exact List.mem_append_left _ hd
    exact isDigit_of_mem_digits whole
  rw [List.length_append, zeros, List.length_replicate] at length
  rw [cut, continued?_append] at value
  obtain ⟨t, front, back⟩ := Option.bind_eq_some_iff.mp value
  rw [continued?_zeros] at back
  have whole : t * 10 ^ i = c := Option.some.inj back
  have some : withoutTrailingZeros (digits c) ≠ [] := by
    intro none
    rw [none] at front
    cases front
    omega
  have lead : (withoutTrailingZeros (digits c)).head? ≠ .some '0' := by
    have written := head_digits_ne_zero positive
    obtain ⟨first, rest, cons⟩ := List.exists_cons_of_ne_nil some
    rw [cut, cons] at written
    rwa [cons]
  refine ⟨t, i, whole.symm, all, some, lead, front, ?_⟩
  dsimp only
  omega

/-- The digits that are written for a positive magnitude mean a decimal in its cell. -/
theorem shortest_means {m : Nat} (positive : 0 < m) :
    ∃ t x, (shortest m).Means t x ∧ Near m t x := by
  obtain ⟨c, power, near, written⟩ := exists_near_shortest positive
  have some := Nat.pos_of_ne_zero (near.significand_ne_zero positive)
  obtain ⟨t, i, split, means⟩ := means_withoutTrailingZeros some power
  refine ⟨t, power + i, written ▸ means, ?_⟩
  have shifted : power = power + i - i := by omega
  rw [split, shifted] at near
  exact near_shift.mp near

/-! ## Decimals -/

theorem spanDigits_all {ds : List Char} (h : ∀ c ∈ ds, isDigit c = true) :
    spanDigits ds = (ds, []) := by
  have cut := span_isDigit_append h (by simp : ∀ c ∈ ([] : List Char).head?, isDigit c = false)
  rwa [List.append_nil] at cut

theorem decimalMagnitude?_whole {whole : List Char} (h : ∀ c ∈ whole, isDigit c = true) :
    decimalMagnitude? whole = (ofDigits? whole).map fun s => roundDecimal s 0 := by
  rw [decimalMagnitude?, spanDigits_all h]
  dsimp only
  rw [List.append_nil]
  cases ofDigits? whole <;> rfl

theorem decimalMagnitude?_point {whole fraction : List Char} (h : ∀ c ∈ whole, isDigit c = true)
    (h' : ∀ c ∈ fraction, isDigit c = true) :
    decimalMagnitude? (whole ++ '.' :: fraction) =
      (ofDigits? (whole ++ fraction)).map fun s => roundDecimal s (-fraction.length) := by
  have first : spanDigits (whole ++ '.' :: fraction) = (whole, '.' :: fraction) :=
    span_isDigit_append h (by rintro c ⟨⟩; decide)
  simp only [decimalMagnitude?, first, spanDigits_all h', closingExponent?]
  cases ofDigits? (whole ++ fraction) with
  | none => rfl
  | some s => simp

theorem ofDigits?_of_continued? {ds : List Char} {t : Nat} (some : ds ≠ [])
    (value : continued? 10 digit? 0 ds = .some t) : ofDigits? ds = .some t := by
  rw [ofDigits?_of_ne_nil some, value]

section Positional

variable {d : Decimal} {t : Nat} {x : Int}

theorem positional_fraction (h : d.point ≤ 0) :
    d.positional = ['0'] ++ '.' :: (zeros (-d.point).toNat ++ d.digits) := by
  rw [Decimal.positional, if_pos h]
  rfl

theorem positional_whole (h : 0 < d.point) (long : d.digits.length ≤ d.point.toNat) :
    d.positional = d.digits ++ zeros (d.point.toNat - d.digits.length) := by
  rw [Decimal.positional, if_neg (Int.not_le.mpr h)]
  exact if_pos long

theorem positional_mixed (h : 0 < d.point) (short : d.point.toNat < d.digits.length) :
    d.positional = d.digits.take d.point.toNat ++ '.' :: d.digits.drop d.point.toNat := by
  rw [Decimal.positional, if_neg (Int.not_le.mpr h)]
  exact if_neg (Nat.not_le.mpr short)

/-- A decimal written out is read as a decimal of the same value. -/
theorem decimalMagnitude?_positional (h : d.Means t x) :
    ∃ i : Nat, decimalMagnitude? d.positional = some (roundDecimal (t * 10 ^ i) (x - i)) := by
  have point := h.point
  by_cases fraction : d.point ≤ 0
  · refine ⟨0, ?_⟩
    have all : ∀ c ∈ zeros (-d.point).toNat ++ d.digits, isDigit c = true := by
      intro c hc
      rcases List.mem_append.mp hc with zero | digit
      · exact isDigit_of_mem_zeros zero
      · exact h.digits c digit
    have value : continued? 10 digit? 0 (['0'] ++ (zeros (-d.point).toNat ++ d.digits)) = some t := by
      have zero : continued? 10 digit? 0 ['0'] = some 0 := by decide
      rw [continued?_append, zero, Option.bind_some, continued?_append, continued?_zeros,
        Nat.zero_mul, Option.bind_some, h.value]
    have length : -((zeros (-d.point).toNat ++ d.digits).length : Int) = x - (0 : Nat) := by
      rw [List.length_append, zeros, List.length_replicate]
      omega
    rw [positional_fraction fraction, decimalMagnitude?_point isDigit_of_mem_zero all,
      ofDigits?_of_continued? (by simp) value, length, Option.map_some, Nat.pow_zero, Nat.mul_one]
  · by_cases long : d.digits.length ≤ d.point.toNat
    · refine ⟨d.point.toNat - d.digits.length, ?_⟩
      have all : ∀ c ∈ d.digits ++ zeros (d.point.toNat - d.digits.length), isDigit c = true := by
        intro c hc
        rcases List.mem_append.mp hc with digit | zero
        · exact h.digits c digit
        · exact isDigit_of_mem_zeros zero
      have value : continued? 10 digit? 0 (d.digits ++ zeros (d.point.toNat - d.digits.length)) =
          some (t * 10 ^ (d.point.toNat - d.digits.length)) := by
        rw [continued?_append, h.value, Option.bind_some, continued?_zeros]
      have exponent : x - ((d.point.toNat - d.digits.length : Nat) : Int) = 0 := by omega
      have some : d.digits ++ zeros (d.point.toNat - d.digits.length) ≠ [] := by
        simp [h.nonempty]
      rw [positional_whole (Int.not_le.mp fraction) long, decimalMagnitude?_whole all,
        ofDigits?_of_continued? some value, exponent, Option.map_some]
    · refine ⟨0, ?_⟩
      have front : ∀ c ∈ d.digits.take d.point.toNat, isDigit c = true := fun c hc =>
        h.digits c (List.mem_of_mem_take hc)
      have back : ∀ c ∈ d.digits.drop d.point.toNat, isDigit c = true := fun c hc =>
        h.digits c (List.mem_of_mem_drop hc)
      have length : -((d.digits.drop d.point.toNat).length : Int) = x - (0 : Nat) := by
        rw [List.length_drop]
        omega
      rw [positional_mixed (Int.not_le.mp fraction) (Nat.not_le.mp long),
        decimalMagnitude?_point front back, List.take_append_drop,
        ofDigits?_of_continued? h.nonempty h.value, length, Option.map_some, Nat.pow_zero,
        Nat.mul_one]

end Positional

/-- What is written for a positive finite magnitude is read as it. -/
theorem decimalMagnitude?_shortest {m : Nat} (positive : 0 < m) (finite : m < infiniteMagnitude) :
    decimalMagnitude? (shortest m).positional = some m := by
  obtain ⟨t, x, means, near⟩ := shortest_means positive
  obtain ⟨i, read⟩ := decimalMagnitude?_positional means
  rw [read, roundDecimal_eq (near_shift.mpr near) positive finite]

/-! ## Signs and words -/

theorem head_positional {d : Decimal} {t : Nat} {x : Int} (h : d.Means t x) :
    ∃ c cs, d.positional = c :: cs ∧ isDigit c = true := by
  obtain ⟨c, cs, cons⟩ := List.exists_cons_of_ne_nil h.nonempty
  have digit := h.digits c (cons ▸ List.mem_cons_self)
  by_cases fraction : d.point ≤ 0
  · exact ⟨'0', _, positional_fraction fraction, by decide⟩
  · have positive := Int.not_le.mp fraction
    by_cases long : d.digits.length ≤ d.point.toNat
    · refine ⟨c, cs ++ zeros (d.point.toNat - d.digits.length), ?_, digit⟩
      rw [positional_whole positive long, cons]
      rfl
    · obtain ⟨n, whole⟩ : ∃ n, d.point.toNat = n + 1 := ⟨d.point.toNat - 1, by omega⟩
      refine ⟨c, cs.take n ++ '.' :: cs.drop n, ?_, digit⟩
      rw [positional_mixed positive (Nat.not_le.mp long), cons, whole]
      rfl

/-- What starts with a digit is no word. -/
theorem unsignedMagnitude?_digit {c : Char} (digit : isDigit c = true) (cs : List Char) :
    unsignedMagnitude? (c :: cs) = decimalMagnitude? (c :: cs) := by
  obtain ⟨d, small, rfl⟩ := exists_digitChar digit
  have lower : (digitChar d).toLower ≠ 'n' ∧ (digitChar d).toLower ≠ 'i' := by
    have all : ∀ d, d < 10 → (digitChar d).toLower ≠ 'n' ∧ (digitChar d).toLower ≠ 'i' := by decide
    exact all d small
  have nan : isWord "nan" (digitChar d :: cs) = false := by
    rw [isWord, beq_eq_false_iff_ne]
    intro same
    exact lower.1 (List.cons.inj same).1
  have inf : isWord "inf" (digitChar d :: cs) = false := by
    rw [isWord, beq_eq_false_iff_ne]
    intro same
    exact lower.2 (List.cons.inj same).1
  have infinity : isWord "infinity" (digitChar d :: cs) = false := by
    rw [isWord, beq_eq_false_iff_ne]
    intro same
    exact lower.2 (List.cons.inj same).1
  rw [unsignedMagnitude?, nan, inf, infinity]
  rfl

/-- A sign in front, or a body that starts with neither sign. -/
theorem ofText?_signed (negative : Bool) {c : Char} {cs : List Char} (plus : c ≠ '+')
    (minus : c ≠ '-') :
    ofText? (String.ofList (if negative then '-' :: c :: cs else c :: cs)) =
      (unsignedMagnitude? (c :: cs)).map (ofMagnitude negative) := by
  rw [ofText?, String.toList_ofList]
  cases negative with
  | true => rfl
  | false =>
    rw [if_neg (by decide)]
    split
    · next same => exact absurd (List.cons.inj same).1 minus
    · next same => exact absurd (List.cons.inj same).1 plus
    · rfl

theorem ofMagnitude_magnitude (x : Binary64) : ofMagnitude x.negative x.magnitude = x := by
  have bound := x.bits.toNat_lt
  have same : x.magnitude + (if x.negative then 2 ^ 63 else 0) = x.bits.toNat := by
    rw [negative, magnitude]
    by_cases h : 2 ^ 63 ≤ x.bits.toNat
    · rw [decide_eq_true h, if_pos rfl]
      omega
    · rw [decide_eq_false h, if_neg (by decide)]
      omega
  rw [ofMagnitude, same, UInt64.ofNat_toNat]

/-- The characters of a number without its sign. -/
def body (x : Binary64) : List Char :=
  if x.magnitude = infiniteMagnitude then "inf".toList
  else if x.magnitude = 0 then ['0']
  else (shortest x.magnitude).positional

theorem text_of_isNaN {x : Binary64} (h : x.isNaN = true) : x.text = "NaN" := by
  rw [text, h]
  rfl

theorem text_of_body {x : Binary64} (h : x.isNaN = false) :
    x.text = String.ofList (if x.negative then '-' :: x.body else x.body) := by
  rw [text, h]
  rfl

theorem unsignedMagnitude?_body {x : Binary64} (h : x.isNaN = false) :
    ∃ c cs, x.body = c :: cs ∧ c ≠ '+' ∧ c ≠ '-' ∧
      unsignedMagnitude? (c :: cs) = some x.magnitude := by
  rw [body]
  by_cases infinite : x.magnitude = infiniteMagnitude
  · refine ⟨'i', ['n', 'f'], ?_, by decide, by decide, ?_⟩
    · rw [if_pos infinite]
      rfl
    · rw [infinite]
      rfl
  · rw [if_neg infinite]
    by_cases zero : x.magnitude = 0
    · refine ⟨'0', [], if_pos zero, by decide, by decide, ?_⟩
      rw [zero, unsignedMagnitude?_digit (by decide), decimalMagnitude?_whole isDigit_of_mem_zero]
      rfl
    · have positive := Nat.pos_of_ne_zero zero
      have finite : x.magnitude < infiniteMagnitude := by
        rw [isNaN, decide_eq_false_iff_not] at h
        omega
      obtain ⟨t, e, means, _⟩ := shortest_means positive
      obtain ⟨c, cs, written, digit⟩ := head_positional means
      have read := decimalMagnitude?_shortest positive finite
      rw [written] at read
      refine ⟨c, cs, (if_neg zero).trans written, ?_, ?_, ?_⟩
      · rintro rfl
        exact absurd digit (by decide)
      · rintro rfl
        exact absurd digit (by decide)
      · rw [unsignedMagnitude?_digit digit, read]

/-- The text of a number is read as it, if it is one. -/
theorem ofText?_text (x : Binary64) : ofText? x.text = some (if x.isNaN then nan else x) := by
  cases h : x.isNaN with
  | true =>
    rw [text_of_isNaN h, if_pos rfl]
    rfl
  | false =>
    obtain ⟨c, cs, written, plus, minus, read⟩ := unsignedMagnitude?_body h
    rw [text_of_body h, written, ofText?_signed x.negative plus minus, read, Option.map_some,
      ofMagnitude_magnitude, if_neg (by decide)]

/-! ## Whole numbers -/

theorem roundRatio_zero : roundRatio 0 1 = 0 := by
  simp only [roundRatio, Nat.zero_mul]
  rfl

theorem roundDecimal_whole {n : Nat} (bound : n ≤ 2 ^ 63) : roundDecimal n 0 = roundRatio n 1 := by
  by_cases zero : n = 0
  · rw [zero, roundRatio_zero]
    rfl
  · have leading := pow_length_digits_le (Nat.pos_of_ne_zero zero)
    have short : (digits n).length - 1 < 19 := by
      have less : 10 ^ ((digits n).length - 1) < 10 ^ 19 := by omega
      exact (Nat.pow_lt_pow_iff_right (by decide)).mp less
    rw [roundDecimal, if_neg (by omega), if_neg (by omega), if_pos (by decide)]
    rw [Int.toNat_zero, Nat.pow_zero, Nat.mul_one]

/-- A whole number that is written as such is read as what it is in double precision. -/
theorem ofText?_signedText (n : Int64) : ofText? (signedText n.toInt) = some (ofInt n.toInt) := by
  have bound : n.toInt.natAbs ≤ 2 ^ 63 := by
    have := n.le_toInt
    have := n.toInt_lt
    omega
  obtain ⟨c, cs, written, plus, minus⟩ := head_digits n.toInt.natAbs
  have digit : isDigit c = true :=
    isDigit_of_mem_digits (n := n.toInt.natAbs) (written ▸ List.mem_cons_self)
  have text : signedText n.toInt =
      String.ofList (if decide (n.toInt < 0) then '-' :: c :: cs else c :: cs) := by
    rw [← written, signedText]
    by_cases negative : n.toInt < 0
    · rw [if_pos negative, decide_eq_true negative, if_pos rfl]
    · rw [if_neg negative, decide_eq_false negative, if_neg (by decide), Numeral.text]
  have magnitude : unsignedMagnitude? (c :: cs) = some (roundRatio n.toInt.natAbs 1) := by
    have all : ∀ d ∈ c :: cs, isDigit d = true := fun d hd =>
      isDigit_of_mem_digits (n := n.toInt.natAbs) (written ▸ hd)
    rw [unsignedMagnitude?_digit digit, decimalMagnitude?_whole all, ← written, ofDigits?_digits,
      Option.map_some]
    exact congrArg some (roundDecimal_whole bound)
  rw [text, ofText?_signed _ plus minus, magnitude, Option.map_some, ofInt]

theorem ofDigits?_point (whole fraction : List Char) :
    ofDigits? (whole ++ '.' :: fraction) = none := by
  have point (acc : Nat) : continued? 10 digit? acc ('.' :: fraction) = none := by
    have other : digit? '.' = none := by decide
    rw [continued?, other]
  rw [ofDigits?_of_ne_nil (by simp), continued?_append]
  cases continued? 10 digit? 0 whole with
  | none => rfl
  | some n => exact point n

/-- What is written for a magnitude and can be read as a whole number is written as that. -/
theorem digits_of_ofDigits?_body {x : Binary64} {n : Nat} (read : ofDigits? x.body = some n) :
    digits n = x.body ∧ (n = 0 → x.magnitude = 0) := by
  rw [body] at read ⊢
  by_cases infinite : x.magnitude = infiniteMagnitude
  · rw [if_pos infinite] at read
    cases read
  · rw [if_neg infinite] at read ⊢
    by_cases zero : x.magnitude = 0
    · rw [if_pos zero] at read ⊢
      cases read
      exact ⟨digits_of_lt (by decide), fun _ => zero⟩
    · rw [if_neg zero] at read ⊢
      obtain ⟨t, e, means, _⟩ := shortest_means (Nat.pos_of_ne_zero zero)
      by_cases fraction : (shortest x.magnitude).point ≤ 0
      · rw [positional_fraction fraction, ofDigits?_point] at read
        cases read
      · have positive := Int.not_le.mp fraction
        by_cases long : (shortest x.magnitude).digits.length ≤ (shortest x.magnitude).point.toNat
        · rw [positional_whole positive long] at read ⊢
          obtain ⟨c, cs, cons⟩ := List.exists_cons_of_ne_nil means.nonempty
          have lead := means.lead
          rw [cons] at read lead ⊢
          rw [List.cons_append] at read ⊢
          rw [ofDigits?_of_ne_nil (by simp)] at read
          obtain ⟨some, same⟩ := digits_of_continued? (by simp) (by exact lead) read
          exact ⟨same, fun none => absurd none (Nat.ne_of_gt some)⟩
        · rw [positional_mixed positive (Nat.not_le.mp long), ofDigits?_point] at read
          cases read

/-- A number that is not the zero below zero, and whose text can be read as a whole number, is
written as that. -/
theorem signedText_of_signedWord? {x : Binary64} (other : x ≠ zero.neg) {n : Int64}
    (read : signedWord? x.text = some n) : signedText n.toInt = x.text := by
  have signed := signed?_of_signedWord? read
  cases h : x.isNaN with
  | true =>
    rw [text_of_isNaN h] at signed
    cases signed
  | false =>
    obtain ⟨c, cs, written, plus, minus, _⟩ := unsignedMagnitude?_body h
    rw [text_of_body h, String.toList_ofList, written] at signed
    obtain ⟨k, whole, value⟩ := ofDigits?_of_signed? plus minus signed
    rw [← written] at whole
    obtain ⟨digits, zero⟩ := digits_of_ofDigits?_body whole
    rw [text_of_body h, ← digits, signedText]
    cases negative : x.negative with
    | true =>
      rw [negative, if_pos rfl] at value
      have some : k ≠ 0 := by
        intro none
        have magnitude := ofMagnitude_magnitude x
        rw [negative, zero none] at magnitude
        exact other magnitude.symm
      have below : n.toInt < 0 := by omega
      have absolute : n.toInt.natAbs = k := by omega
      rw [if_pos below, absolute, if_pos rfl]
    | false =>
      rw [negative, if_neg (by decide)] at value
      have notBelow : ¬ n.toInt < 0 := by omega
      have absolute : n.toInt.natAbs = k := by omega
      rw [if_neg notBelow, Numeral.text, absolute, if_neg (by decide)]

end BackOffice.Binary64
