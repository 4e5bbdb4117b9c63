import BackOffice.Number.Numeral
import Mathlib.Algebra.Group.Nat.Defs
import Mathlib.Data.List.Induction
import Mathlib.Data.List.TakeDrop

/-!
# Numerals read back

The digits that are written for a number are read as that number, in base ten, in base sixteen and
with leading zeros up to a width. Words read back from their texts, signed ones with their signs.
-/
namespace BackOffice.Numeral

/-! ## Single digits -/

theorem digit?_digitChar {d : Nat} (h : d < 10) : digit? (digitChar d) = some d := by
  have all : ∀ d, d < 10 → digit? (digitChar d) = some d := by decide
  exact all d h

theorem hexDigit?_hexChar {d : Nat} (h : d < 16) : hexDigit? (hexChar d) = some d := by
  have all : ∀ d, d < 16 → hexDigit? (hexChar d) = some d := by decide
  exact all d h

theorem isDigit_digitChar {d : Nat} (h : d < 10) : isDigit (digitChar d) = true := by
  rw [isDigit, digit?_digitChar h, Option.isSome_some]

theorem exists_digitChar {c : Char} (h : isDigit c = true) : ∃ d, d < 10 ∧ c = digitChar d := by
  rw [isDigit, digit?] at h
  split at h
  · next range =>
    have least : 48 ≤ c.toNat := range.1
    have most : c.toNat ≤ 57 := range.2
    refine ⟨c.toNat - 48, by omega, ?_⟩
    have zero : '0'.toNat = 48 := rfl
    rw [digitChar, zero, Nat.add_sub_cancel' least, Char.ofNat_toNat]
  · cases h

theorem eq_digitChar_of_digit? {c : Char} {d : Nat} (h : digit? c = some d) :
    d < 10 ∧ c = digitChar d := by
  have digit : isDigit c = true := by rw [isDigit, h, Option.isSome_some]
  obtain ⟨e, small, rfl⟩ := exists_digitChar digit
  rw [digit?_digitChar small] at h
  cases h
  exact ⟨small, rfl⟩

/-! ## Rows of digits -/

section Continued

variable {base : Nat} {value? : Char → Option Nat}

theorem continued?_append (acc : Nat) (cs ds : List Char) :
    continued? base value? acc (cs ++ ds) =
      (continued? base value? acc cs).bind fun n => continued? base value? n ds := by
  induction cs generalizing acc with
  | nil => rfl
  | cons c cs ih =>
    rw [List.cons_append, continued?, continued?]
    cases value? c with
    | none => rfl
    | some d => exact ih (acc * base + d)

theorem continued?_concat {acc n d : Nat} {cs : List Char} {c : Char}
    (front : continued? base value? acc cs = some n) (last : value? c = some d) :
    continued? base value? acc (cs ++ [c]) = some (n * base + d) := by
  rw [continued?_append, front, Option.bind_some, continued?, last]
  rfl

end Continued

theorem digits_eq_concat {n : Nat} (h : 10 ≤ n) :
    digits n = digits (n / 10) ++ [digitChar (n % 10)] := by
  rw [digits, if_neg (Nat.not_lt.mpr h)]

theorem digits_of_lt {n : Nat} (h : n < 10) : digits n = [digitChar n] := by
  rw [digits, if_pos h]

theorem digits_ne_nil (n : Nat) : digits n ≠ [] := by
  rw [digits]
  split <;> simp

theorem isDigit_of_mem_digits {n : Nat} {c : Char} (h : c ∈ digits n) : isDigit c = true := by
  induction n using Nat.strongRecOn with
  | ind n ih =>
    by_cases small : n < 10
    · rw [digits_of_lt small, List.mem_singleton] at h
      exact h ▸ isDigit_digitChar small
    · rw [digits_eq_concat (Nat.not_lt.mp small), List.mem_append, List.mem_singleton] at h
      rcases h with front | rfl
      · exact ih (n / 10) (by omega) front
      · exact isDigit_digitChar (Nat.mod_lt n (by decide))

theorem continued?_digits (n : Nat) : continued? 10 digit? 0 (digits n) = some n := by
  induction n using Nat.strongRecOn with
  | ind n ih =>
    by_cases small : n < 10
    · rw [digits_of_lt small, continued?, digit?_digitChar small]
      simp [continued?]
    · have last := digit?_digitChar (Nat.mod_lt n (show 10 > 0 by decide))
      rw [digits_eq_concat (Nat.not_lt.mp small),
        continued?_concat (ih (n / 10) (by omega)) last, Nat.div_add_mod']

theorem ofDigits?_of_ne_nil {cs : List Char} (some : cs ≠ []) :
    ofDigits? cs = continued? 10 digit? 0 cs := by
  cases cs with
  | nil => exact absurd rfl some
  | cons c cs => rfl

/-- The digits of a number are read as the number. -/
theorem ofDigits?_digits (n : Nat) : ofDigits? (digits n) = some n := by
  rw [ofDigits?_of_ne_nil (digits_ne_nil n), continued?_digits]

theorem lt_pow_length_digits (n : Nat) : n < 10 ^ (digits n).length := by
  induction n using Nat.strongRecOn with
  | ind n ih =>
    by_cases small : n < 10
    · rw [digits_of_lt small]
      exact small
    · have front := ih (n / 10) (by omega)
      rw [digits_eq_concat (Nat.not_lt.mp small), List.length_append, List.length_singleton,
        Nat.pow_succ]
      omega

/-- A number has no more digits than it needs. -/
theorem pow_length_digits_le {n : Nat} (positive : 0 < n) : 10 ^ ((digits n).length - 1) ≤ n := by
  induction n using Nat.strongRecOn with
  | ind n ih =>
    by_cases small : n < 10
    · rw [digits_of_lt small]
      exact positive
    · have front := ih (n / 10) (by omega) (by omega)
      obtain ⟨length, grown⟩ : ∃ k, (digits (n / 10)).length = k + 1 :=
        ⟨_, (Nat.sub_add_cancel (List.length_pos_iff.mpr (digits_ne_nil _))).symm⟩
      rw [digits_eq_concat (Nat.not_lt.mp small), List.length_append, List.length_singleton, grown,
        Nat.add_sub_cancel, Nat.pow_succ]
      rw [grown, Nat.add_sub_cancel] at front
      omega

theorem head_digits_ne_zero {n : Nat} (positive : 0 < n) : (digits n).head? ≠ some '0' := by
  induction n using Nat.strongRecOn with
  | ind n ih =>
    by_cases small : n < 10
    · have all : ∀ d, d < 10 → 0 < d → digitChar d ≠ '0' := by decide
      rw [digits_of_lt small, List.head?_cons]
      exact fun same => all n small positive (Option.some.inj same)
    · obtain ⟨c, cs, front⟩ := List.exists_cons_of_ne_nil (digits_ne_nil (n / 10))
      have lead := ih (n / 10) (by omega) (by omega)
      rw [digits_eq_concat (Nat.not_lt.mp small), front, List.cons_append, List.head?_cons]
      rwa [front, List.head?_cons] at lead

/-- Digits without a leading zero are those of the number that they are read as. -/
theorem digits_of_continued? {cs : List Char} {n : Nat} (some : cs ≠ [])
    (lead : cs.head? ≠ .some '0') (read : continued? 10 digit? 0 cs = .some n) :
    0 < n ∧ digits n = cs := by
  induction cs using List.reverseRecOn generalizing n with
  | nil => exact absurd rfl some
  | append_singleton front c ih =>
    rw [continued?_append] at read
    obtain ⟨m, before, last⟩ := Option.bind_eq_some_iff.mp read
    rw [continued?] at last
    cases digit : digit? c with
    | none =>
      rw [digit] at last
      cases last
    | some d =>
      rw [digit] at last
      cases last
      obtain ⟨small, rfl⟩ := eq_digitChar_of_digit? digit
      by_cases first : front = []
      · subst first
        cases before
        have positive : d ≠ 0 := by
          rintro rfl
          exact lead rfl
        rw [Nat.zero_mul, Nat.zero_add, digits_of_lt small]
        exact ⟨Nat.pos_of_ne_zero positive, rfl⟩
      · have lead' : front.head? ≠ .some '0' := by
          obtain ⟨f, fs, rfl⟩ := List.exists_cons_of_ne_nil first
          exact lead
        obtain ⟨positive, same⟩ := ih first lead' before
        have tens : (m * 10 + d) / 10 = m := by omega
        have ones : (m * 10 + d) % 10 = d := by omega
        refine ⟨by omega, ?_⟩
        rw [digits_eq_concat (by omega), tens, ones, same]

/-- Digits are told apart from what follows them, unless that starts with one. -/
theorem span_isDigit_append {ds rest : List Char} (digits : ∀ c ∈ ds, isDigit c = true)
    (stop : ∀ c ∈ rest.head?, isDigit c = false) : (ds ++ rest).span isDigit = (ds, rest) := by
  rw [List.span_eq_takeWhile_dropWhile, List.takeWhile_append_of_pos digits,
    List.dropWhile_append_of_pos digits]
  cases rest with
  | nil => simp
  | cons c cs => simp [stop c rfl]

/-! ## Digits up to a width -/

theorem length_padded (width n : Nat) : (padded width n).length = width := by
  induction width generalizing n with
  | zero => rfl
  | succ width ih => rw [padded, List.length_append, ih, List.length_singleton]

theorem isDigit_of_mem_padded {width n : Nat} {c : Char} (h : c ∈ padded width n) :
    isDigit c = true := by
  induction width generalizing n with
  | zero => cases h
  | succ width ih =>
    rw [padded, List.mem_append, List.mem_singleton] at h
    rcases h with front | rfl
    · exact ih front
    · exact isDigit_digitChar (Nat.mod_lt n (by decide))

theorem continued?_padded {width n : Nat} (h : n < 10 ^ width) :
    continued? 10 digit? 0 (padded width n) = some n := by
  induction width generalizing n with
  | zero =>
    rw [Nat.lt_one_iff.mp h]
    rfl
  | succ width ih =>
    have front : n / 10 < 10 ^ width := Nat.div_lt_of_lt_mul (by rwa [Nat.mul_comm, ← Nat.pow_succ])
    have last := digit?_digitChar (Nat.mod_lt n (show 10 > 0 by decide))
    rw [padded, continued?_concat (ih front) last, Nat.div_add_mod']

theorem ofDigits?_padded {width n : Nat} (some : width ≠ 0) (h : n < 10 ^ width) :
    ofDigits? (padded width n) = .some n := by
  have filled : padded width n ≠ [] := by
    intro none
    exact some (by rw [← length_padded width n, none, List.length_nil])
  rw [ofDigits?_of_ne_nil filled, continued?_padded h]

theorem length_hexPadded (width n : Nat) : (hexPadded width n).length = width := by
  induction width generalizing n with
  | zero => rfl
  | succ width ih => rw [hexPadded, List.length_append, ih, List.length_singleton]

theorem continued?_hexPadded {width n : Nat} (h : n < 16 ^ width) :
    continued? 16 hexDigit? 0 (hexPadded width n) = some n := by
  induction width generalizing n with
  | zero =>
    rw [Nat.lt_one_iff.mp h]
    rfl
  | succ width ih =>
    have front : n / 16 < 16 ^ width := Nat.div_lt_of_lt_mul (by rwa [Nat.mul_comm, ← Nat.pow_succ])
    have last := hexDigit?_hexChar (Nat.mod_lt n (show 16 > 0 by decide))
    rw [hexPadded, continued?_concat (ih front) last, Nat.div_add_mod']

theorem ofHex?_hexPadded {width n : Nat} (some : width ≠ 0) (h : n < 16 ^ width) :
    ofHex? (hexPadded width n) = .some n := by
  have value := continued?_hexPadded h
  have length := length_hexPadded width n
  cases written : hexPadded width n with
  | nil =>
    rw [written] at length
    exact absurd length.symm some
  | cons c cs =>
    rw [written] at value
    exact value

/-! ## Words -/

/-- A row that starts with a digit does not start with a sign. -/
theorem head_digits (n : Nat) : ∃ c cs, digits n = c :: cs ∧ c ≠ '+' ∧ c ≠ '-' := by
  cases h : digits n with
  | nil => exact absurd h (digits_ne_nil n)
  | cons c cs =>
    have digit : isDigit c = true := isDigit_of_mem_digits (n := n) (h ▸ List.mem_cons_self)
    refine ⟨c, cs, rfl, ?_, ?_⟩
    · rintro rfl
      exact absurd digit (by decide)
    · rintro rfl
      exact absurd digit (by decide)

theorem unsigned?_digits (n : Nat) : unsigned? (digits n) = some n := by
  obtain ⟨c, cs, h, plus, _⟩ := head_digits n
  rw [← ofDigits?_digits n, h, unsigned?]
  rintro rest ⟨⟩
  exact plus rfl

theorem signed?_digits (n : Nat) : signed? (digits n) = some (n : Int) := by
  obtain ⟨c, cs, h, _, minus⟩ := head_digits n
  have number := unsigned?_digits n
  rw [h] at number ⊢
  rw [signed?, number]
  · rfl
  · rintro rest ⟨⟩
    exact minus rfl

theorem word?_text (n : UInt64) : word? (text n.toNat) = some n := by
  rw [word?, text, String.toList_ofList, unsigned?_digits]
  simp [n.toNat_lt, UInt64.ofNat_toNat]

theorem signed?_signedText (n : Int) : signed? (signedText n).toList = some n := by
  rw [signedText]
  split
  · next negative =>
    have size : -(n.natAbs : Int) = n := by omega
    rw [String.toList_ofList, signed?, ofDigits?_digits]
    exact congrArg some size
  · next positive =>
    rw [text, String.toList_ofList, signed?_digits]
    exact congrArg some (by omega)

theorem signedWord?_signedText (n : Int64) : signedWord? (signedText n.toInt) = some n := by
  have low := n.le_toInt
  have high := n.toInt_lt
  rw [signedWord?, signed?_signedText]
  simp only [low, high]
  simp

theorem signed?_of_signedWord? {s : String} {n : Int64} (h : signedWord? s = some n) :
    signed? s.toList = some n.toInt := by
  rw [signedWord?] at h
  cases read : signed? s.toList with
  | none =>
    rw [read] at h
    cases h
  | some v =>
    simp only [read] at h
    split at h
    · next range =>
      cases h
      rw [Int64.toInt_ofInt_of_le range.1 range.2]
    · cases h

/-- A signed number is a number of digits, and below zero if a minus sign stands in front. -/
theorem ofDigits?_of_signed? {negative : Bool} {c : Char} {cs : List Char} (plus : c ≠ '+')
    (minus : c ≠ '-') {n : Int}
    (read : signed? (if negative then '-' :: c :: cs else c :: cs) = some n) :
    ∃ k : Nat, ofDigits? (c :: cs) = some k ∧ n = if negative then -(k : Int) else k := by
  cases negative with
  | true =>
    rw [if_pos rfl, signed?] at read
    cases digits : ofDigits? (c :: cs) with
    | none =>
      rw [digits] at read
      cases read
    | some k =>
      rw [digits] at read
      cases read
      exact ⟨k, rfl, rfl⟩
  | false =>
    have unsigned : unsigned? (c :: cs) = ofDigits? (c :: cs) := by
      rw [unsigned?]
      rintro rest ⟨⟩
      exact plus rfl
    rw [if_neg (by decide), signed?, unsigned] at read
    · cases digits : ofDigits? (c :: cs) with
      | none =>
        rw [digits] at read
        cases read
      | some k =>
        rw [digits] at read
        cases read
        exact ⟨k, rfl, rfl⟩
    · rintro rest ⟨⟩
      exact minus rfl

end BackOffice.Numeral
