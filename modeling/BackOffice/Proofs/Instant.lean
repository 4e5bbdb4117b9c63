import BackOffice.Instant
import BackOffice.Proofs.Number.Numeral

/-!
# Instants read back

The form of an instant that travels is read if its year has four digits; the reader does not take
the signed years of the others. What is read is what a clock shows: a leap second that does not end
a minute is taken for the second after it, and every other instant for itself.
-/
namespace BackOffice.Instant

open BackOffice.Numeral

/-- A row of digits is read as its number if no further digit can be taken. -/
theorem number?_padded {least most width n : Nat} {rest : List Char} (some : width ≠ 0)
    (enough : least ≤ width) (fits : width ≤ most) (value : n < 10 ^ width)
    (stop : width = most ∨ ∀ c ∈ rest.head?, isDigit c = false) :
    number? least most (padded width n ++ rest) = .some (n, rest) := by
  have length := length_padded width n
  have digits : ((padded width n ++ rest).take most).takeWhile isDigit = padded width n := by
    have behind : (rest.take (most - width)).takeWhile isDigit = [] := by
      rcases stop with full | other
      · rw [full, Nat.sub_self]
        rfl
      · cases rest with
        | nil => rw [List.take_nil, List.takeWhile_nil]
        | cons c cs =>
          cases most - width with
          | zero => rfl
          | succ k => rw [List.take_succ_cons, List.takeWhile_cons_of_neg (by simp [other c rfl])]
    rw [List.take_append, List.take_of_length_le (by omega), length,
      List.takeWhile_append_of_pos fun c hc => isDigit_of_mem_padded hc, behind, List.append_nil]
  rw [number?, digits, length, if_pos enough, ofDigits?_padded some value, Option.map_some,
    List.drop_left' length]

/-- Digits after a point are read as a part of a second, here of `10 ^ width` parts of one. -/
theorem fraction?_padded {width n : Nat} (some : 0 < width) (most : width ≤ 9)
    (value : n < 10 ^ width) {c : Char} (cs : List Char) (other : isDigit c = false) :
    fraction? ('.' :: padded width n ++ c :: cs) = .some (n * 10 ^ (9 - width), c :: cs) := by
  have read : number? 1 9 (padded width n ++ c :: cs) = .some (n, c :: cs) :=
    number?_padded (Nat.ne_of_gt some) some most value (.inr (by rintro d ⟨⟩; exact other))
  have length : (padded width n ++ c :: cs).length - (c :: cs).length = width := by
    rw [List.length_append, length_padded, Nat.add_sub_cancel]
  rw [List.cons_append, fraction?, read, Option.map_some]
  dsimp only
  rw [length, List.dropWhile_cons_of_neg (by simp [other])]

theorem fraction?_fractionText {nanos : Nat} (bound : nanos < 10 ^ 9) {c : Char} (cs : List Char)
    (other : isDigit c = false) (noPoint : c ≠ '.') :
    fraction? (fractionText nanos ++ c :: cs) = some (nanos, c :: cs) := by
  rw [fractionText]
  split
  · next zero =>
    rw [List.nil_append, fraction?, zero]
    rintro rest ⟨⟩
    exact noPoint rfl
  · split
    · next millis =>
      have parts : nanos / 10 ^ 6 * 10 ^ (9 - 3) = nanos := by omega
      rw [fraction?_padded (by decide) (by decide) (by omega) cs other, parts]
    · split
      · next micros =>
        have parts : nanos / 10 ^ 3 * 10 ^ (9 - 6) = nanos := by omega
        rw [fraction?_padded (by decide) (by decide) (by omega) cs other, parts]
      · have parts : nanos * 10 ^ (9 - 9) = nanos := by omega
        rw [fraction?_padded (by decide) (by decide) bound cs other, parts]

/-! ## Leap seconds -/

/-- The instant that a clock shows as it shows `t`. Only the leap second at the end of a minute has
a number of its own. -/
def shown (t : Instant) : Instant :=
  if leap : 10 ^ 9 ≤ t.nanos ∧ t.second < 59 then
    { t with
      second := t.second + 1
      nanos := t.nanos - 10 ^ 9
      isTime := by
        obtain ⟨hour, minute, _, nanos⟩ := t.isTime
        exact ⟨hour, minute, by omega, by omega⟩ }
  else t

theorem shown_of_leap {t : Instant} (nanos : 10 ^ 9 ≤ t.nanos) (second : t.second < 59) :
    t.shown.second = t.second + 1 ∧ t.shown.nanos = t.nanos - 10 ^ 9 := by
  rw [shown, dif_pos ⟨nanos, second⟩]
  exact ⟨rfl, rfl⟩

theorem shown_eq_self {t : Instant} (plain : ¬(10 ^ 9 ≤ t.nanos ∧ t.second < 59)) : t.shown = t :=
  dif_neg plain

/-- An instant is what a clock shows unless it is a leap second before the end of a minute. -/
theorem shown_eq_iff {t : Instant} : t.shown = t ↔ (10 ^ 9 ≤ t.nanos → t.second = 59) := by
  obtain ⟨_, _, second, _⟩ := t.isTime
  constructor
  · intro same nanos
    by_contra other
    have moved := (shown_of_leap nanos (by omega)).1
    rw [same] at moved
    omega
  · intro last
    exact shown_eq_self fun ⟨nanos, before⟩ => by
      have := last nanos
      omega

theorem isShown (t : Instant) : Civil.IsShown t.hour t.minute t.shownSecond t.shownNanos := by
  obtain ⟨hour, minute, second, nanos⟩ := t.isTime
  have whole : t.shownSecond ≤ 60 := by
    rw [shownSecond]
    omega
  exact ⟨hour, minute, whole, Nat.mod_lt _ (by decide)⟩

theorem shownSecond_shown (t : Instant) : t.shown.shownSecond = t.shownSecond := by
  obtain ⟨_, _, _, bound⟩ := t.isTime
  by_cases leap : 10 ^ 9 ≤ t.nanos ∧ t.second < 59
  · obtain ⟨second, nanos⟩ := shown_of_leap leap.1 leap.2
    rw [shownSecond, shownSecond, second, nanos]
    omega
  · rw [shown_eq_self leap]

theorem shownNanos_shown (t : Instant) : t.shown.shownNanos = t.shownNanos := by
  by_cases leap : 10 ^ 9 ≤ t.nanos ∧ t.second < 59
  · rw [shownNanos, shownNanos, (shown_of_leap leap.1 leap.2).2]
    omega
  · rw [shown_eq_self leap]

/-- The two are told apart by no text. -/
theorem text_shown (t : Instant) : t.shown.text = t.text := by
  have date : t.shown.year = t.year ∧ t.shown.month = t.month ∧ t.shown.day = t.day ∧
      t.shown.hour = t.hour ∧ t.shown.minute = t.minute := by
    rw [shown]
    split <;> exact ⟨rfl, rfl, rfl, rfl, rfl⟩
  obtain ⟨year, month, day, hour, minute⟩ := date
  rw [text, text, chars, chars, year, month, day, hour, minute, shownSecond_shown,
    shownNanos_shown]

theorem ofFields?_fields (t : Instant) :
    ofFields? t.year t.month t.day t.hour t.minute t.second t.nanos = some t := by
  rw [ofFields?, dif_pos t.isDate, dif_pos t.isTime]

/-- A second that is shown as the sixty-first is kept in the sixtieth. -/
theorem ofFields?_shown (t : Instant) :
    (if t.shownSecond = 60 then
      ofFields? t.year t.month t.day t.hour t.minute 59 (t.shownNanos + 10 ^ 9)
    else ofFields? t.year t.month t.day t.hour t.minute t.shownSecond t.shownNanos) =
      some t.shown := by
  obtain ⟨_, _, bound, nanos⟩ := t.isTime
  have own := ofFields?_fields t
  rw [shownSecond, shownNanos]
  by_cases leap : 10 ^ 9 ≤ t.nanos
  · have one : t.nanos / 10 ^ 9 = 1 := by omega
    have rest : t.nanos % 10 ^ 9 + 10 ^ 9 = t.nanos := by omega
    by_cases last : t.second = 59
    · rw [one, rest, if_pos (by omega), shown_eq_iff.mpr fun _ => last, ← own, last]
    · have inner : 10 ^ 9 ≤ t.nanos ∧ t.second < 59 := ⟨leap, by omega⟩
      have cut : t.nanos % 10 ^ 9 = t.nanos - 10 ^ 9 := by omega
      rw [one, cut, if_neg (by omega), ← ofFields?_fields t.shown, shown, dif_pos inner]
  · have none : t.nanos / 10 ^ 9 = 0 := by omega
    have all : t.nanos % 10 ^ 9 = t.nanos := by omega
    rw [none, all, Nat.add_zero, if_neg (by omega), own, shown_eq_self (by omega)]

/-- At the meridian, the fields that are shown are those of the instant that is read. -/
theorem ofLocal?_zero (t : Instant) :
    ofLocal? t.year t.month t.day t.hour t.minute t.shownSecond t.shownNanos 0 = some t.shown := by
  have time := t.isShown
  have within : (0 : Int) ≤ t.hour * 60 + t.minute - 0 ∧
      (t.hour * 60 + t.minute - 0 : Int) < 1440 := by
    obtain ⟨hour, minute, _⟩ := time
    omega
  have same : ((t.hour * 60 + t.minute - 0 : Int).fmod 1440).toNat = t.hour * 60 + t.minute := by
    rw [Int.fmod_eq_emod_of_nonneg _ (by decide), Int.emod_eq_of_lt within.1 within.2]
    omega
  have hour : (t.hour * 60 + t.minute) / 60 = t.hour := by
    obtain ⟨_, minute, _⟩ := time
    omega
  have minute : (t.hour * 60 + t.minute) % 60 = t.minute := by
    obtain ⟨_, minute, _⟩ := time
    omega
  rw [ofLocal?, if_pos ⟨t.isDate, time⟩]
  dsimp only
  rw [if_neg (Int.not_lt.mpr within.1), if_pos within.2, same, hour, minute]
  exact ofFields?_shown t

/-! ## The text read -/

theorem chars_eq (t : Instant) (offset : List Char) (year : 0 ≤ t.year ∧ t.year ≤ 9999) :
    t.chars offset = padded 4 t.year.toNat ++ '-' :: (padded 2 t.month ++ '-' :: (padded 2 t.day ++
      'T' :: (padded 2 t.hour ++ ':' :: (padded 2 t.minute ++ ':' :: (padded 2 t.shownSecond ++
        (fractionText t.shownNanos ++ offset)))))) := by
  rw [chars, yearText, if_pos year]
  simp only [List.append_assoc, List.cons_append]

theorem daysIn_le (year : Int) (month : Nat) : Civil.daysIn year month ≤ 31 := by
  unfold Civil.daysIn
  split
  · split <;> decide
  all_goals decide

/-- From the text of an instant of a year of four digits, the instant that it shows is read. -/
theorem ofText?_text {t : Instant} (year : 0 ≤ t.year ∧ t.year ≤ 9999) :
    ofText? t.text = some t.shown := by
  obtain ⟨_, _, _, month, _, day⟩ := t.isDate
  obtain ⟨hour, minute, second, nanos⟩ := t.isShown
  have days := daysIn_le t.year t.month
  -- Rows of a fixed width are told from what follows by their width; only the fraction is not.
  have two {n : Nat} (value : n < 100) (rest : List Char) :
      number? 2 2 (padded 2 n ++ rest) = some (n, rest) :=
    number?_padded (by decide) (by decide) (by decide) value (.inl rfl)
  have four (rest : List Char) :
      number? 4 4 (padded 4 t.year.toNat ++ rest) = some (t.year.toNat, rest) :=
    number?_padded (by decide) (by decide) (by decide) (by omega) (.inl rfl)
  have fraction : fraction? (fractionText t.shownNanos ++ "+00:00".toList) =
      some (t.shownNanos, "+00:00".toList) :=
    fraction?_fractionText nanos _ (by decide) (by decide)
  have offset : offset? (expect? ':') "+00:00".toList = some (0, []) := by decide
  have signed : ((t.year.toNat : Nat) : Int) = t.year := Int.toNat_of_nonneg year.1
  have read := ofLocal?_zero t
  rw [text, ofText?, String.toList_ofList, chars_eq t _ year, four]
  simp only [Option.bind_eq_bind, Option.bind_some, expect?, separator?, if_pos, true_or, or_true,
    two (by omega : t.month < 100), two (by omega : t.day < 100), two (by omega : t.hour < 100),
    two (by omega : t.minute < 100), two (by omega : t.shownSecond < 100), fraction, offset, signed]
  exact read

/-- The sign in front of any other year is not read. -/
theorem ofText?_text_none {t : Instant} (year : ¬(0 ≤ t.year ∧ t.year ≤ 9999)) :
    ofText? t.text = none := by
  obtain ⟨sign, rest, signed, noDigit⟩ : ∃ sign rest, t.chars "+00:00".toList = sign :: rest ∧
      isDigit sign = false := by
    rw [chars, yearText, if_neg year]
    refine ⟨_, _, rfl, ?_⟩
    split <;> decide
  have none : number? 4 4 (sign :: rest) = none := by
    rw [number?, List.take_succ_cons, List.takeWhile_cons_of_neg (by simp [noDigit])]
    rfl
  rw [text, ofText?, String.toList_ofList, signed, none]
  rfl

/-- The instant has a text of its own: a year of four digits and no leap second before the end of a
minute. -/
def IsReadable (t : Instant) : Prop :=
  (0 ≤ t.year ∧ t.year ≤ 9999) ∧ (10 ^ 9 ≤ t.nanos → t.second = 59)

instance (t : Instant) : Decidable t.IsReadable := inferInstanceAs (Decidable (_ ∧ _))

theorem ofText?_text_iff {t : Instant} : ofText? t.text = some t ↔ t.IsReadable := by
  by_cases year : 0 ≤ t.year ∧ t.year ≤ 9999
  · rw [ofText?_text year, Option.some_inj, shown_eq_iff, IsReadable, and_iff_right year]
  · rw [ofText?_text_none year]
    exact iff_of_false nofun fun own => year own.1

end BackOffice.Instant
