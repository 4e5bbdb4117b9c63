import BackOffice.Proofs.Field.Format
import BackOffice.Proofs.Pattern.Case

/-!
# Telephone numbers

The format of telephone numbers takes a plus sign, which may be missing, and eight to fifteen
digits. The first is one of the nine of ASCII; the others may be of any script, so that the numbers of
E.164 are those without digits of other scripts.
-/
namespace BackOffice.Field.Format

open BackOffice.Pattern BackOffice.Text

/-- Eight to fifteen digits of a kind, the first of them one that may lead. -/
structure Digits (digit leading : Char → Bool) (ds : List Char) : Prop where
  enough : 8 ≤ ds.length
  bounded : ds.length ≤ 15
  digits : ∀ d ∈ ds, digit d = true
  leading : ∀ d ∈ ds.head?, leading d = true

/-- Digits of a kind, with or without a plus sign before them. -/
def IsNumber (digit leading : Char → Bool) (s : String) : Prop :=
  ∃ ds, Digits digit leading ds ∧ (s.toList = ds ∨ s.toList = '+' :: ds)

/-- The numbers of E.164: eight to fifteen digits of ASCII without a leading zero. -/
def IsE164 : String → Prop := IsNumber Char.isDigit (· != '0')

def isLeading (c : Char) : Bool := '1' ≤ c && c ≤ '9'

variable {c : Char} {cs ds : List Char} {s : String}

/-! ## Digits -/

theorem isDigit_iff : isDigit c = true ↔ ∃ span ∈ Category.decimalNumber.spans, span.has c.toNat := by
  rw [isDigit, Category.has, Span.anyHas, List.any_eq_true]

theorem isDigit_ascii_iff : c.isDigit = true ↔ 0x30 ≤ c.toNat ∧ c.toNat ≤ 0x39 := by
  simp only [Char.isDigit, Bool.and_eq_true, decide_eq_true_eq]
  exact Iff.rfl

theorem isLeading_iff : isLeading c = true ↔ 0x31 ≤ c.toNat ∧ c.toNat ≤ 0x39 := by
  simp only [isLeading, Bool.and_eq_true, decide_eq_true_eq]
  exact Iff.rfl

theorem isLeading_iff_ne_zero (digit : c.isDigit = true) : isLeading c = true ↔ c ≠ '0' := by
  have zero : c = '0' ↔ c.toNat = 0x30 := Char.toNat_inj.symm
  rw [isDigit_ascii_iff] at digit
  rw [isLeading_iff, Ne, zero]
  omega

theorem isDigit_ascii_of_isLeading (leading : isLeading c = true) : c.isDigit = true := by
  rw [isLeading_iff] at leading
  rw [isDigit_ascii_iff]
  omega

/-- The digits of ASCII are among those of all scripts. -/
theorem isDigit_of_ascii (ascii : c.isDigit = true) : isDigit c = true := by
  obtain ⟨above, below⟩ := isDigit_ascii_iff.mp ascii
  exact isDigit_iff.mpr ⟨⟨0x30, 0x39, 1⟩, by decide, Span.has_iff.mpr ⟨above, below, Nat.mod_one _⟩⟩

/-- White space has no digits in any script. -/
theorem isBlankChar_of_isDigit (digit : isDigit c = true) : isBlankChar c = false := by
  have apart : ∀ d ∈ Category.decimalNumber.spans, ∀ b ∈ blankSpans,
      d.last < b.1 ∨ b.2 < d.first := by decide +kernel
  obtain ⟨span, member, has⟩ := isDigit_iff.mp digit
  obtain ⟨above, below, _⟩ := Span.has_iff.mp has
  rw [isBlankChar, List.any_eq_false]
  rintro b blank
  have := apart span member b blank
  simp only [Bool.and_eq_true, decide_eq_true_eq]
  omega

/-! ## The check -/

theorem digits_cons_iff : Digits isDigit isLeading (c :: ds) ↔
    isLeading c = true ∧ 7 ≤ ds.length ∧ ds.length ≤ 14 ∧ ∀ d ∈ ds, isDigit d = true := by
  constructor
  · rintro ⟨enough, bounded, digits, leading⟩
    rw [List.length_cons] at enough bounded
    exact ⟨leading c rfl, by omega, by omega, fun d hd => digits d (List.mem_cons_of_mem c hd)⟩
  · rintro ⟨leading, enough, bounded, digits⟩
    refine ⟨?_, ?_, ?_, ?_⟩
    · rw [List.length_cons]
      omega
    · rw [List.length_cons]
      omega
    · exact List.forall_mem_cons.mpr
        ⟨isDigit_of_ascii (isDigit_ascii_of_isLeading leading), digits⟩
    · rintro _ ⟨_⟩
      exact leading

theorem not_digits_plus : ¬Digits isDigit isLeading ('+' :: cs) := by
  intro h
  have leads : isLeading '+' = true := h.leading '+' rfl
  contradiction

theorem isPhone_signed_iff :
    isPhone (String.ofList ('+' :: cs)) = true ↔ Digits isDigit isLeading cs := by
  simp only [isPhone, String.toList_ofList]
  cases cs with
  | nil => exact iff_of_false Bool.false_ne_true fun h => absurd h.enough (by decide)
  | cons c ds =>
    simp only [digits_cons_iff, isLeading, Bool.and_eq_true, decide_eq_true_eq, List.all_eq_true,
      and_assoc]

/-- A plus sign in front of a text that has none makes no difference. -/
theorem isPhone_signed (unsigned : ∀ ds, s.toList ≠ '+' :: ds) :
    isPhone (String.ofList ('+' :: s.toList)) = isPhone s := by
  simp only [isPhone, String.toList_ofList]

theorem isPhone_iff : isPhone s = true ↔ IsNumber isDigit isLeading s := by
  by_cases signed : ∃ ds, s.toList = '+' :: ds
  · obtain ⟨ds, signed⟩ := signed
    have text : s = String.ofList ('+' :: ds) := by rw [← signed, String.ofList_toList]
    rw [IsNumber, signed, text, isPhone_signed_iff]
    refine ⟨fun digits => ⟨ds, digits, .inr rfl⟩, ?_⟩
    rintro ⟨_, digits, rfl | same⟩
    · exact absurd digits not_digits_plus
    · cases same
      exact digits
  · have unsigned : ∀ ds, s.toList ≠ '+' :: ds := not_exists.mp signed
    rw [IsNumber, ← isPhone_signed unsigned, isPhone_signed_iff]
    refine ⟨fun digits => ⟨_, digits, .inl rfl⟩, ?_⟩
    rintro ⟨ds, digits, rfl | same⟩
    · exact digits
    · exact absurd same (unsigned ds)

/-- A number has only digits, and perhaps a plus sign in front. -/
theorem IsNumber.mem {digit leading : Char → Bool} (h : IsNumber digit leading s)
    (member : c ∈ s.toList) : c = '+' ∨ digit c = true := by
  obtain ⟨ds, digits, same | same⟩ := h
  · exact .inr (digits.digits c (same ▸ member))
  · rw [same, List.mem_cons] at member
    exact member.imp_right (digits.digits c)

theorem digits_ascii_iff : Digits Char.isDigit (· != '0') ds ↔
    Digits isDigit isLeading ds ∧ ∀ d ∈ ds, isDigit d = true → d.isDigit = true := by
  constructor
  · rintro ⟨enough, bounded, digits, leading⟩
    refine ⟨⟨enough, bounded, fun d hd => isDigit_of_ascii (digits d hd), fun d first => ?_⟩,
      fun d hd _ => digits d hd⟩
    have ascii := digits d (List.mem_of_mem_head? first)
    exact (isLeading_iff_ne_zero ascii).mpr (bne_iff_ne.mp (leading d first))
  · rintro ⟨⟨enough, bounded, digits, leading⟩, ascii⟩
    refine ⟨enough, bounded, fun d hd => ascii d hd (digits d hd), fun d first => ?_⟩
    have leads := leading d first
    exact bne_iff_ne.mpr ((isLeading_iff_ne_zero (isDigit_ascii_of_isLeading leads)).mp leads)

/-- The numbers of E.164 are those that have digits of no other script. -/
theorem isE164_iff : IsE164 s ↔
    isPhone s = true ∧ ∀ c ∈ s.toList, isDigit c = true → c.isDigit = true := by
  rw [isPhone_iff]
  constructor
  · intro number
    refine ⟨?_, fun c member digit => (number.mem member).resolve_left ?_⟩
    · obtain ⟨ds, digits, same⟩ := number
      exact ⟨ds, (digits_ascii_iff.mp digits).1, same⟩
    · rintro rfl
      contradiction
  · rintro ⟨⟨ds, digits, same⟩, ascii⟩
    refine ⟨ds, digits_ascii_iff.mpr ⟨digits, fun d hd => ascii d ?_⟩, same⟩
    rcases same with same | same <;> simp [same, hd]

/-! ## The pattern of telephone numbers -/

def phonePattern : String := "^\\+?[1-9]\\d\x7b7,14\x7d$"

/-- What the pattern is read as. -/
def phoneExpr : Expr :=
  .seq (.look .textStart) (.seq (.times (.set (.single '+')) 0 1)
    (.seq (.set (.union .empty (.between '1' '9')))
      (.seq (.times (.set .digit) 7 7) (.look .textEnd))))

theorem ofText?_phonePattern : Pattern.ofText? phonePattern = some phoneExpr := by decide +kernel

theorem has_leading : (CharSet.union .empty (.between '1' '9')).has c = isLeading c := by
  have spans : (CharSet.union .empty (.between '1' '9')).has c = Span.has ⟨0x31, 0x39, 1⟩ c.toNat := by
    simp [CharSet.has, CharSet.empty, CharSet.between, Span.anyHas]
  rw [spans, Bool.eq_iff_iff, Span.has_iff, isLeading_iff]
  simp only [Nat.mod_one, and_true]

/-- Digits that stand from a place to the end, told by the places. -/
theorem digits_drop_iff {m : Nat} : Digits isDigit isLeading (cs.drop m) ↔
    (∃ c, cs[m]? = some c ∧ isLeading c = true) ∧ m + 8 ≤ cs.length ∧ cs.length ≤ m + 15 ∧
      Expr.Filled cs.toArray .digit (m + 1) cs.length := by
  rw [Expr.filled_toArray_iff]
  cases at_m : cs[m]? with
  | none =>
    have past : cs.length ≤ m := List.getElem?_eq_none_iff.mp at_m
    refine iff_of_false (fun h => ?_) (by simp)
    have enough := h.enough
    rw [List.drop_eq_nil_of_le past, List.length_nil] at enough
    contradiction
  | some c =>
    obtain ⟨inside, here⟩ := List.getElem?_eq_some_iff.mp at_m
    rw [List.drop_eq_getElem_cons inside, here, digits_cons_iff, List.length_drop]
    simp only [Option.some.injEq, exists_eq_left', and_congr_right_iff]
    intro _
    constructor
    · rintro ⟨enough, bounded, digits⟩
      exact ⟨by omega, by omega, digits⟩
    · rintro ⟨enough, bounded, digits⟩
      exact ⟨by omega, by omega, digits⟩

/-- A sign that may be missing, told by the places that it fills. -/
theorem signed_iff : (∃ m ≤ 1, Expr.Filled cs.toArray (.single '+') 0 m ∧
      Digits isDigit isLeading (cs.drop m)) ↔
    ∃ ds, Digits isDigit isLeading ds ∧ (cs = ds ∨ cs = '+' :: ds) := by
  constructor
  · rintro ⟨m, most, sign, digits⟩
    refine ⟨_, digits, ?_⟩
    rcases Nat.le_one_iff_eq_zero_or_eq_one.mp most with rfl | rfl
    · exact .inl rfl
    · obtain ⟨c, first, plus⟩ := sign 0 (Nat.le_refl 0) Nat.zero_lt_one
      obtain rfl := CharSet.has_single.mp plus
      rw [List.getElem?_toArray] at first
      obtain ⟨inside, here⟩ := List.getElem?_eq_some_iff.mp first
      exact .inr (here ▸ List.drop_eq_getElem_cons inside)
  · rintro ⟨ds, digits, rfl | rfl⟩
    · exact ⟨0, Nat.zero_le 1, fun k _ before => absurd before (Nat.not_lt_zero k), digits⟩
    · refine ⟨1, Nat.le_refl 1, fun k _ before => ⟨'+', ?_, CharSet.has_single.mpr rfl⟩, digits⟩
      rw [Nat.lt_one_iff.mp before, List.getElem?_toArray, List.getElem?_cons_zero]

theorem fitsWhole_phoneExpr_iff : phoneExpr.FitsWhole s ↔ IsNumber isDigit isLeading s := by
  simp only [IsNumber, ← signed_iff, digits_drop_iff, Expr.FitsWhole, phoneExpr, Expr.spans_seq_iff,
    Expr.spans_look_iff, Expr.spans_set_iff, Expr.spans_times_set_iff, has_leading,
    List.size_toArray, List.getElem?_toArray]
  constructor
  · rintro ⟨_, ⟨_, _, rfl⟩, m, ⟨_, most, _, sign⟩, _, ⟨c, at_m, leads, rfl⟩, _,
      ⟨enough, bounded, _, digits⟩, _, _, rfl⟩
    exact ⟨m, by omega, sign, ⟨c, at_m, leads⟩, by omega, by omega, digits⟩
  · rintro ⟨m, most, sign, ⟨c, at_m, leads⟩, enough, bounded, digits⟩
    have stop : Look.textEnd.holds s.toList.toArray s.toList.length = true :=
      beq_iff_eq.mpr List.size_toArray.symm
    exact ⟨0, ⟨Nat.zero_le _, rfl, rfl⟩, m, ⟨by omega, by omega, by omega, sign⟩, m + 1,
      ⟨c, at_m, leads, rfl⟩, _, ⟨by omega, by omega, Nat.le_refl _, digits⟩, Nat.le_refl _, stop,
      rfl⟩

/-- The check of telephone numbers is the search for their pattern. -/
theorem isPhone_eq_occurs [Recognizer] (small : Engine.compiles phonePattern = true) :
    isPhone s = occurs phonePattern s := by
  have pinned : phoneExpr.isPinned = true := by decide
  have search := fits_custom_iff_whole (s := s) ⟨ofText?_phonePattern, small⟩ pinned
  rw [fitsWhole_phoneExpr_iff, ← isPhone_iff] at search
  exact Bool.eq_iff_iff.mpr search.symm

/-! ## What is accepted -/

/-- A text is accepted if it is a sign, which may be missing, and eight to fifteen digits of any
script of which the first is one of ASCII other than zero. -/
theorem fits_phone [Recognizer] (s : String) :
    (phone.fits (.text s) = true ↔ IsNumber isDigit isLeading s) ∧
      (Engine.compiles phonePattern = true →
        phone.fits (.text s) = (custom phonePattern).fits (.text s)) ∧
      (IsE164 s ↔
        phone.fits (.text s) = true ∧ ∀ c ∈ s.toList, isDigit c = true → c.isDigit = true) ∧
      (phone.fits (.text s) = true → ∀ c ∈ s.toList, isBlankChar c = false) := by
  refine ⟨isPhone_iff, isPhone_eq_occurs, isE164_iff, fun accepted c member => ?_⟩
  rcases (isPhone_iff.mp accepted).mem member with rfl | digit
  · decide
  · exact isBlankChar_of_isDigit digit

/-- Wide digits are accepted behind a first digit of ASCII. -/
theorem fits_phone_wide :
    phone.fits (.text "1２３４５６７８") = true ∧ ¬IsE164 "1２３４５６７８" := by
  refine ⟨by decide +kernel, fun number => ?_⟩
  have ascii : isDigit '２' = true → '２'.isDigit = true := (isE164_iff.mp number).2 '２' (by decide)
  exact absurd (ascii (by decide +kernel)) (by decide)

end BackOffice.Field.Format
