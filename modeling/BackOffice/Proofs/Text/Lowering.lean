import Mathlib.Data.List.Infix
import BackOffice.Proofs.Text.Case

/-!
# Lower-casing whole texts

Two letters make lower-casing more than a map over the characters: a capital I with a dot becomes two
characters, and the form of a capital sigma depends on its neighbours. Without the first, lower-casing
leaves what the characters are folded to; without the second, what is lower-cased does not depend on
where it stands.
-/
namespace BackOffice.Text

/-- A text that is lower-cased one letter at a time: no dotted I, and no capital sigma at the end of a
word. -/
def LowersByLetter (cs : List Char) : Prop :=
  '\u0130' ∉ cs ∧
    ∀ before after, cs = before ++ capitalSigma :: after → endsWord before.reverse after = false

/-- Between two other texts, the capital sigmas of a text end words exactly if they do so without
them. -/
def KeepsSigmas (front cs back : List Char) : Prop :=
  ∀ before after, cs = before ++ capitalSigma :: after →
    endsWord before.reverse after = endsWord (before.reverse ++ front.reverse) (after ++ back)

variable {before cs : List Char}

theorem lowerFrom_eq_map (undotted : '\u0130' ∉ cs)
    (inside : ∀ front after, cs = front ++ capitalSigma :: after →
      endsWord (front.reverse ++ before) after = false) :
    lowerFrom before cs = cs.map lowerChar := by
  induction cs generalizing before with
  | nil => rfl
  | cons c after ih =>
    have other : c ≠ '\u0130' := fun same => undotted (same ▸ List.mem_cons_self)
    have notLast : ¬ (c = capitalSigma ∧ endsWord before after = true) := by
      rintro ⟨rfl, last⟩
      exact Bool.false_ne_true ((inside [] after rfl).symm.trans last)
    have others := @ih (c :: before) (fun dotted => undotted (List.mem_cons_of_mem _ dotted))
      fun front rest parts => by
        have := inside (c :: front) rest (congrArg (c :: ·) parts)
        rwa [List.reverse_cons, List.append_assoc] at this
    rw [lowerFrom, if_neg other, if_neg notLast, others]
    rfl

theorem LowersByLetter.lowercase_eq (h : LowersByLetter cs) : lowercase cs = cs.map lowerChar :=
  lowerFrom_eq_map h.1 fun front after parts => by
    rw [List.append_nil]
    exact h.2 front after parts

/-- Lower-casing leaves what the characters are folded to. -/
theorem map_foldChar_lowerFrom (undotted : '\u0130' ∉ cs) :
    (lowerFrom before cs).map foldChar = cs.map foldChar := by
  induction cs generalizing before with
  | nil => rfl
  | cons c after ih =>
    have other : c ≠ '\u0130' := fun same => undotted (same ▸ List.mem_cons_self)
    have others := @ih (c :: before) fun dotted => undotted (List.mem_cons_of_mem _ dotted)
    rw [lowerFrom, if_neg other, List.map_append, others]
    split
    · next last =>
      rw [last.1]
      exact congrArg (· :: after.map foldChar) foldChar_finalSigma
    · exact congrArg (· :: after.map foldChar) (foldChar_lowerChar other)

/-- A dotted I leaves its dot behind. -/
theorem dot_mem_lowerFrom (dotted : '\u0130' ∈ cs) : '\u0307' ∈ lowerFrom before cs := by
  induction cs generalizing before with
  | nil => cases dotted
  | cons c after ih =>
    rw [lowerFrom, List.mem_append]
    rcases List.mem_cons.mp dotted with rfl | dotted
    · exact .inl (by simp)
    · exact .inr (ih dotted)

/-- What stands around a text changes its lower-case form only through its sigmas. -/
theorem lowerFrom_append {around back : List Char}
    (keeps : ∀ front after, cs = front ++ capitalSigma :: after →
      endsWord (front.reverse ++ before) after =
        endsWord (front.reverse ++ (before ++ around)) (after ++ back)) :
    lowerFrom (before ++ around) (cs ++ back) =
      lowerFrom before cs ++ lowerFrom (cs.reverse ++ (before ++ around)) back := by
  induction cs generalizing before with
  | nil => rfl
  | cons c cs ih =>
    have last : (c = capitalSigma ∧ endsWord (before ++ around) (cs ++ back) = true) ↔
        (c = capitalSigma ∧ endsWord before cs = true) := by
      refine and_congr_right ?_
      rintro rfl
      exact Bool.eq_iff_iff.mp (keeps [] cs rfl).symm
    -- a sigma further on has `c` among the letters before it, on both sides
    have others := @ih (c :: before) fun front after parts => by
      have := keeps (c :: front) after (congrArg (c :: ·) parts)
      rwa [List.reverse_cons, List.append_assoc, List.append_assoc] at this
    rw [List.cons_append] at others
    rw [List.cons_append, lowerFrom, lowerFrom, others, List.append_assoc, List.reverse_cons,
      List.append_assoc]
    simp only [last, List.singleton_append]

theorem lowerFrom_suffix (front after : List Char) :
    lowerFrom (front.reverse ++ before) after <:+ lowerFrom before (front ++ after) := by
  induction front generalizing before with
  | nil => exact List.suffix_refl _
  | cons c front ih =>
    rw [List.reverse_cons, List.append_assoc]
    exact (@ih (c :: before)).trans (List.suffix_append ..)

/-- What stands in a text and keeps its sigmas there is found again once both are lower-cased. -/
theorem KeepsSigmas.lowercase_infix {front back : List Char} (keeps : KeepsSigmas front cs back) :
    lowercase cs <:+: lowercase (front ++ cs ++ back) := by
  have inside : lowerFrom front.reverse (cs ++ back) =
      lowercase cs ++ lowerFrom (cs.reverse ++ front.reverse) back :=
    @lowerFrom_append [] cs front.reverse back fun before after parts => by
      rw [List.append_nil]
      exact keeps before after parts
  have behind := @lowerFrom_suffix [] front (cs ++ back)
  rw [List.append_nil, inside, ← List.append_assoc] at behind
  exact (List.prefix_append ..).isInfix.trans behind.isInfix

theorem keepsSigmas_of_not_mem (none : capitalSigma ∉ cs) (front back : List Char) :
    KeepsSigmas front cs back := by
  rintro before after rfl
  exact absurd (List.mem_append_right before List.mem_cons_self) none

theorem lowersByLetter_of_ascii (ascii : ∀ c ∈ cs, c.toNat < 0x80) : LowersByLetter cs := by
  constructor
  · intro dotted
    exact absurd (ascii _ dotted) (by decide)
  · rintro before after rfl
    exact absurd (ascii capitalSigma (by simp)) (by decide)

theorem map_lowerChar_of_ascii (ascii : ∀ c ∈ cs, c.toNat < 0x80) :
    cs.map lowerChar = cs.map foldChar :=
  List.map_congr_left fun c hc => lowerChar_of_toNat_lt (ascii c hc)

/-! ## A sigma that ends a word

The three letters of the text are looked up in the tables themselves.
-/

set_option maxRecDepth 20000 in
theorem isCased_capitalAlpha : isCased '\u0391' = true := by
  have capital : Category.uppercaseLetter.has '\u0391' = true := by
    rw [Category.has, Category.spans, Category.uppercaseLetterSpans, Span.list, Span.words_ofList]
    decide +kernel
  rw [isCased, isUppercase, capital, Bool.true_or, Bool.or_true, Bool.true_or]

set_option maxRecDepth 20000 in
theorem isCaseIgnorable_capitalAlpha : isCaseIgnorable '\u0391' = false := by
  simp only [isCaseIgnorable, List.any_cons, List.any_nil, Category.has, Category.spans,
    Category.nonspacingMarkSpans, Category.enclosingMarkSpans, Category.formatSpans,
    Category.modifierLetterSpans, Category.modifierSymbolSpans, midWord, Span.list]
  rw [Span.words_ofList, Span.words_ofList, Span.words_ofList, Span.words_ofList, Span.words_ofList,
    Span.words_ofList]
  decide +kernel

set_option maxRecDepth 20000 in
theorem apply_lowerTable_alpha_sigma : Shift.apply lowerTable '\u0391' = '\u03B1' ∧
    Shift.apply lowerTable capitalSigma = '\u03C3' := by
  rw [lowerTable, Shift.list, Span.words_ofList]
  decide +kernel

theorem lowercase_alpha_sigma :
    lowercase ['\u0391', capitalSigma] = ['\u03B1', '\u03C2'] ∧
      lowercase ['\u0391', capitalSigma, '\u0391'] = ['\u03B1', '\u03C3', '\u03B1'] := by
  have alpha : lowerChar '\u0391' = '\u03B1' :=
    (if_neg (by decide)).trans apply_lowerTable_alpha_sigma.1
  have sigma : lowerChar capitalSigma = '\u03C3' :=
    (if_neg (by decide)).trans apply_lowerTable_alpha_sigma.2
  have last : endsWord ['\u0391'] [] = true := by
    simp [endsWord, isCaseIgnorable_capitalAlpha, isCased_capitalAlpha]
  have inside : endsWord ['\u0391'] ['\u0391'] = false := by
    simp [endsWord, isCaseIgnorable_capitalAlpha, isCased_capitalAlpha]
  have alphaNotSigma : '\u0391' ≠ capitalSigma := by decide
  have sigmaNotDotted : capitalSigma ≠ '\u0130' := by decide
  simp [lowercase, lowerFrom, alpha, sigma, last, inside, alphaNotSigma, sigmaNotDotted]

end BackOffice.Text
