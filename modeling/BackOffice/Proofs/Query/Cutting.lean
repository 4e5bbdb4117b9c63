import Mathlib.Data.List.Forall2
import BackOffice.Query.Like

/-!
# Cutting a text as a pattern asks

A text fits a pattern with wildcards if it is made of consecutive pieces, one per character of the
pattern, each of which may stand for its character. The recursion that decides likeness tries for
every `%` the pieces one character at a time. A text is like a pattern if it fits and the engine
does not refuse the pattern.
-/
namespace BackOffice.Query

open BackOffice.Pattern BackOffice.Text

/-- What a piece of a text must be to stand for a character of a pattern: anything for `%`, any one
character for `_`, and for every other character one that equals it up to case. -/
def StandsFor (p : Char) (piece : List Char) : Prop :=
  p = '%' ∨ ∃ c, piece = [c] ∧ (p = '_' ∨ sameUpToCase p c = true)

/-- The text can be cut into consecutive pieces that stand for the characters of the pattern. -/
def Fits (ps cs : List Char) : Prop :=
  ∃ pieces, List.Forall₂ StandsFor ps pieces ∧ pieces.flatten = cs

variable {p c : Char} {ps qs cs ds : List Char}

theorem standsFor_iff (other : p ≠ '%') {piece : List Char} :
    StandsFor p piece ↔ ∃ c, piece = [c] ∧ answers p c = true := by
  simp only [StandsFor, other, false_or, answers, Bool.or_eq_true, beq_iff_eq]

theorem fits_nil : Fits [] cs ↔ cs = [] := by
  constructor
  · rintro ⟨_, ⟨⟩, rfl⟩
    rfl
  · rintro rfl
    exact ⟨[], .nil, rfl⟩

theorem fits_cons :
    Fits (p :: ps) cs ↔ ∃ piece rest, cs = piece ++ rest ∧ StandsFor p piece ∧ Fits ps rest := by
  constructor
  · rintro ⟨_, first | ⟨stands, others⟩, rfl⟩
    exact ⟨_, _, rfl, stands, _, others, rfl⟩
  · rintro ⟨piece, _, rfl, stands, pieces, others, rfl⟩
    exact ⟨piece :: pieces, .cons stands others, rfl⟩

theorem fits_append :
    Fits (ps ++ qs) cs ↔ ∃ front back, cs = front ++ back ∧ Fits ps front ∧ Fits qs back := by
  induction ps generalizing cs with
  | nil => simp [fits_nil]
  | cons p ps ih =>
    simp only [List.cons_append, fits_cons, ih]
    constructor
    · rintro ⟨piece, _, rfl, stands, front, back, rfl, fits, rest⟩
      exact ⟨piece ++ front, back, (List.append_assoc ..).symm, ⟨piece, front, rfl, stands, fits⟩, rest⟩
    · rintro ⟨_, back, rfl, ⟨piece, front, rfl, stands, fits⟩, rest⟩
      exact ⟨piece, front ++ back, List.append_assoc .., stands, front, back, rfl, fits, rest⟩

theorem fits_any_cons : Fits ('%' :: ps) cs ↔ ∃ n, n ≤ cs.length ∧ Fits ps (cs.drop n) := by
  rw [fits_cons]
  constructor
  · rintro ⟨piece, rest, rfl, _, fits⟩
    exact ⟨piece.length, by simp, by rwa [List.drop_left]⟩
  · rintro ⟨n, _, fits⟩
    exact ⟨cs.take n, cs.drop n, (List.take_append_drop n cs).symm, .inl rfl, fits⟩

theorem fits_char_cons (other : p ≠ '%') :
    Fits (p :: ps) cs ↔ ∃ c rest, cs = c :: rest ∧ answers p c = true ∧ Fits ps rest := by
  simp only [fits_cons, standsFor_iff other]
  constructor
  · rintro ⟨_, rest, rfl, ⟨c, rfl, fits⟩, others⟩
    exact ⟨c, rest, rfl, fits, others⟩
  · rintro ⟨c, rest, rfl, fits, others⟩
    exact ⟨[c], rest, rfl, ⟨c, rfl, fits⟩, others⟩

/-- The piece for `%` is empty, or it has a first character. -/
theorem fits_any_iff :
    Fits ('%' :: ps) cs ↔ Fits ps cs ∨ ∃ c rest, cs = c :: rest ∧ Fits ('%' :: ps) rest := by
  simp only [fits_any_cons]
  constructor
  · rintro ⟨n, inside, fits⟩
    cases n with
    | zero => exact .inl fits
    | succ n =>
      cases cs with
      | nil => exact .inl fits
      | cons c rest => exact .inr ⟨c, rest, rfl, n, Nat.le_of_succ_le_succ inside, fits⟩
  · rintro (fits | ⟨c, rest, rfl, n, inside, fits⟩)
    · exact ⟨0, Nat.zero_le _, fits⟩
    · exact ⟨n + 1, Nat.succ_le_succ inside, fits⟩

theorem fitsWildcards_iff : fitsWildcards ps cs = true ↔ Fits ps cs := by
  induction ps generalizing cs with
  | nil => rw [fitsWildcards, List.isEmpty_iff, fits_nil]
  | cons p ps ih =>
    by_cases any : p = '%'
    · subst any
      induction cs with
      | nil =>
        rw [fitsWildcards, if_pos rfl, Bool.or_false, ih, fits_any_iff]
        simp
      | cons c rest ihRest =>
        rw [fitsWildcards, if_pos rfl, Bool.or_eq_true, ih, fits_any_iff]
        simp [ihRest]
    · rw [fits_char_cons any]
      cases cs with
      | nil => simp [fitsWildcards, any]
      | cons c rest => simp [fitsWildcards, any, ih]

theorem isLike_of_wild [Engine] {p c : String} (wild : p.toList.any isWildcard = true) :
    isLike p c = true ↔ Engine.compiles (generalText p) = true ∧ Fits p.toList c.toList := by
  rw [isLike, if_pos wild, Bool.and_eq_true, fitRow_headD, fitsWildcards_iff]

end BackOffice.Query
