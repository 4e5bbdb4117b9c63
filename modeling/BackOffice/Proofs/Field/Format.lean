import BackOffice.Proofs.Pattern.Anchoring
import BackOffice.Proofs.Rules

/-!
# Patterns as formats

A field whose format is a pattern takes any text of which a part fits, if the engine does not refuse
the pattern. Only patterns that are pinned to both ends speak about the whole text; between anchors
every pattern does.
-/
namespace BackOffice.Field.Format

open BackOffice.Pattern

/-- A pattern that reads as an expression and that the engine compiles. -/
structure Compiles [Engine] (p : String) (e : Expr) : Prop where
  reads : Pattern.ofText? p = some e
  small : Engine.compiles p = true

section Custom

variable [Recognizer] {p : String} {e : Expr} {s : String} {r : Rule}

theorem fits_custom_iff (compiles : Compiles p e) :
    (custom p).fits (.text s) = true ↔ e.FitsPart s := by
  have search : (custom p).fits (.text s) = e.occursIn s := by
    simp only [fits, fitsText, occurs, compiles.reads, compiles.small, Bool.true_and]
  rw [search, Expr.occursIn_iff, Expr.FitsPart]

/-- What does not compile, because it is malformed or too large, fits nothing. -/
theorem not_fits_custom (refused : ∀ e, ¬Compiles p e) : (custom p).fits (.text s) = false := by
  rw [fits, fitsText, occurs]
  split
  · next e reads =>
    rw [Bool.eq_false_iff.mpr fun small => refused e ⟨reads, small⟩, Bool.false_and]
  · rfl

theorem fits_custom_iff_whole (compiles : Compiles p e) (pinned : e.isPinned = true) :
    (custom p).fits (.text s) = true ↔ e.FitsWhole s :=
  (fits_custom_iff compiles).trans (Expr.fitsPart_iff_of_isPinned pinned)

/-- A rule with a pattern fails a text that is neither blank nor of a wrong length exactly if no part
of it fits. -/
theorem failedBy_iff_of_custom (compiles : Compiles p e)
    (format : r.format = some (custom p)) (filled : ¬Rule.Blank (.text s)) :
    r.FailedBy (.text s) ↔ r.TooShort (.text s) ∨ r.TooLong (.text s) ∨ ¬e.FitsPart s := by
  have shape : r.Misshapen (.text s) ↔ ¬e.FitsPart s := by
    rw [← fits_custom_iff compiles, Rule.Misshapen, format]
    simp
  rw [Rule.FailedBy, shape]
  simp only [filled, false_and, not_false_eq_true, true_and, false_or]

/-- A pattern that compiles takes a text if a part of it fits, which differs from the whole where
only a part does. -/
theorem fits_custom_part (compiles : Compiles p e) :
    (∀ s, ((custom p).fits (.text s) = true ↔ e.FitsPart s) ∧
        (((custom p).fits (.text s) = true ↔ e.FitsWhole s) ↔ ¬e.FitsOnlyPart s)) ∧
      (e.isPinned = true → ∀ s, (custom p).fits (.text s) = true ↔ e.FitsWhole s) ∧
      (∀ q, Compiles q e.anchored → ∀ s, (custom q).fits (.text s) = true ↔ e.FitsWhole s) ∧
      ∀ r : Rule, r.format = some (custom p) → ∀ s, ¬Rule.Blank (.text s) →
        (r.FailedBy (.text s) ↔ r.TooShort (.text s) ∨ r.TooLong (.text s) ∨ ¬e.FitsPart s) := by
  refine ⟨fun s => ⟨fits_custom_iff compiles, ?_⟩,
    fun pinned s => fits_custom_iff_whole compiles pinned, fun q between s => ?_,
    fun r format s filled => failedBy_iff_of_custom compiles format filled⟩
  · rw [fits_custom_iff compiles, Expr.FitsOnlyPart, not_and_not_right]
    exact ⟨Iff.mp, fun whole => ⟨whole, Expr.FitsWhole.part⟩⟩
  · rw [fits_custom_iff between, Expr.FitsPart, ← Expr.occursIn_iff, Expr.occursIn_anchored_iff]

end Custom

/-- A capital of the Latin alphabet. -/
def capital : Expr := .set (.union .empty (.between 'A' 'Z'))

theorem fits_custom_part_of_capital :
    Compiles "[A-Z]" capital ∧ Compiles "^[A-Z]$" capital.anchored ∧
      (∀ s, (custom "[A-Z]").fits (.text s) = true ↔ capital.FitsPart s) ∧
      ∀ s, (custom "^[A-Z]$").fits (.text s) = true ↔ capital.FitsWhole s := by
  have compiles : Compiles "[A-Z]" capital := ⟨by decide +kernel, rfl⟩
  have between : Compiles "^[A-Z]$" capital.anchored := ⟨by decide +kernel, rfl⟩
  obtain ⟨part, _, whole, _⟩ := fits_custom_part compiles
  exact ⟨compiles, between, fun s => (part s).1, whole _ between⟩

/-- A text of which only a part fits passes the pattern and a rule that has it. -/
theorem fits_custom_inside :
    Compiles "[A-Z]" capital ∧ capital.FitsOnlyPart "xXx" ∧
      (custom "[A-Z]").fits (.text "xXx") = true ∧
      ¬Rule.FailedBy { Rule.free with format := some (custom "[A-Z]") } (.text "xXx") :=
  ⟨⟨by decide +kernel, rfl⟩, by decide, by decide +kernel, by decide +kernel⟩

/-- An anchor at each end does not pin a pattern if they stand in different alternatives. -/
example : (Pattern.ofText? "^a|b$").map Expr.isPinned = some false ∧
    (custom "^a|b$").fits (.text "a\nb?") = true := by decide +kernel

end BackOffice.Field.Format
