import BackOffice.Proofs.Pattern.Ends

/-!
# Patterns and whole texts

A pattern occurs in a text of which only a part fits. It is for a pattern to say that it stands for
the whole: if every stretch that fits begins at the start of the text and stops at its end, to occur
is the same as to fit the whole text. Anchors say so, but only where no alternative avoids them.
-/
namespace BackOffice.Pattern

deriving instance DecidableEq for CharSet

deriving instance DecidableEq for Expr

namespace Expr

variable {text : Subject} {e a b : Expr} {l : Look} {i j : Nat} {s : String}

/-- Some stretch of the text fits. -/
def FitsPart (e : Expr) (s : String) : Prop := ∃ i j, Spans s.toList.toArray e i j

/-- The text fits from its first to its last character. -/
def FitsWhole (e : Expr) (s : String) : Prop := Spans s.toList.toArray e 0 s.toList.toArray.size

/-- Stretches of the text fit, but the whole of it does not. -/
def FitsOnlyPart (e : Expr) (s : String) : Prop := e.FitsPart s ∧ ¬e.FitsWhole s

theorem FitsWhole.part (h : e.FitsWhole s) : e.FitsPart s := ⟨_, _, h⟩

theorem fitsWhole_iff_ends :
    e.FitsWhole s ↔ s.toList.toArray.size ∈ ends s.toList.toArray e [0] := by
  rw [leads_ends _ e [0] _ fun i first => by simp_all]
  simp [FitsWhole]

instance : Decidable (e.FitsWhole s) := decidable_of_iff _ fitsWhole_iff_ends.symm

instance : Decidable (e.FitsPart s) := decidable_of_iff _ occursIn_iff

instance : Decidable (e.FitsOnlyPart s) := inferInstanceAs (Decidable (_ ∧ ¬_))

/-- No stretch fits that does not pass a place where the condition holds. -/
def demands (l : Look) : Expr → Bool
  | empty | set _ | star _ => false
  | look k => k == l
  | seq a b => a.demands l || b.demands l
  | alt a b => a.demands l && b.demands l
  | times a least _ => least != 0 && a.demands l

/-- The pattern has both ends of the text in every stretch that fits. -/
def isPinned (e : Expr) : Bool := e.demands .textStart && e.demands .textEnd

theorem Spans.passes (h : Spans text e i j) (demanded : e.demands l = true) :
    ∃ m, i ≤ m ∧ m ≤ j ∧ l.holds text m = true := by
  induction h with
  | empty | set | starNil | starCons => cases demanded
  | @look k i _ fits =>
    obtain rfl : k = l := eq_of_beq demanded
    exact ⟨i, Nat.le_refl _, Nat.le_refl _, fits⟩
  | seq first second ihFirst ihSecond =>
    rcases Bool.or_eq_true_iff.mp demanded with inFirst | inSecond
    · obtain ⟨m, after, before, holds⟩ := ihFirst inFirst
      exact ⟨m, after, Nat.le_trans before second.le, holds⟩
    · obtain ⟨m, after, before, holds⟩ := ihSecond inSecond
      exact ⟨m, Nat.le_trans first.le after, before, holds⟩
  | altLeft _ ih => exact ih (Bool.and_eq_true_iff.mp demanded).1
  | altRight _ ih => exact ih (Bool.and_eq_true_iff.mp demanded).2
  | timesNil | timesExtra => cases demanded
  | timesCons first others ih _ =>
    obtain ⟨m, after, before, holds⟩ := ih (Bool.and_eq_true_iff.mp demanded).2
    exact ⟨m, after, Nat.le_trans before others.le, holds⟩

theorem Spans.starts (h : Spans text e i j) (demanded : e.demands .textStart = true) : i = 0 := by
  obtain ⟨m, after, _, holds⟩ := h.passes demanded
  have start : m = 0 := eq_of_beq holds
  omega

theorem Spans.stops (h : Spans text e i j) (demanded : e.demands .textEnd = true) :
    j = text.size := by
  obtain ⟨m, _, before, holds⟩ := h.passes demanded
  have stop : m = text.size := eq_of_beq holds
  have inside := h.inside
  omega

/-- A pinned pattern fits no part of a text but the whole. -/
theorem fitsPart_iff_of_isPinned (pinned : e.isPinned = true) : e.FitsPart s ↔ e.FitsWhole s := by
  obtain ⟨start, stop⟩ := Bool.and_eq_true_iff.mp pinned
  refine ⟨?_, FitsWhole.part⟩
  rintro ⟨i, j, spans⟩
  obtain rfl := spans.starts start
  obtain rfl := spans.stops stop
  exact spans

/-- The pattern between anchors at both ends of the text. -/
def anchored (e : Expr) : Expr := seq (look .textStart) (seq e (look .textEnd))

theorem isPinned_anchored (e : Expr) : e.anchored.isPinned = true := by
  simp [anchored, isPinned, demands]

/-- Anchors around a pattern pin all of it. -/
theorem occursIn_anchored_iff : e.anchored.occursIn s = true ↔ e.FitsWhole s := by
  rw [occursIn_iff]
  refine (fitsPart_iff_of_isPinned (isPinned_anchored e)).trans ?_
  simp only [FitsWhole, anchored, spans_seq_iff, spans_look_iff]
  constructor
  · rintro ⟨_, ⟨_, _, rfl⟩, _, spans, _, _, rfl⟩
    exact spans
  · intro spans
    exact ⟨0, ⟨Nat.zero_le _, rfl, rfl⟩, _, spans, Nat.le_refl _, beq_self_eq_true _, rfl⟩

end Expr

end BackOffice.Pattern
