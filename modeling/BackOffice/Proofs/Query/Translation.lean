import BackOffice.Pattern.Reader
import BackOffice.Proofs.Pattern.Case
import BackOffice.Proofs.Pattern.Ends
import BackOffice.Proofs.Query.Cutting

/-!
# Patterns with wildcards as general patterns

A pattern with wildcards can be written in the language of general patterns: `.*` for `%`, `.` for
`_`, a backslash before every character with a meaning of its own, and anchors at both ends, with the
flags that disregard case and let the dot stand for line ends. What is read back has one place for
each character, and it occurs in a text exactly if the text can be cut as the pattern asks.
-/
namespace BackOffice.Query

open BackOffice.Text BackOffice.Pattern BackOffice.Pattern.Reader

/-- What a character of a pattern with wildcards is read as. -/
def placeExpr (p : Char) : Expr :=
  if p = '%' then .star (.set .any) else if p = '_' then .set .any
  else .set (.upToCase (.single p))

def generalExpr (ps : List Char) : Expr :=
  .sequence (.look .textStart :: (ps.map placeExpr ++ [.look .textEnd]))

/-- The flags in force once the leading ones have been read. -/
def generalContext : Context := ⟨⟨true, false, true, true, false, false⟩, []⟩

variable {p c : Char} {ps cs rest : List Char} {e : Expr} {row : List (Option Expr)} {fuel : Nat}

/-! ## Reading it back -/

theorem read_flags : readBranches? (fuel + 1) ⟨.initial, []⟩ [] []
    ('(' :: '?' :: 'i' :: 's' :: ')' :: rest) =
      readBranches? fuel generalContext [] [none] rest := rfl

theorem read_anchor : readBranches? (fuel + 1) generalContext [] row ('^' :: rest) =
    readBranches? fuel generalContext [] (some (.look .textStart) :: row) rest := rfl

theorem read_dot : readBranches? (fuel + 1) generalContext [] row ('.' :: rest) =
    readBranches? fuel generalContext [] (some (.set .any) :: row) rest := rfl

/-- A repetition is read as it stands if no question mark follows, which would be taken along. -/
theorem read_star (greedy : rest.head? ≠ some '?') :
    readBranches? (fuel + 1) generalContext [] (some e :: row) ('*' :: rest) =
      readBranches? fuel generalContext [] (some (.star e) :: row) rest := by
  have kept : skipLazy generalContext.flags rest = rest := by
    cases rest with
    | nil => rfl
    | cons c rest =>
      have other : c ≠ '?' := fun same => greedy (by rw [same]; rfl)
      simp [skipLazy, skipBlanks, generalContext, other]
  have repetition : readRepetition? generalContext.flags e '*' rest = some (.star e, rest) := by
    rw [readRepetition?, if_pos rfl, kept]
  change (readRepetition? generalContext.flags e '*' rest).bind (fun place =>
    readBranches? fuel generalContext [] (some place.1 :: row) place.2) = _
  rw [repetition]
  rfl

/-- The characters that are no single place of a pattern. -/
def placeless : List Char := [')', '|', '(', '[', '*', '+', '?', '\x7b']

theorem read_primitive {left : List Char} (single : ∀ d ∈ placeless, c ≠ d)
    (primitive : readPrimitive? generalContext.flags c rest = some (e, left)) :
    readBranches? (fuel + 1) generalContext [] row (c :: rest) =
      readBranches? fuel generalContext [] (some e :: row) left := by
  simp only [placeless, List.forall_mem_cons] at single
  obtain ⟨close, bar, group, set, star, plus, option, brace, _⟩ := single
  have once : ¬ isRepetition c = true := by simp [isRepetition, star, plus, option, brace]
  -- the reader comes to a single place only after all of these
  change (if c = ')' then _ else if c = '|' then _ else if c = '(' then _ else if c = '[' then _
    else if isRepetition c = true then _ else _) = _
  rw [if_neg close, if_neg bar, if_neg group, if_neg set, if_neg once, primitive]

theorem read_escaped (special : isMeta p = true) :
    readBranches? (fuel + 1) generalContext [] row ('\\' :: p :: rest) =
      readBranches? fuel generalContext [] (some (.set (.upToCase (.single p))) :: row) rest := by
  have escapable : isEscapable p = true := by rw [isEscapable, special, Bool.true_or]
  refine read_primitive (by simp [placeless]) ?_
  rw [readPrimitive?, if_pos rfl, readEscape?.eq_def]
  simp only [if_pos escapable]
  rfl

theorem read_plain (plain : isMeta p = false) :
    readBranches? (fuel + 1) generalContext [] row (p :: rest) =
      readBranches? fuel generalContext [] (some (.set (.upToCase (.single p))) :: row) rest := by
  have other {c : Char} (special : isMeta c = true) : p ≠ c := by
    rintro rfl
    exact Bool.false_ne_true (plain.symm.trans special)
  have special : ∀ d ∈ placeless, isMeta d = true := by simp [placeless, isMeta]
  refine read_primitive (fun d member => other (special d member)) ?_
  rw [readPrimitive?, if_neg (other rfl), if_neg (other rfl), if_neg (other rfl), if_neg (other rfl)]
  rfl

theorem head?_placeText (p : Char) : ∃ c rest, placeText p = c :: rest ∧ c ≠ '?' := by
  rw [placeText]
  split
  · exact ⟨'.', ['*'], rfl, by decide⟩
  split
  · exact ⟨'.', [], rfl, by decide⟩
  split
  · exact ⟨'\\', [p], rfl, by decide⟩
  · next plain =>
    exact ⟨p, [], rfl, fun same => plain (by rw [same]; rfl)⟩

/-- What stands for the characters of a pattern never makes the repetition before it a lazy one. -/
theorem head?_places (ps : List Char) : (ps.flatMap placeText ++ ['$']).head? ≠ some '?' := by
  cases ps with
  | nil => decide
  | cons p ps =>
    obtain ⟨c, rest, first, other⟩ := head?_placeText p
    rw [List.flatMap_cons, first]
    simp [other]

/-- Reading takes no more steps than there are characters, so what is left suffices for the rest. -/
theorem read_place (p : Char) (greedy : rest.head? ≠ some '?')
    (enough : (placeText p ++ rest).length < fuel) : ∃ left, rest.length < left ∧
      readBranches? fuel generalContext [] row (placeText p ++ rest) =
        readBranches? left generalContext [] (some (placeExpr p) :: row) rest := by
  rw [placeText, placeExpr] at *
  split_ifs at enough ⊢ with any one special
  · obtain ⟨left, rfl⟩ : ∃ left, fuel = left + 2 := ⟨fuel - 2, by simp at enough; omega⟩
    exact ⟨left, by simpa using enough, read_dot.trans (read_star greedy)⟩
  · obtain ⟨left, rfl⟩ : ∃ left, fuel = left + 1 := ⟨fuel - 1, by omega⟩
    exact ⟨left, by simpa using enough, read_dot⟩
  · obtain ⟨left, rfl⟩ : ∃ left, fuel = left + 1 := ⟨fuel - 1, by omega⟩
    exact ⟨left, by simp at enough; omega, read_escaped special⟩
  · obtain ⟨left, rfl⟩ : ∃ left, fuel = left + 1 := ⟨fuel - 1, by omega⟩
    exact ⟨left, by simpa using enough, read_plain (Bool.not_eq_true _ ▸ special)⟩

theorem read_places (enough : (ps.flatMap placeText ++ ['$']).length < fuel) :
    readBranches? fuel generalContext [] row (ps.flatMap placeText ++ ['$']) =
      some (.sequence (row.reverse.filterMap id ++ (ps.map placeExpr ++ [.look .textEnd])),
        generalContext, []) := by
  induction ps generalizing row fuel with
  | nil =>
    obtain ⟨left, rfl⟩ : ∃ left, fuel = left + 2 := ⟨fuel - 2, by simp at enough; omega⟩
    have anchor : readBranches? (left + 2) generalContext [] row ['$'] =
        readBranches? (left + 1) generalContext [] (some (.look .textEnd) :: row) [] := rfl
    have done (row : List (Option Expr)) : readBranches? (left + 1) generalContext [] row [] =
        some (.sequence (row.reverse.filterMap id), generalContext, []) := rfl
    rw [List.flatMap_nil, List.nil_append, anchor, done, List.reverse_cons, List.filterMap_append]
    rfl
  | cons p ps ih =>
    rw [List.flatMap_cons, List.append_assoc] at enough ⊢
    obtain ⟨left, rest, read⟩ := read_place p (head?_places ps) enough
    rw [read, ih rest]
    simp

theorem ofText?_generalText (pattern : String) :
    Pattern.ofText? (generalText pattern) = some (generalExpr pattern.toList) := by
  have text : (generalText pattern).toList =
      '(' :: '?' :: 'i' :: 's' :: ')' :: '^' :: (pattern.toList.flatMap placeText ++ ['$']) := by
    simp [generalText]
  rw [Pattern.ofText?, ← String.length_toList, text]
  simp only [List.length_cons, read_flags, read_anchor]
  rw [read_places (by omega)]
  rfl

/-! ## What it fits -/

open Expr

theorem spans_any_iff {text : Subject} {i j : Nat} :
    Spans text (.set .any) i j ↔ i < text.size ∧ j = i + 1 := by
  rw [spans_set_iff]
  constructor
  · rintro ⟨c, at_i, _, rfl⟩
    exact ⟨(Array.getElem?_eq_some_iff.mp at_i).1, rfl⟩
  · rintro ⟨inside, rfl⟩
    exact ⟨text[i], Array.getElem?_eq_getElem inside, CharSet.has_any _, rfl⟩

theorem spans_star_any_iff {text : Subject} {i j : Nat} :
    Spans text (.star (.set .any)) i j ↔ i ≤ j ∧ j ≤ text.size := by
  constructor
  · intro h
    exact ⟨h.le, h.inside⟩
  · rintro ⟨le, inside⟩
    obtain ⟨n, rfl⟩ := Nat.exists_eq_add_of_le le
    induction n generalizing i with
    | zero => exact .starNil inside
    | succ n ih =>
      have first : Spans text (.set .any) i (i + 1) := spans_any_iff.mpr ⟨by omega, rfl⟩
      have others := ih (i := i + 1) (by omega) (by omega)
      exact .starCons first (by rwa [Nat.add_right_comm, Nat.add_assoc i] at others)

theorem placeExpr_char (other : p ≠ '%') :
    ∃ s : CharSet, placeExpr p = .set s ∧ ∀ c, s.has c = true ↔ answers p c = true := by
  rw [placeExpr, if_neg other]
  split
  · next one => exact ⟨_, rfl, fun c => by simp [CharSet.has_any, answers, one]⟩
  · next letter => exact ⟨_, rfl, fun c => by simp [CharSet.has_upToCase_single, answers, letter]⟩

/-- From a place of a text on, the characters of a pattern and the anchor behind them span the rest of
the text exactly if it fits. -/
theorem spans_places_iff {i j : Nat} (inside : i ≤ cs.length) :
    Spans cs.toArray (.sequence (ps.map placeExpr ++ [.look .textEnd])) i j ↔
      j = cs.length ∧ Fits ps (cs.drop i) := by
  induction ps generalizing i with
  | nil =>
    rw [List.map_nil, List.nil_append, Expr.sequence, spans_look_iff, fits_nil, List.drop_eq_nil_iff]
    simp only [Look.holds, List.size_toArray, beq_iff_eq]
    omega
  | cons p ps ih =>
    rw [List.map_cons, List.cons_append, spans_sequence_cons_iff]
    by_cases any : p = '%'
    · subst any
      rw [fits_any_cons, placeExpr, if_pos rfl]
      simp only [spans_star_any_iff, List.size_toArray, List.drop_drop, List.length_drop]
      constructor
      · rintro ⟨m, ⟨le, within⟩, others⟩
        obtain ⟨all, fits⟩ := (ih within).mp others
        exact ⟨all, m - i, by omega, by rwa [Nat.add_sub_cancel' le]⟩
      · rintro ⟨all, n, within, fits⟩
        exact ⟨i + n, ⟨by omega, by omega⟩, (ih (by omega)).mpr ⟨all, fits⟩⟩
    · obtain ⟨s, place, has⟩ := placeExpr_char any
      rw [fits_char_cons any, place]
      simp only [spans_set_iff, has, List.getElem?_toArray]
      constructor
      · rintro ⟨_, ⟨c, at_i, answers, rfl⟩, others⟩
        obtain ⟨within, rfl⟩ := List.getElem?_eq_some_iff.mp at_i
        obtain ⟨all, fits⟩ := (ih within).mp others
        exact ⟨all, cs[i], cs.drop (i + 1), List.drop_eq_getElem_cons within, answers, fits⟩
      · rintro ⟨all, c, rest, parts, answers, fits⟩
        have at_i : cs[i]? = some c := by rw [← List.head?_drop, parts, List.head?_cons]
        have within : i < cs.length := (List.getElem?_eq_some_iff.mp at_i).1
        have behind : cs.drop (i + 1) = rest := by rw [← List.tail_drop, parts, List.tail_cons]
        exact ⟨i + 1, ⟨c, at_i, answers, rfl⟩, (ih within).mpr ⟨all, behind ▸ fits⟩⟩

/-- What a pattern with wildcards is read as occurs in the texts that fit. -/
theorem occursIn_generalExpr {s : String} :
    (generalExpr ps).occursIn s = true ↔ Fits ps s.toList := by
  rw [occursIn_iff, generalExpr]
  simp only [spans_sequence_cons_iff, spans_look_iff, Look.holds, beq_iff_eq]
  constructor
  · rintro ⟨_, _, _, ⟨_, rfl, rfl⟩, places⟩
    exact ((spans_places_iff (Nat.zero_le _)).mp places).2
  · intro fits
    exact ⟨0, _, 0, ⟨Nat.zero_le _, rfl, rfl⟩, (spans_places_iff (Nat.zero_le _)).mpr ⟨rfl, fits⟩⟩

/-- A pattern with wildcards is like the texts that can be cut as it asks, and those are the ones in
which the general pattern it is written as occurs. Nothing is like one that the engine refuses. -/
theorem isLike_iff_fits [Engine] {p c : String} (wild : p.toList.any isWildcard = true) :
    (isLike p c = true ↔ Engine.compiles (generalText p) = true ∧ Fits p.toList c.toList) ∧
      ∃ e, Pattern.ofText? (generalText p) = some e ∧
        isLike p c = (Engine.compiles (generalText p) && e.occursIn c) := by
  refine ⟨isLike_of_wild wild, generalExpr p.toList, ofText?_generalText p, ?_⟩
  rw [Bool.eq_iff_iff, isLike_of_wild wild, Bool.and_eq_true, occursIn_generalExpr]

/-- Dots and brackets stand for themselves, and the two `%` share the text around them, a line end
among it. -/
theorem isLike_iff_fits_brackets :
    "a.%_(%b".toList.any isWildcard = true ∧
      Fits "a.%_(%b".toList "A.x\n(B".toList ∧ ¬ Fits "a.%_(%b".toList "Aax\n(B".toList ∧
      ∃ e, Pattern.ofText? (generalText "a.%_(%b") = some e ∧ e.occursIn "A.x\n(B" = true := by
  have wild : "a.%_(%b".toList.any isWildcard = true := by decide
  have like : isLike "a.%_(%b" "A.x\n(B" = true := by decide +kernel
  have unlike : ¬ isLike "a.%_(%b" "Aax\n(B" = true := by decide +kernel
  obtain ⟨fits, e, read, same⟩ := isLike_iff_fits (c := "A.x\n(B") wild
  exact ⟨wild, (fits.mp like).2, fun cut => unlike ((isLike_iff_fits wild).1.mpr ⟨rfl, cut⟩), e,
    read, (same.symm.trans like :)⟩

end BackOffice.Query
