import BackOffice.Pattern.Expr

/-!
# Where stretches end

The places that `Expr.ends` computes from a list of places are the ends of the stretches that fit and
start at one of them. A round of repetition only follows the places that the last round added; what
the others lead to is already there. Repetition without a bound needs no more rounds than the text
has characters, as only a step that advances leads anywhere.
-/
namespace BackOffice.Pattern.Expr

variable {text : Subject} {e a b : Expr} {i j k n : Nat} {places : List Nat}

/-! ## Stretches -/

theorem Spans.le (h : Spans text e i j) : i ≤ j := by
  induction h with
  | empty | look | starNil | timesNil => exact Nat.le_refl _
  | set => exact Nat.le_succ _
  | altLeft _ ih | altRight _ ih => exact ih
  | seq _ _ first second | starCons _ _ first second | timesExtra _ _ first second
  | timesCons _ _ first second => exact Nat.le_trans first second

theorem Spans.inside (h : Spans text e i j) : j ≤ text.size := by
  induction h with
  | empty h | look h | starNil h | timesNil h => exact h
  | set at_i => exact (Array.getElem?_eq_some_iff.mp at_i).1
  | altLeft _ ih | altRight _ ih => exact ih
  | seq _ _ _ second | starCons _ _ _ second | timesExtra _ _ _ second
  | timesCons _ _ _ second => exact second

theorem spans_empty_iff : Spans text .empty i j ↔ i ≤ text.size ∧ i = j := by
  constructor
  · rintro ⟨h⟩
    exact ⟨h, rfl⟩
  · rintro ⟨h, rfl⟩
    exact .empty h

theorem spans_set_iff {s : CharSet} :
    Spans text (.set s) i j ↔ ∃ c, text[i]? = some c ∧ s.has c = true ∧ j = i + 1 := by
  constructor
  · rintro (_ | ⟨at_i, fits⟩)
    exact ⟨_, at_i, fits, rfl⟩
  · rintro ⟨c, at_i, fits, rfl⟩
    exact .set at_i fits

theorem spans_look_iff {l : Look} :
    Spans text (.look l) i j ↔ i ≤ text.size ∧ l.holds text i = true ∧ i = j := by
  constructor
  · rintro (_ | _ | ⟨h, fits⟩)
    exact ⟨h, fits, rfl⟩
  · rintro ⟨h, fits, rfl⟩
    exact .look h fits

theorem spans_seq_iff :
    Spans text (.seq a b) i k ↔ ∃ j, Spans text a i j ∧ Spans text b j k := by
  constructor
  · rintro (_ | _ | _ | ⟨first, second⟩)
    exact ⟨_, first, second⟩
  · rintro ⟨j, first, second⟩
    exact .seq first second

theorem spans_sequence_cons_iff {es : List Expr} : Spans text (.sequence (e :: es)) i k ↔
    ∃ j, Spans text e i j ∧ Spans text (.sequence es) j k := by
  cases es with
  | nil =>
    simp only [sequence, spans_empty_iff]
    constructor
    · intro h
      exact ⟨k, h, h.inside, rfl⟩
    · rintro ⟨_, h, _, rfl⟩
      exact h
  | cons f es => exact spans_seq_iff

theorem spans_alt_iff : Spans text (.alt a b) i j ↔ Spans text a i j ∨ Spans text b i j := by
  constructor
  · intro h
    cases h with
    | altLeft h => exact .inl h
    | altRight h => exact .inr h
  · rintro (h | h)
    · exact .altLeft h
    · exact .altRight h

theorem spans_times_succ_iff : Spans text (.times a (n + 1) k) i j ↔
    ∃ m, Spans text a i m ∧ Spans text (.times a n k) m j := by
  constructor
  · intro h
    cases h with
    | timesCons first others => exact ⟨_, first, others⟩
  · rintro ⟨m, first, others⟩
    exact .timesCons first others

/-- Repetitions that may be left out follow those that must not. -/
theorem spans_times_iff {least extra : Nat} : Spans text (.times a least extra) i k ↔
    ∃ j, Spans text (.times a least 0) i j ∧ Spans text (.times a 0 extra) j k := by
  induction least generalizing i with
  | zero =>
    constructor
    · intro h
      exact ⟨i, .timesNil (Nat.le_trans h.le h.inside), h⟩
    · rintro ⟨j, ⟨_⟩, others⟩
      exact others
  | succ least ih =>
    simp only [spans_times_succ_iff, ih]
    constructor
    · rintro ⟨m, first, j, others, rest⟩
      exact ⟨j, ⟨m, first, others⟩, rest⟩
    · rintro ⟨j, ⟨m, first, others⟩, rest⟩
      exact ⟨m, first, j, others, rest⟩

theorem spans_star_of_times {extra : Nat} (h : Spans text (.times a 0 extra) i j) :
    Spans text (.star a) i j := by
  induction extra generalizing i with
  | zero =>
    cases h with
    | timesNil inside => exact .starNil inside
  | succ extra ih =>
    cases h with
    | timesNil inside => exact .starNil inside
    | timesExtra first others => exact .starCons first (ih others)

theorem Spans.times_mono {extra more : Nat} (h : Spans text (.times a 0 extra) i j)
    (enough : extra ≤ more) : Spans text (.times a 0 more) i j := by
  induction extra generalizing i more with
  | zero =>
    cases h with
    | timesNil inside => exact .timesNil inside
  | succ extra ih =>
    cases h with
    | timesNil inside => exact .timesNil inside
    | timesExtra first others =>
      obtain ⟨more, rfl⟩ := Nat.exists_eq_add_of_lt enough
      exact .timesExtra first (ih others (by omega))

/-- Steps that do not advance can be left out, so there need not be more than characters. -/
theorem times_of_spans_star (h : Spans text (.star a) i j) : Spans text (.times a 0 (j - i)) i j := by
  generalize whole : Expr.star a = e at h
  induction h with
  | starNil inside => exact .timesNil inside
  | @starCons b i m j first others _ ih =>
    obtain rfl : a = b := Expr.star.inj whole
    rcases Nat.eq_or_lt_of_le first.le with rfl | advance
    · exact ih rfl
    · have fewer : j - m + 1 ≤ j - i := by
        have := others.le
        omega
      exact (Spans.timesExtra first (ih rfl)).times_mono fewer
  | empty | set | look | seq | altLeft | altRight | timesNil | timesExtra | timesCons => cases whole

theorem spans_star_iff : Spans text (.star a) i j ↔ Spans text (.times a 0 (text.size + 1)) i j :=
  ⟨fun h => (times_of_spans_star h).times_mono (by have := h.inside; omega), spans_star_of_times⟩

theorem spans_times_extra_succ_iff : Spans text (.times a 0 (n + 1)) i j ↔
    (i ≤ text.size ∧ i = j) ∨ ∃ m, Spans text a i m ∧ Spans text (.times a 0 n) m j := by
  constructor
  · intro h
    cases h with
    | timesNil inside => exact .inl ⟨inside, rfl⟩
    | timesExtra first others => exact .inr ⟨_, first, others⟩
  · rintro (⟨inside, rfl⟩ | ⟨m, first, others⟩)
    · exact .timesNil inside
    · exact .timesExtra first others

/-- Places of which each holds a character of the set. -/
def Filled (text : Subject) (s : CharSet) (i j : Nat) : Prop :=
  ∀ k, i ≤ k → k < j → ∃ c, text[k]? = some c ∧ s.has c = true

theorem filled_succ_iff {s : CharSet} (more : i < j) : Filled text s i j ↔
    (∃ c, text[i]? = some c ∧ s.has c = true) ∧ Filled text s (i + 1) j := by
  constructor
  · intro filled
    exact ⟨filled i (Nat.le_refl i) more, fun k after before => filled k (by omega) before⟩
  · rintro ⟨first, others⟩ k after before
    rcases Nat.eq_or_lt_of_le after with rfl | behind
    · exact first
    · exact others k behind before

theorem filled_toArray_iff {cs : List Char} {s : CharSet} :
    Filled cs.toArray s i cs.length ↔ ∀ c ∈ cs.drop i, s.has c = true := by
  constructor
  · intro filled c member
    obtain ⟨n, at_n⟩ := List.mem_iff_getElem?.mp member
    rw [List.getElem?_drop] at at_n
    have inside := (List.getElem?_eq_some_iff.mp at_n).1
    obtain ⟨d, at_d, fits⟩ := filled (i + n) (Nat.le_add_right i n) inside
    rw [List.getElem?_toArray, at_n] at at_d
    cases at_d
    exact fits
  · intro fits k after before
    obtain ⟨n, rfl⟩ := Nat.exists_eq_add_of_le after
    refine ⟨cs[i + n], ?_, fits _ (List.mem_iff_getElem?.mpr ⟨n, ?_⟩)⟩
    · rw [List.getElem?_toArray, List.getElem?_eq_getElem before]
    · rw [List.getElem?_drop, List.getElem?_eq_getElem before]

/-- A repeated set fits the stretches of a length that is allowed which it fills. -/
theorem spans_times_set_iff {s : CharSet} {least extra : Nat} :
    Spans text (.times (.set s) least extra) i j ↔
      i + least ≤ j ∧ j ≤ i + least + extra ∧ j ≤ text.size ∧ Filled text s i j := by
  induction least generalizing i with
  | zero =>
    induction extra generalizing i with
    | zero =>
      constructor
      · intro h
        cases h with
        | timesNil inside => exact ⟨Nat.le_refl _, Nat.le_refl _, inside, fun k _ _ => by omega⟩
      · rintro ⟨lower, upper, inside, _⟩
        obtain rfl : i = j := by omega
        exact .timesNil inside
    | succ extra ih =>
      simp only [spans_times_extra_succ_iff, spans_set_iff, ih]
      constructor
      · rintro (⟨inside, rfl⟩ | ⟨_, ⟨c, at_i, fits, rfl⟩, lower, upper, inside, filled⟩)
        · exact ⟨Nat.le_refl _, by omega, inside, fun k _ _ => by omega⟩
        · exact ⟨by omega, by omega, inside,
            (filled_succ_iff (by omega)).mpr ⟨⟨c, at_i, fits⟩, filled⟩⟩
      · rintro ⟨lower, upper, inside, filled⟩
        rcases Nat.eq_or_lt_of_le lower with rfl | more
        · exact .inl ⟨inside, rfl⟩
        · obtain ⟨⟨c, at_i, fits⟩, others⟩ := (filled_succ_iff more).mp filled
          exact .inr ⟨i + 1, ⟨c, at_i, fits, rfl⟩, by omega, by omega, inside, others⟩
  | succ least ih =>
    simp only [spans_times_succ_iff, spans_set_iff, ih]
    constructor
    · rintro ⟨_, ⟨c, at_i, fits, rfl⟩, lower, upper, inside, filled⟩
      exact ⟨by omega, by omega, inside,
        (filled_succ_iff (by omega)).mpr ⟨⟨c, at_i, fits⟩, filled⟩⟩
    · rintro ⟨lower, upper, inside, filled⟩
      obtain ⟨⟨c, at_i, fits⟩, others⟩ := (filled_succ_iff (by omega)).mp filled
      exact ⟨i + 1, ⟨c, at_i, fits, rfl⟩, by omega, by omega, inside, others⟩

/-! ## Places -/

theorem mem_join {more : List Nat} : j ∈ join places more ↔ j ∈ places ∨ j ∈ more := by
  induction more generalizing places with
  | nil => simp [join]
  | cons m more ih =>
    have step : join places (m :: more) =
        join (if places.contains m then places else m :: places) more := rfl
    rw [step, ih]
    by_cases known : m ∈ places
    · simp only [List.contains_iff_mem, known, if_true, List.mem_cons]
      grind
    · simp only [List.contains_iff_mem, known, if_false, List.mem_cons]
      grind

/-- From places in the text, a step leads to the ends of the stretches that fit. -/
def Leads (text : Subject) (a : Expr) (step : List Nat → List Nat) : Prop :=
  ∀ places j, (∀ i ∈ places, i ≤ text.size) → (j ∈ step places ↔ ∃ i ∈ places, Spans text a i j)

variable {step : List Nat → List Nat}

theorem Leads.inside (leads : Leads text a step) (inside : ∀ i ∈ places, i ≤ text.size) :
    ∀ j ∈ step places, j ≤ text.size := by
  intro j reached
  obtain ⟨_, _, spans⟩ := (leads places j inside).mp reached
  exact spans.inside

theorem mem_iterate_iff (leads : Leads text a step) (inside : ∀ i ∈ places, i ≤ text.size) :
    j ∈ iterate step n places ↔ ∃ i ∈ places, Spans text (.times a n 0) i j := by
  induction n generalizing places with
  | zero =>
    rw [iterate]
    constructor
    · intro member
      exact ⟨j, member, .timesNil (inside j member)⟩
    · rintro ⟨i, member, ⟨_⟩⟩
      exact member
  | succ n ih =>
    have rounds : iterate step (n + 1) places =
        if (step places).isEmpty then [] else iterate step n (step places) := rfl
    simp only [spans_times_succ_iff]
    rw [rounds]
    split
    · next none =>
      refine iff_of_false List.not_mem_nil ?_
      rintro ⟨i, member, m, first, _⟩
      have reached := (leads places m inside).mpr ⟨i, member, first⟩
      rw [List.isEmpty_iff.mp none] at reached
      exact List.not_mem_nil reached
    · rw [ih (leads.inside inside)]
      constructor
      · rintro ⟨m, reached, others⟩
        obtain ⟨i, member, first⟩ := (leads places m inside).mp reached
        exact ⟨i, member, m, first, others⟩
      · rintro ⟨i, member, m, first, others⟩
        exact ⟨m, (leads places m inside).mpr ⟨i, member, first⟩, others⟩

/-- The places found so far hold whatever a step from one of them leads to, if that is not among the
last ones found. -/
structure Explored (text : Subject) (a : Expr) (places fresh : List Nat) : Prop where
  inside : ∀ i ∈ places, i ≤ text.size
  found : ∀ i ∈ fresh, i ∈ places
  closed : ∀ i ∈ places, i ∉ fresh → ∀ j, Spans text a i j → j ∈ places

theorem Explored.round (leads : Leads text a step) {fresh : List Nat}
    (h : Explored text a places fresh) :
    let new := (step fresh).filter fun i => !places.contains i
    (∀ i ∈ places, ∀ j, Spans text a i j → j ∈ places ∨ j ∈ new) ∧
      (∀ j ∈ new, ∃ i ∈ places, Spans text a i j) ∧
      Explored text a (join places new) new := by
  intro new
  have freshInside : ∀ i ∈ fresh, i ≤ text.size := fun i member => h.inside i (h.found i member)
  have mem_new : ∀ j, j ∈ new ↔ (∃ i ∈ fresh, Spans text a i j) ∧ j ∉ places := by
    intro j
    simp only [new, List.mem_filter, leads fresh j freshInside, Bool.not_eq_true',
      ← Bool.not_eq_true, List.contains_iff_mem]
  have leadsTo : ∀ i ∈ places, ∀ j, Spans text a i j → j ∈ places ∨ j ∈ new := by
    intro i member j spans
    by_cases last : i ∈ fresh
    · by_cases known : j ∈ places
      · exact .inl known
      · exact .inr ((mem_new j).mpr ⟨⟨i, last, spans⟩, known⟩)
    · exact .inl (h.closed i member last j spans)
  refine ⟨leadsTo, ?_, ?_, ?_, ?_⟩
  · intro j reached
    obtain ⟨⟨i, member, spans⟩, _⟩ := (mem_new j).mp reached
    exact ⟨i, h.found i member, spans⟩
  · intro i member
    rcases mem_join.mp member with old | reached
    · exact h.inside i old
    · obtain ⟨⟨_, _, spans⟩, _⟩ := (mem_new i).mp reached
      exact spans.inside
  · exact fun i reached => mem_join.mpr (.inr reached)
  · intro i member old j spans
    have before : i ∈ places := (mem_join.mp member).resolve_right old
    exact mem_join.mpr (leadsTo i before j spans)

/-- Steps never leave places that no single step leaves. -/
theorem mem_of_times (closed : ∀ i ∈ places, ∀ j, Spans text a i j → j ∈ places)
    (member : i ∈ places) (h : Spans text (.times a 0 n) i j) : j ∈ places := by
  induction n generalizing i with
  | zero =>
    cases h with
    | timesNil => exact member
  | succ n ih =>
    cases h with
    | timesNil => exact member
    | timesExtra first others => exact ih (closed i member _ first) others

theorem mem_closure_iff (leads : Leads text a step) {fresh : List Nat}
    (h : Explored text a places fresh) :
    j ∈ closure step n places fresh ↔ ∃ i ∈ places, Spans text (.times a 0 n) i j := by
  induction n generalizing places fresh with
  | zero =>
    rw [closure]
    constructor
    · intro member
      exact ⟨j, member, .timesNil (h.inside j member)⟩
    · rintro ⟨i, member, ⟨_⟩⟩
      exact member
  | succ n ih =>
    obtain ⟨leadsTo, reached, next⟩ := h.round leads
    have rounds : closure step (n + 1) places fresh =
        if ((step fresh).filter fun i => !places.contains i).isEmpty then places
        else closure step n (join places ((step fresh).filter fun i => !places.contains i))
          ((step fresh).filter fun i => !places.contains i) := rfl
    generalize (step fresh).filter (fun i => !places.contains i) = new at leadsTo reached next rounds
    rw [rounds]
    split
    · next none =>
      have closed : ∀ i ∈ places, ∀ j, Spans text a i j → j ∈ places := fun i member j spans =>
        (leadsTo i member j spans).resolve_right (by simp [List.isEmpty_iff.mp none])
      constructor
      · intro member
        exact ⟨j, member, .timesNil (h.inside j member)⟩
      · rintro ⟨i, member, spans⟩
        exact mem_of_times closed member spans
    · rw [ih next]
      constructor
      · rintro ⟨m, member, spans⟩
        rcases mem_join.mp member with old | last
        · exact ⟨m, old, spans.times_mono (Nat.le_succ n)⟩
        · obtain ⟨i, before, first⟩ := reached m last
          exact ⟨i, before, .timesExtra first spans⟩
      · rintro ⟨i, member, spans⟩
        cases spans with
        | timesNil inside => exact ⟨_, mem_join.mpr (.inl member), .timesNil inside⟩
        | timesExtra first others => exact ⟨_, mem_join.mpr (leadsTo i member _ first), others⟩

theorem explored_start (inside : ∀ i ∈ places, i ≤ text.size) : Explored text a places places :=
  ⟨inside, fun _ member => member, fun _ member last => absurd member last⟩

/-! ## Patterns -/

theorem leads_ends (text : Subject) (e : Expr) : Leads text e (ends text e) := by
  induction e with
  | empty =>
    intro places j inside
    simp only [ends, spans_empty_iff]
    constructor
    · intro member
      exact ⟨j, member, inside j member, rfl⟩
    · rintro ⟨i, member, _, rfl⟩
      exact member
  | set s =>
    intro places j inside
    simp only [ends, List.mem_filterMap, spans_set_iff]
    refine exists_congr fun i => and_congr_right fun _ => ?_
    cases text[i]? with
    | none => simp
    | some c => cases fits : s.has c <;> simp [fits, eq_comm (a := j)]
  | look l =>
    intro places j inside
    simp only [ends, List.mem_filter, spans_look_iff]
    constructor
    · rintro ⟨member, fits⟩
      exact ⟨j, member, inside j member, fits, rfl⟩
    · rintro ⟨i, member, _, fits, rfl⟩
      exact ⟨member, fits⟩
  | seq a b first second =>
    intro places k inside
    have middle : k ∈ ends text (.seq a b) places ↔ k ∈ ends text b (ends text a places) := by
      simp only [ends]
      split
      · next none =>
        rw [List.isEmpty_iff.mp none, second [] k nofun]
        simp
      · rfl
    rw [middle, second _ k (first.inside inside)]
    simp only [spans_seq_iff]
    constructor
    · rintro ⟨j, reached, rest⟩
      obtain ⟨i, member, start⟩ := (first places j inside).mp reached
      exact ⟨i, member, j, start, rest⟩
    · rintro ⟨i, member, j, start, rest⟩
      exact ⟨j, (first places j inside).mpr ⟨i, member, start⟩, rest⟩
  | alt a b first second =>
    intro places j inside
    simp only [ends, mem_join, first places j inside, second places j inside, spans_alt_iff,
      and_or_left, exists_or]
  | star a ih =>
    intro places j inside
    simp only [ends, spans_star_iff]
    exact mem_closure_iff ih (explored_start inside)
  | times a least extra ih =>
    intro places k inside
    have middle : ∀ j ∈ iterate (ends text a) least places, j ≤ text.size := by
      intro j reached
      obtain ⟨_, _, spans⟩ := (mem_iterate_iff ih inside).mp reached
      exact spans.inside
    simp only [ends, within]
    rw [mem_closure_iff ih (explored_start middle)]
    constructor
    · rintro ⟨j, reached, rest⟩
      obtain ⟨i, member, start⟩ := (mem_iterate_iff ih inside).mp reached
      exact ⟨i, member, spans_times_iff.mpr ⟨j, start, rest⟩⟩
    · rintro ⟨i, member, spans⟩
      obtain ⟨j, start, rest⟩ := spans_times_iff.mp spans
      exact ⟨j, (mem_iterate_iff ih inside).mpr ⟨i, member, start⟩, rest⟩

/-- A pattern occurs in a text exactly if some stretch of it fits. -/
theorem occursIn_iff {s : String} :
    e.occursIn s = true ↔ ∃ i j, Spans s.toList.toArray e i j := by
  let text : Subject := s.toList.toArray
  have inside : ∀ i ∈ List.range (text.size + 1), i ≤ text.size := fun i member =>
    Nat.lt_succ_iff.mp (List.mem_range.mp member)
  have some : e.occursIn s = true ↔ ∃ j, j ∈ ends text e (List.range (text.size + 1)) := by
    rw [occursIn, Bool.not_eq_true', List.isEmpty_eq_false_iff_exists_mem]
  rw [some, exists_comm]
  refine exists_congr fun j => ?_
  rw [leads_ends text e _ j inside]
  constructor
  · rintro ⟨i, _, spans⟩
    exact ⟨i, spans⟩
  · rintro ⟨i, spans⟩
    exact ⟨i, List.mem_range.mpr (Nat.lt_succ_of_le (Nat.le_trans spans.le spans.inside)), spans⟩

end BackOffice.Pattern.Expr
