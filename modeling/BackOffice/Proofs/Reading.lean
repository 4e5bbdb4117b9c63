import Mathlib.Data.List.Forall2

/-!
# Lists read item by item

Reading every item of a list succeeds exactly if each of them reads, and gives what they read as, in
their order. Steps taken one item after the other succeed exactly if each does from where the last
one led.
-/
namespace BackOffice

variable {α β ε : Type}

theorem mapM_some_iff {read : α → Option β} {as : List α} {bs : List β} :
    as.mapM read = some bs ↔ List.Forall₂ (fun a b => read a = some b) as bs := by
  induction as generalizing bs with
  | nil =>
    rw [List.forall₂_nil_left_iff]
    constructor <;> rintro ⟨⟩ <;> rfl
  | cons a rest ih =>
    simp only [List.mapM_cons, Option.bind_eq_bind, Option.bind_eq_some_iff, Option.pure_def,
      Option.some.injEq, List.forall₂_cons_left_iff, ih]
    constructor
    · rintro ⟨b, first, others, rest, rfl⟩
      exact ⟨b, others, first, rest, rfl⟩
    · rintro ⟨b, others, first, rest, rfl⟩
      exact ⟨b, first, others, rest, rfl⟩

theorem bind_ok_iff {x : Except ε α} {f : α → Except ε β} {b : β} :
    x >>= f = .ok b ↔ ∃ a, x = .ok a ∧ f a = .ok b := by
  cases x with
  | error e => exact ⟨nofun, fun ⟨_, read, _⟩ => nomatch read⟩
  | ok a => exact ⟨fun h => ⟨a, rfl, h⟩, fun ⟨_, read, h⟩ => Except.ok.inj read ▸ h⟩

theorem mapM_ok_iff {read : α → Except ε β} {as : List α} {bs : List β} :
    as.mapM read = .ok bs ↔ List.Forall₂ (fun a b => read a = .ok b) as bs := by
  induction as generalizing bs with
  | nil =>
    rw [List.forall₂_nil_left_iff]
    constructor <;> rintro ⟨⟩ <;> rfl
  | cons a rest ih =>
    simp only [List.mapM_cons, bind_ok_iff, List.forall₂_cons_left_iff, ih]
    constructor
    · rintro ⟨b, first, others, rest, ⟨⟩⟩
      exact ⟨b, others, first, rest, rfl⟩
    · rintro ⟨b, others, first, rest, rfl⟩
      exact ⟨b, first, others, rest, rfl⟩

theorem exists_mapM_iff {read : α → Except ε β} {as : List α} :
    (∃ bs, as.mapM read = .ok bs) ↔ ∀ a ∈ as, ∃ b, read a = .ok b := by
  simp only [mapM_ok_iff]
  induction as with
  | nil => exact ⟨fun _ _ ha => (nomatch ha), fun _ => ⟨[], .nil⟩⟩
  | cons a rest ih =>
    rw [List.forall_mem_cons, ← ih]
    constructor
    · rintro ⟨_, first | ⟨first, others⟩⟩
      exact ⟨⟨_, first⟩, _, others⟩
    · rintro ⟨⟨b, first⟩, bs, others⟩
      exact ⟨b :: bs, .cons first others⟩

/-- What is read comes from some item. -/
theorem exists_of_forall₂ {R : α → β → Prop} {as : List α} {bs : List β} {b : β}
    (h : List.Forall₂ R as bs) (hb : b ∈ bs) : ∃ a ∈ as, R a b := by
  induction h with
  | nil => cases hb
  | cons first _ ih =>
    rcases List.mem_cons.mp hb with rfl | later
    · exact ⟨_, List.mem_cons_self, first⟩
    · obtain ⟨a, ha, related⟩ := ih later
      exact ⟨a, List.mem_cons_of_mem _ ha, related⟩

section Folds

variable {step : β → α → Except ε β} {b b' : β} {a : α} {as rest : List α}

theorem foldlM_cons_iff : (a :: rest).foldlM step b = .ok b' ↔
    ∃ next, step b a = .ok next ∧ rest.foldlM step next = .ok b' := by
  rw [List.foldlM_cons, bind_ok_iff]

theorem foldlM_concat_iff : (as ++ [a]).foldlM step b = .ok b' ↔
    ∃ before, as.foldlM step b = .ok before ∧ step before a = .ok b' := by
  simp only [List.foldlM_append, bind_ok_iff, foldlM_cons_iff]
  refine exists_congr fun before => and_congr_right fun _ => ⟨?_, fun last => ⟨b', last, rfl⟩⟩
  rintro ⟨_, last, ⟨⟩⟩
  exact last

theorem foldlM_cons_of_ok (h : step b a = .ok b') (rest : List α) :
    (a :: rest).foldlM step b = rest.foldlM step b' := by
  rw [List.foldlM_cons, h]
  rfl

theorem foldlM_append_of_ok (h : as.foldlM step b = .ok b') (rest : List α) :
    (as ++ rest).foldlM step b = rest.foldlM step b' := by
  rw [List.foldlM_append, h]
  rfl

theorem foldlM_preserves {holds : β → Prop} (keeps : ∀ b a b', holds b → step b a = .ok b' → holds b')
    (start : holds b) (run : as.foldlM step b = .ok b') : holds b' := by
  induction as generalizing b with
  | nil =>
    cases run
    exact start
  | cons a rest ih =>
    obtain ⟨next, first, others⟩ := foldlM_cons_iff.mp run
    exact ih (keeps b a next start first) others

/-- Steps that go well or not whatever they start from go well one after the other if each does. -/
theorem exists_foldlM_iff {good : α → Prop} (one : ∀ b a, (∃ b', step b a = .ok b') ↔ good a)
    (b : β) (as : List α) : (∃ b', as.foldlM step b = .ok b') ↔ ∀ a ∈ as, good a := by
  induction as generalizing b with
  | nil => exact ⟨fun _ _ ha => (nomatch ha), fun _ => ⟨b, rfl⟩⟩
  | cons a rest ih =>
    simp only [List.forall_mem_cons, foldlM_cons_iff]
    constructor
    · rintro ⟨b', next, first, others⟩
      exact ⟨(one b a).mp ⟨next, first⟩, (ih next).mp ⟨b', others⟩⟩
    · rintro ⟨good, others⟩
      obtain ⟨next, first⟩ := (one b a).mpr good
      obtain ⟨b', run⟩ := (ih next).mpr others
      exact ⟨b', next, first, run⟩

end Folds

end BackOffice
