import BackOffice.Proofs.Query.Params
import BackOffice.Query.Document
import Mathlib.Data.List.Forall2

/-!
# How many values a clause comes with

A clause that is made of its parts, or read of parameters, has as many values as its operator takes.
A document is not asked for that: the clause that is read of it has as many values as the document
lists, and whatever is listed is read. So exactly those clauses fall short whose document does.
-/
namespace BackOffice.Query

open BackOffice.Field

/-! ## Where clauses come from -/

/-- Where a caller comes by clauses. -/
inductive Origin where
  | parts (name : String) (operator : Operator) (values : List Value)
  | equals (name : String) (value : Value)
  | like (name pattern : String)
  | params (p : Params) (defaultSize : UInt64)
  | document (j : Json)
  | criteriaDocument (j : Json)

/-- The documents of the clauses in a document of criteria. -/
def Criteria.clauseDocuments (j : Json) : List Json :=
  match j.members? ["where_clauses", "join_op", "sort_clauses", "page_index", "page_size",
    "compute_total"] with
  | some (some (.arr items) :: _) => items
  | _ => []

namespace Origin

/-- The clauses that are found there, none where they are refused. -/
def clauses : Origin → List Clause
  | parts name operator values => (Clause.make name operator values).toOption.toList
  | equals name value => [.equals name value]
  | like name pattern => [.like name pattern]
  | params p defaultSize =>
    ((Criteria.ofParams p defaultSize).toOption.map Criteria.clauses).getD []
  | document j => (Clause.ofJson? j).toList
  | criteriaDocument j => ((Criteria.ofJson? j).map Criteria.clauses).getD []

/-- The documents of which these clauses are read. -/
def documents : Origin → List Json
  | document j => if (Clause.ofJson? j).isSome then [j] else []
  | criteriaDocument j => if (Criteria.ofJson? j).isSome then Criteria.clauseDocuments j else []
  | parts .. | equals .. | like .. | params .. => []

end Origin

/-- The document of a clause lists as many values as its operator takes. -/
def Clause.Counted (j : Json) : Prop :=
  ∀ name operator values op,
    j.members? ["name", "operator", "values"] = some [name, some operator, some (.arr values)] →
      operator.unitName?.bind Operator.ofToken? = some op → op.takes values.length = true

/-! ## Reading documents -/

theorem items?_eq_some_iff {j : Json} {items : List Json} :
    j.items? = some items ↔ j = .arr items := by
  cases j <;> simp [Json.items?]

theorem str?_eq_some_iff {j : Json} {s : String} : j.str? = some s ↔ j = .str s := by
  cases j <;> simp [Json.str?]

/-- What the document of a clause says. -/
theorem Clause.ofJson?_eq_some_iff {j : Json} {c : Clause} :
    Clause.ofJson? j = some c ↔ ∃ operator values,
      j.members? ["name", "operator", "values"] =
        some [some (.str c.name), some operator, some (.arr values)] ∧
      operator.unitName?.bind Operator.ofToken? = some c.operator ∧
      values.mapM Value.ofJson? = some c.values := by
  obtain ⟨name, op, values⟩ := c
  constructor
  · intro read
    rw [Clause.ofJson?] at read
    split at read
    · next name' operator values' members =>
      simp only [Option.bind_eq_bind, Option.bind_eq_some_iff, items?_eq_some_iff,
        str?_eq_some_iff, Option.some.injEq, Clause.mk.injEq] at read
      obtain ⟨_, known, items, rfl, _, each, _, rfl, rfl, rfl, rfl⟩ := read
      exact ⟨operator, items, members, Option.bind_eq_some_iff.mpr known, each⟩
    · cases read
  · rintro ⟨operator, items, members, known, each⟩
    simp only [Clause.ofJson?, members, known, each, Json.items?, Json.str?, Option.bind_eq_bind,
      Option.bind_some]

/-- A clause that is read of a document is as well formed as the document lets it be. -/
theorem Clause.wellFormed_iff_counted {j : Json} {c : Clause} (read : Clause.ofJson? j = some c) :
    c.WellFormed ↔ Clause.Counted j := by
  obtain ⟨operator, values, members, known, each⟩ := Clause.ofJson?_eq_some_iff.mp read
  have length : values.length = c.values.length := (mapM_some_iff.mp each).length_eq
  constructor
  · intro takes name operator' values' op members' known'
    simp only [members, Option.some.injEq, List.cons.injEq, Json.arr.injEq, and_true] at members'
    obtain ⟨rfl, rfl, rfl⟩ := members'
    obtain rfl : c.operator = op := Option.some.inj (known.symm.trans known')
    rw [length]
    exact takes
  · intro counted
    rw [Clause.WellFormed, ← length]
    exact counted _ _ _ _ members known

/-- What the document of criteria says of their clauses. -/
theorem Criteria.clauses_of_ofJson? {j : Json} {c : Criteria} (read : Criteria.ofJson? j = some c) :
    List.Forall₂ (fun d clause => Clause.ofJson? d = some clause) (Criteria.clauseDocuments j)
      c.clauses := by
  simp only [Criteria.ofJson?] at read
  split at read
  · next clauses join sorts page size counted members =>
    simp only [Option.bind_eq_bind, Option.bind_eq_some_iff, items?_eq_some_iff,
      Option.some.injEq] at read
    obtain ⟨items, rfl, _, each, _, _, _, _, _, _, _, _, _, _, _, _, rfl⟩ := read
    rw [Criteria.clauseDocuments, members]
    exact mapM_some_iff.mp each
  · cases read

theorem forall_iff_of_forall₂ {α β : Type} {related : α → β → Prop} {p : α → Prop} {q : β → Prop}
    (same : ∀ a b, related a b → (q b ↔ p a)) {as : List α} {bs : List β}
    (h : List.Forall₂ related as bs) : (∀ b ∈ bs, q b) ↔ ∀ a ∈ as, p a := by
  induction h with
  | nil => simp
  | cons first _ ih => rw [List.forall_mem_cons, List.forall_mem_cons, same _ _ first, ih]

/-! ## Documents that are written -/

theorem mapM_of_forall {α β : Type} {read : α → Option β} {write : β → α} {bs : List β}
    (back : ∀ b ∈ bs, read (write b) = some b) : (bs.map write).mapM read = some bs := by
  rw [mapM_some_iff, List.forall₂_map_left_iff]
  exact List.forall₂_same.mpr back

/-- A clause of texts is read back from its document, however many texts there are. -/
theorem Clause.ofJson?_of_toJson (c : Clause) : Clause.ofJson? c.asText.toJson = some c.asText := by
  refine Clause.ofJson?_eq_some_iff.mpr ⟨.str c.operator.token, _, rfl, ?_, ?_⟩
  · exact c.operator.ofToken?_token
  · apply mapM_of_forall
    intro v hv
    obtain ⟨_, _, rfl⟩ := List.mem_map.mp hv
    rfl

theorem Sorting.ofJson?_of_toJson (s : Sorting) : Sorting.ofJson? s.toJson = some s := by
  have direction : (Json.str s.direction.token).unitName?.bind Direction.ofToken? =
      some s.direction := s.direction.ofToken?_token
  have members : s.toJson.members? ["name", "direction"] =
      some [some (.str s.name), some (.str s.direction.token)] := rfl
  simp only [Sorting.ofJson?, members, direction, Json.str?, Option.bind_eq_bind, Option.bind_some]

theorem word?_nat (n : UInt64) : (Json.nat n.toNat).word? = some n := by
  have bound : n.toNat < 2 ^ 64 := n.toNat_lt
  rw [Json.nat, Json.word?, if_pos (by omega), Int.toNat_natCast, UInt64.ofNat_toNat]

/-- Criteria whose values are texts are read back from their document, well formed or not. -/
theorem Criteria.ofJson?_of_toJson (c : Criteria) :
    Criteria.ofJson? c.asText.toJson = some c.asText := by
  have clauses : (c.asText.clauses.map Clause.toJson).mapM Clause.ofJson? =
      some c.asText.clauses := by
    apply mapM_of_forall
    intro clause hc
    obtain ⟨original, _, rfl⟩ := List.mem_map.mp hc
    exact original.ofJson?_of_toJson
  have sorts : (c.sorts.map Sorting.toJson).mapM Sorting.ofJson? = some c.sorts :=
    mapM_of_forall fun s _ => s.ofJson?_of_toJson
  have join : (Json.str c.join.token).unitName?.bind Join.ofToken? = some c.join :=
    c.join.ofToken?_token
  have members : c.asText.toJson.members? ["where_clauses", "join_op", "sort_clauses",
      "page_index", "page_size", "compute_total"] =
      some [some (.arr (c.asText.clauses.map Clause.toJson)), some (.str c.join.token),
        some (.arr (c.sorts.map Sorting.toJson)), some (.nat c.page.toNat),
        some (.nat c.size.toNat), some (.bool c.counted)] := rfl
  simp only [Criteria.ofJson?, members, Json.items?, clauses, join, sorts, word?_nat, Json.bool?,
    Option.bind_eq_bind, Option.bind_some]
  rfl

/-! ## Which clauses are well formed -/

namespace Origin

theorem wellFormed_of_parts (name : String) (operator : Operator) (values : List Value) :
    ∀ c ∈ (parts name operator values).clauses, c.WellFormed := by
  intro c hc
  rw [clauses, Clause.make] at hc
  split at hc
  · next takes =>
    obtain rfl := List.mem_singleton.mp hc
    exact takes
  · cases hc

theorem wellFormed_of_params (p : Params) (defaultSize : UInt64) :
    ∀ c ∈ (params p defaultSize).clauses, c.WellFormed := by
  intro c hc
  rw [clauses] at hc
  cases read : Criteria.ofParams p defaultSize with
  | error fault =>
    rw [read] at hc
    cases hc
  | ok criteria =>
    rw [read] at hc
    exact (Criteria.of_ofParams read).1.clauses c hc

end Origin

/-- Clauses from wherever are all well formed exactly if each document of which one is read lists as
many values as its operator takes. Of those that come from elsewhere nothing is asked. -/
theorem Origin.wellFormed_clauses_iff (o : Origin) :
    (∀ c ∈ o.clauses, c.WellFormed) ↔ ∀ d ∈ o.documents, Clause.Counted d := by
  cases o with
  | parts name operator values =>
    exact iff_of_true (wellFormed_of_parts name operator values) (List.forall_mem_nil _)
  | equals name value =>
    exact iff_of_true (List.forall_mem_singleton.mpr rfl) (List.forall_mem_nil _)
  | like name pattern =>
    exact iff_of_true (List.forall_mem_singleton.mpr rfl) (List.forall_mem_nil _)
  | params p defaultSize =>
    exact iff_of_true (wellFormed_of_params p defaultSize) (List.forall_mem_nil _)
  | document j =>
    rw [clauses, documents]
    cases read : Clause.ofJson? j with
    | none => simp
    | some c => simpa using Clause.wellFormed_iff_counted read
  | criteriaDocument j =>
    rw [clauses, documents]
    cases read : Criteria.ofJson? j with
    | none => simp
    | some criteria =>
      exact forall_iff_of_forall₂ (fun d c => Clause.wellFormed_iff_counted (j := d) (c := c))
        (Criteria.clauses_of_ofJson? read)

/-- A range with one end. -/
def openRange : Json :=
  .obj [("name", .str "age"), ("operator", .str "btw"), ("values", .arr [.int 18])]

/-- The document of a range with one end is read as a clause, and among criteria, although the clause
could not be made of its parts. -/
theorem openRange_read :
    (Origin.document openRange).clauses = [⟨"age", .between, [.int 18]⟩] ∧
    (Origin.criteriaDocument (.obj [("where_clauses", .arr [openRange]), ("join_op", .str "AND"),
        ("sort_clauses", .arr []), ("page_index", .int 0), ("page_size", .int 20),
        ("compute_total", .bool false)])).clauses = [⟨"age", .between, [.int 18]⟩] ∧
    ¬(⟨"age", .between, [.int 18]⟩ : Clause).WellFormed ∧
    (Origin.parts "age" .between [.int 18]).clauses = [] := by
  refine ⟨rfl, rfl, ?_, rfl⟩
  rw [Clause.WellFormed]
  decide

end BackOffice.Query
