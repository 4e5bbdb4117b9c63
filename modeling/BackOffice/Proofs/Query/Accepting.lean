import BackOffice.Proofs.Query.Gathering
import Mathlib.Data.List.Forall2
import Mathlib.Data.List.Sort

/-!
# Which parameters are read, and as what

Parameters come in any order, keys come more than once, clauses come in pieces, and keys without a
meaning come along. They are accepted exactly if every value can be read by itself, the page lies in
range and every index that occurs is complete. Then the last value of a topic counts, and the
clauses stand in the order of their indices.
-/
namespace BackOffice.Query

open BackOffice.Field

/-! ## What parameters mean -/

/-- Every index that is mentioned gives one item, and the items stand in the order of the indices. -/
def Listed {α : Type} (mentioned : Nat → Prop) (gives : Nat → α → Prop) (items : List α) : Prop :=
  ∃ indices : List Nat, indices.Pairwise (· < ·) ∧ (∀ n, n ∈ indices ↔ mentioned n) ∧
    List.Forall₂ gives indices items

namespace Params

/-- Some part is given of the clause with this index. -/
def MentionsClause (p : Params) (n : Nat) : Prop := ∃ part, p.given (.slot (.clause n part)) ≠ []

def MentionsSort (p : Params) (n : Nat) : Prop := ∃ part, p.given (.slot (.sort n part)) ≠ []

/-- The parts that are given of an index make up this clause: the last name and the last operator,
and all values, as many as the operator takes. -/
structure GivesClause (p : Params) (n : Nat) (c : Clause) : Prop where
  name : (p.given (.slot (.clause n .name))).getLast? = some c.name
  operator : (p.given (.slot (.clause n .token))).getLast? = some c.operator.token
  values : c.values = (p.given (.slot (.clause n .value))).map .text
  takes : c.operator.takes c.values.length = true

structure GivesSort (p : Params) (n : Nat) (s : Sorting) : Prop where
  name : (p.given (.slot (.sort n .name))).getLast? = some s.name
  direction : (p.given (.slot (.sort n .token))).getLast? = some s.direction.token

/-- What parameters have to fulfil, each value by itself but for the page. -/
structure Acceptable (p : Params) (defaultSize : UInt64) : Prop where
  values : ∀ topic, ∀ v ∈ p.given topic, topic.Admits v
  inside : p.page.toNat * (p.size defaultSize).toNat ≤ maxWord
  clauses : ∀ n, p.MentionsClause n → ∃ c, p.GivesClause n c
  sorts : ∀ n, p.MentionsSort n → ∃ s, p.GivesSort n s

/-- The criteria say what the parameters say. -/
structure Means (p : Params) (defaultSize : UInt64) (c : Criteria) : Prop where
  page : c.page = p.page
  size : c.size = p.size defaultSize
  join : c.join = p.join
  counted : c.counted = p.counted
  clauses : Listed p.MentionsClause p.GivesClause c.clauses
  sorts : Listed p.MentionsSort p.GivesSort c.sorts

end Params

/-! ## Finishing a draft -/

theorem Partial.toClause_ok_iff {p : Partial} {key : String} {c : Clause} :
    p.toClause key = .ok c ↔ p.name = some c.name ∧ p.token = some c.operator.token ∧
      c.values = p.values.map .text ∧ c.operator.takes c.values.length = true := by
  constructor
  · intro h
    simp only [Partial.toClause] at h
    split at h
    · next name token =>
      split at h
      · next read =>
        rw [Clause.make] at h
        split at h
        · next takes =>
          cases h
          rw [Operator.ofToken?_eq_some_iff] at read
          exact ⟨name, read ▸ token, rfl, takes⟩
        · cases h
      · cases h
    · cases h
  · rintro ⟨name, token, values, takes⟩
    simp only [Partial.toClause, name, token, Operator.ofToken?_token, ← values]
    rw [Clause.make, if_pos takes]

theorem Partial.toSort_ok_iff {p : Partial} {key : String} {s : Sorting} :
    p.toSort key = .ok s ↔ p.name = some s.name ∧ p.token = some s.direction.token := by
  constructor
  · intro h
    simp only [Partial.toSort] at h
    split at h
    · next name token =>
      split at h
      · next read =>
        cases h
        rw [Direction.ofToken?_eq_some_iff] at read
        exact ⟨name, read ▸ token⟩
      · cases h
    · cases h
  · rintro ⟨name, token⟩
    simp only [Partial.toSort, name, token, Direction.ofToken?_token]

section Reading

variable {α ε : Type} {s : Slots} {arrived : Nat → Part → List String}
  {read : Nat × Partial → Except ε α} {gives : Nat → α → Prop}

/-- Items that are read of slots are listed by their indices. -/
theorem Slots.Tell.listed (h : s.Tell arrived)
    (reads : ∀ n a, read (n, Partial.gather (arrived n)) = .ok a ↔ gives n a) {as : List α}
    (run : s.mapM read = .ok as) : Listed (fun n => ∃ part, arrived n part ≠ []) gives as := by
  refine ⟨s.map (·.1), ?_, ?_, ?_⟩
  · rw [List.pairwise_map]
    exact h.ordered.increasing
  · intro n
    constructor
    · intro hn
      obtain ⟨⟨_, q⟩, he, rfl⟩ := List.mem_map.mp hn
      exact ((h.mem_iff _ q).mp he).1
    · intro mentioned
      exact List.mem_map.mpr ⟨_, (h.mem_iff n _).mpr ⟨mentioned, rfl⟩, rfl⟩
  · have held : ∀ e ∈ s, e.2 = Partial.gather (arrived e.1) :=
      fun e he => ((h.mem_iff e.1 e.2).mp he).2
    have both := (List.forall₂_and_left s as).mpr ⟨held, mapM_ok_iff.mp run⟩
    rw [List.forall₂_map_left_iff]
    refine both.imp ?_
    rintro ⟨n, q⟩ a ⟨told, made⟩
    obtain rfl : q = Partial.gather (arrived n) := told
    exact (reads n a).mp made

/-- All slots can be read if every index that is mentioned gives an item. -/
theorem Slots.Tell.exists_mapM_iff (h : s.Tell arrived)
    (reads : ∀ n a, read (n, Partial.gather (arrived n)) = .ok a ↔ gives n a) :
    (∃ as, s.mapM read = .ok as) ↔ ∀ n, (∃ part, arrived n part ≠ []) → ∃ a, gives n a := by
  rw [BackOffice.exists_mapM_iff]
  constructor
  · intro each n mentioned
    obtain ⟨a, made⟩ := each _ ((h.mem_iff n _).mpr ⟨mentioned, rfl⟩)
    exact ⟨a, (reads n a).mp made⟩
  · rintro each ⟨n, q⟩ he
    obtain ⟨mentioned, rfl⟩ := (h.mem_iff n q).mp he
    obtain ⟨a, made⟩ := each n mentioned
    exact ⟨a, (reads n a).mpr made⟩

end Reading

/-- What is listed is determined by the indices and by what these give. -/
theorem Listed.unique {α : Type} {mentioned : Nat → Prop} {gives : Nat → α → Prop}
    (one : ∀ n a b, gives n a → gives n b → a = b) {as bs : List α}
    (left : Listed mentioned gives as) (right : Listed mentioned gives bs) : as = bs := by
  obtain ⟨ns, increasing, members, gave⟩ := left
  obtain ⟨ms, increasing', members', gave'⟩ := right
  have same : ns = ms :=
    increasing.eq_of_mem_iff increasing' fun n => (members n).trans (members' n).symm
  subst same
  clear increasing members increasing' members'
  induction gave generalizing bs with
  | nil =>
    cases gave'
    rfl
  | cons first _ ih =>
    cases gave' with
    | cons first' others' => rw [one _ _ _ first first', ih others']

theorem Operator.token_inj {a b : Operator} (h : a.token = b.token) : a = b :=
  Option.some.inj (a.ofToken?_token.symm.trans (Operator.ofToken?_eq_some_iff.mpr h))

theorem Direction.token_inj {a b : Direction} (h : a.token = b.token) : a = b :=
  Option.some.inj (a.ofToken?_token.symm.trans (Direction.ofToken?_eq_some_iff.mpr h))

theorem Params.GivesClause.unique {p : Params} {n : Nat} {c c' : Clause} (h : p.GivesClause n c)
    (h' : p.GivesClause n c') : c = c' := by
  have name : c.name = c'.name := Option.some.inj (h.name.symm.trans h'.name)
  have token := Option.some.inj (h.operator.symm.trans h'.operator)
  have values : c.values = c'.values := h.values.trans h'.values.symm
  cases c
  cases c'
  cases name
  cases values
  cases Operator.token_inj token
  rfl

theorem Params.GivesSort.unique {p : Params} {n : Nat} {s s' : Sorting} (h : p.GivesSort n s)
    (h' : p.GivesSort n s') : s = s' := by
  have name : s.name = s'.name := Option.some.inj (h.name.symm.trans h'.name)
  have token := Option.some.inj (h.direction.symm.trans h'.direction)
  cases s
  cases s'
  cases name
  cases Direction.token_inj token
  rfl

theorem Params.Means.unique {p : Params} {defaultSize : UInt64} {c c' : Criteria}
    (h : p.Means defaultSize c) (h' : p.Means defaultSize c') : c = c' := by
  have page : c.page = c'.page := h.page.trans h'.page.symm
  have size : c.size = c'.size := h.size.trans h'.size.symm
  have join : c.join = c'.join := h.join.trans h'.join.symm
  have counted : c.counted = c'.counted := h.counted.trans h'.counted.symm
  have clauses : c.clauses = c'.clauses :=
    h.clauses.unique (fun _ _ _ given given' => given.unique given') h'.clauses
  have sorts : c.sorts = c'.sorts :=
    h.sorts.unique (fun _ _ _ given given' => given.unique given') h'.sorts
  cases c
  cases c'
  cases page
  cases size
  cases join
  cases counted
  cases clauses
  cases sorts
  rfl

/-! ## Accepting -/

section Accepting

variable {p : Params} {defaultSize : UInt64}

theorem Params.toClause_gather_iff (n : Nat) (c : Clause) :
    (Partial.gather fun part => p.given (.slot (.clause n part))).toClause (clauseKey n) = .ok c ↔
      p.GivesClause n c := by
  rw [Partial.toClause_ok_iff]
  constructor
  · rintro ⟨name, token, values, takes⟩
    exact ⟨name, token, values, takes⟩
  · rintro ⟨name, token, values, takes⟩
    exact ⟨name, token, values, takes⟩

theorem Params.toSort_gather_iff (n : Nat) (s : Sorting) :
    (Partial.gather fun part => p.given (.slot (.sort n part))).toSort (sortKey n) = .ok s ↔
      p.GivesSort n s := by
  rw [Partial.toSort_ok_iff]
  constructor
  · rintro ⟨name, token⟩
    exact ⟨name, token⟩
  · rintro ⟨name, token⟩
    exact ⟨name, token⟩

/-- A draft becomes criteria exactly if what it tells is in range and complete. -/
theorem Draft.Tells.exists_finish_iff {d : Draft} (h : d.Tells p defaultSize) :
    (∃ c, d.finish = .ok c) ↔ p.page.toNat * (p.size defaultSize).toNat ≤ maxWord ∧
      (∀ n, p.MentionsClause n → ∃ c, p.GivesClause n c) ∧
      ∀ n, p.MentionsSort n → ∃ s, p.GivesSort n s := by
  have clauses : (∃ cs, (d.clauses.mapM fun e : Nat × Partial =>
      e.2.toClause (clauseKey e.1)) = .ok cs) ↔ ∀ n, p.MentionsClause n → ∃ c, p.GivesClause n c :=
    h.clauses.exists_mapM_iff Params.toClause_gather_iff
  have sorts : (∃ ss, (d.sorts.mapM fun e : Nat × Partial =>
      e.2.toSort (sortKey e.1)) = .ok ss) ↔ ∀ n, p.MentionsSort n → ∃ s, p.GivesSort n s :=
    h.sorts.exists_mapM_iff Params.toSort_gather_iff
  rw [← h.page, ← h.size]
  constructor
  · rintro ⟨c, done⟩
    obtain ⟨inside, readClauses, readSorts, _⟩ := Draft.finish_ok_iff.mp done
    exact ⟨inside, clauses.mp ⟨_, readClauses⟩, sorts.mp ⟨_, readSorts⟩⟩
  · rintro ⟨inside, eachClause, eachSort⟩
    obtain ⟨cs, readClauses⟩ := clauses.mpr eachClause
    obtain ⟨ss, readSorts⟩ := sorts.mpr eachSort
    exact ⟨⟨cs, d.join, ss, d.page, d.size, d.counted⟩,
      Draft.finish_ok_iff.mpr ⟨inside, readClauses, readSorts, rfl, rfl, rfl, rfl⟩⟩

theorem Draft.Tells.means {d : Draft} (h : d.Tells p defaultSize) {c : Criteria}
    (done : d.finish = .ok c) : p.Means defaultSize c := by
  obtain ⟨_, clauses, sorts, page, size, join, counted⟩ := Draft.finish_ok_iff.mp done
  constructor
  · exact page.trans h.page
  · exact size.trans h.size
  · exact join.trans h.join
  · exact counted.trans h.counted
  · exact h.clauses.listed Params.toClause_gather_iff clauses
  · exact h.sorts.listed Params.toSort_gather_iff sorts

theorem Criteria.exists_ofParams_iff :
    (∃ c, Criteria.ofParams p defaultSize = .ok c) ↔ p.Acceptable defaultSize := by
  constructor
  · rintro ⟨c, read⟩
    obtain ⟨d, run, done⟩ := Criteria.ofParams_ok read
    have values := (Draft.exists_foldlM_take_iff p defaultSize).mp ⟨d, run⟩
    obtain ⟨inside, clauses, sorts⟩ := (Draft.tells_of_foldlM run).exists_finish_iff.mp ⟨c, done⟩
    exact ⟨values, inside, clauses, sorts⟩
  · rintro ⟨values, inside, clauses, sorts⟩
    obtain ⟨d, run⟩ := (Draft.exists_foldlM_take_iff p defaultSize).mpr values
    obtain ⟨c, done⟩ := (Draft.tells_of_foldlM run).exists_finish_iff.mpr ⟨inside, clauses, sorts⟩
    refine ⟨c, ?_⟩
    rw [Criteria.ofParams, run]
    exact done

theorem Criteria.means_of_ofParams {c : Criteria} (h : Criteria.ofParams p defaultSize = .ok c) :
    p.Means defaultSize c := by
  obtain ⟨d, run, done⟩ := Criteria.ofParams_ok h
  exact (Draft.tells_of_foldlM run).means done

end Accepting

section Reordering

variable {p q : Params} (same : ∀ topic, q.given topic = p.given topic)
include same

theorem Params.mentionsClause_congr (n : Nat) : q.MentionsClause n ↔ p.MentionsClause n := by
  simp only [Params.MentionsClause, same]

theorem Params.mentionsSort_congr (n : Nat) : q.MentionsSort n ↔ p.MentionsSort n := by
  simp only [Params.MentionsSort, same]

theorem Params.givesClause_congr {n : Nat} {c : Clause} (h : p.GivesClause n c) :
    q.GivesClause n c := by
  obtain ⟨name, operator, values, takes⟩ := h
  constructor
  · rw [same, name]
  · rw [same, operator]
  · rw [same, values]
  · exact takes

theorem Params.givesSort_congr {n : Nat} {s : Sorting} (h : p.GivesSort n s) :
    q.GivesSort n s := by
  obtain ⟨name, direction⟩ := h
  constructor
  · rw [same, name]
  · rw [same, direction]

theorem Params.acceptable_congr {defaultSize : UInt64} (h : p.Acceptable defaultSize) :
    q.Acceptable defaultSize := by
  obtain ⟨values, inside, clauses, sorts⟩ := h
  constructor
  · intro topic v hv
    rw [same] at hv
    exact values topic v hv
  · rwa [Params.page, Params.size, same, same]
  · intro n mentioned
    obtain ⟨c, given⟩ := clauses n ((Params.mentionsClause_congr same n).mp mentioned)
    exact ⟨c, Params.givesClause_congr same given⟩
  · intro n mentioned
    obtain ⟨s, given⟩ := sorts n ((Params.mentionsSort_congr same n).mp mentioned)
    exact ⟨s, Params.givesSort_congr same given⟩

theorem Params.means_congr {defaultSize : UInt64} {c : Criteria} (h : p.Means defaultSize c) :
    q.Means defaultSize c := by
  obtain ⟨page, size, join, counted, ⟨ns, increasing, members, clauses⟩,
    ⟨ms, increasing', members', sorts⟩⟩ := h
  constructor
  · rw [page, Params.page, Params.page, same]
  · rw [size, Params.size, Params.size, same]
  · rw [join, Params.join, Params.join, same]
  · rw [counted, Params.counted, Params.counted, same]
  · refine ⟨ns, increasing, fun n => ?_, clauses.imp fun n c => Params.givesClause_congr same⟩
    exact (members n).trans (Params.mentionsClause_congr same n).symm
  · refine ⟨ms, increasing', fun n => ?_, sorts.imp fun n s => Params.givesSort_congr same⟩
    exact (members' n).trans (Params.mentionsSort_congr same n).symm

end Reordering

/-- Neighbours of different topics may change places, and so may those of no topic with any. -/
theorem Params.given_swap (front back : List (String × String)) {x y : String × String}
    (apart : topic? x.1 ≠ topic? y.1) (topic : Topic) :
    (Params.mk (front ++ y :: x :: back)).given topic =
      (Params.mk (front ++ x :: y :: back)).given topic := by
  simp only [Params.given, List.filter_append, List.map_append, List.filter_cons]
  by_cases first : topic? x.1 = some topic
  · have second : topic? y.1 ≠ some topic := fun both => apart (first.trans both.symm)
    simp [first, second]
  · simp [first]

theorem Criteria.ofParams_ok_iff {p : Params} {defaultSize : UInt64} {c : Criteria} :
    Criteria.ofParams p defaultSize = .ok c ↔ p.Acceptable defaultSize ∧ p.Means defaultSize c := by
  constructor
  · intro read
    exact ⟨Criteria.exists_ofParams_iff.mp ⟨c, read⟩, Criteria.means_of_ofParams read⟩
  · rintro ⟨acceptable, means⟩
    obtain ⟨c', read⟩ := Criteria.exists_ofParams_iff.mpr acceptable
    rw [read, (Criteria.means_of_ofParams read).unique means]

/-- Parameters are read exactly if they are acceptable, and what is read is what they mean. Nothing
matters of them but the values that each topic is given, in their order: parameters of different
topics may change places, and keys of no topic may come and go. -/
theorem Criteria.ofParams_accepts (p : Params) (defaultSize : UInt64) :
    ((∃ c, Criteria.ofParams p defaultSize = .ok c) ↔ p.Acceptable defaultSize) ∧
    (∀ c, Criteria.ofParams p defaultSize = .ok c → p.Means defaultSize c) ∧
    (∀ q : Params, (∀ topic, q.given topic = p.given topic) → ∀ c,
      Criteria.ofParams q defaultSize = .ok c ↔ Criteria.ofParams p defaultSize = .ok c) ∧
    ∀ key topic, topic? key = some topic ↔ Spells key topic := by
  refine ⟨Criteria.exists_ofParams_iff, fun _ => Criteria.means_of_ofParams, ?_,
    fun _ _ => topic?_eq_some_iff⟩
  intro q same c
  rw [Criteria.ofParams_ok_iff, Criteria.ofParams_ok_iff]
  constructor
  · rintro ⟨acceptable, means⟩
    have back : ∀ topic, p.given topic = q.given topic := fun topic => (same topic).symm
    exact ⟨Params.acceptable_congr back acceptable, Params.means_congr back means⟩
  · rintro ⟨acceptable, means⟩
    exact ⟨Params.acceptable_congr same acceptable, Params.means_congr same means⟩

/-- The second of two names counts, the numbers of clauses leave a gap, and the parts of the two
clauses and a key of no meaning come between each other. -/
def interleaved : List (String × String) :=
  [("whereClauses[007].oper", "gte"), ("whereClauses[2].name", "city"), ("pageSize", "+5"),
    ("whereClauses[2].values", "Rome"), ("whereClauses[7].values", "18"), ("lang", "en"),
    ("whereClauses[2].oper", "in"), ("whereClauses[2].name", "town")]

theorem ofParams_accepts_interleaved :
    Params.Means
        ⟨("whereClauses[2].values", "Bari") :: ("whereClauses[7].name", "age") :: interleaved⟩ 20
      ⟨[⟨"town", .oneOf, [.text "Bari", .text "Rome"]⟩, ⟨"age", .atLeast, [.text "18"]⟩],
        .all, [], 0, 5, false⟩ ∧
    Criteria.ofParams
        ⟨("whereClauses[7].name", "age") :: ("whereClauses[2].values", "Bari") :: interleaved⟩ 20 =
      .ok ⟨[⟨"town", .oneOf, [.text "Bari", .text "Rome"]⟩, ⟨"age", .atLeast, [.text "18"]⟩],
        .all, [], 0, 5, false⟩ := by
  have read : Criteria.ofParams
      ⟨("whereClauses[2].values", "Bari") :: ("whereClauses[7].name", "age") :: interleaved⟩ 20 =
      .ok ⟨[⟨"town", .oneOf, [.text "Bari", .text "Rome"]⟩, ⟨"age", .atLeast, [.text "18"]⟩],
        .all, [], 0, 5, false⟩ := by rfl
  obtain ⟨_, means, reordered, _⟩ := Criteria.ofParams_accepts
    ⟨("whereClauses[2].values", "Bari") :: ("whereClauses[7].name", "age") :: interleaved⟩ 20
  have apart : topic? "whereClauses[2].values" ≠ topic? "whereClauses[7].name" := by decide
  exact ⟨means _ read, (reordered _ (Params.given_swap [] interleaved apart) _).mpr read⟩

end BackOffice.Query
