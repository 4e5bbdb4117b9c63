import BackOffice.Proofs.Number.Numeral
import BackOffice.Proofs.Reading
import BackOffice.Query.Params
import Mathlib.Data.List.Perm.Subperm

/-!
# Criteria read back from their parameters

Writing criteria as parameters and reading these again gives the criteria, except that every value
has become the text in which it travelled. In the other direction, whatever criteria can be read
from parameters at all, from those or from any other ones, are a fixed point of writing and reading:
their values are texts already.

Clauses and sorts are numbered from zero, so on the way back each finds its slot behind all earlier
ones. The only fault that remains is a page out of range, since nothing on the writing side looks
at the product of page and size.
-/
namespace BackOffice.Query

open BackOffice.Field

/-! ## Tokens -/

theorem Operator.ofToken?_token (op : Operator) : Operator.ofToken? op.token = some op := by
  cases op <;> rfl

theorem Join.ofToken?_token (j : Join) : Join.ofToken? j.token = some j := by
  cases j <;> rfl

theorem Direction.ofToken?_token (d : Direction) : Direction.ofToken? d.token = some d := by
  cases d <;> rfl

theorem bool?_boolText (b : Bool) : Value.bool? (Value.boolText b) = some b := by
  cases b <;> rfl

/-! ## Keys -/

theorem afterLead?_append (lead : String) (cs : List Char) :
    afterLead? lead (lead.toList ++ cs) = some cs := by
  have starts : lead.toList.isPrefixOf (lead.toList ++ cs) = true := by
    rw [List.isPrefixOf_iff_prefix]
    exact List.prefix_append _ _
  rw [afterLead?, if_pos starts, ← String.length_toList, List.drop_left]

theorem indexed?_digits {i : Nat} (h : i < 2 ^ 64) (word : List Char) :
    indexed? (Numeral.digits i ++ ']' :: '.' :: word) = some (i, String.ofList word) := by
  have cut : (Numeral.digits i ++ ']' :: '.' :: word).span Numeral.isDigit =
      (Numeral.digits i, ']' :: '.' :: word) := by
    apply Numeral.span_isDigit_append
    · intro c hc
      exact Numeral.isDigit_of_mem_digits hc
    · rintro c ⟨⟩
      decide
  simp only [indexed?, cut, Numeral.ofDigits?_digits, if_pos h]

/-- A key of a clause, whose word stands behind a point, names the slot of that word. -/
theorem slot?_clauseKey {i : Nat} (h : i < 2 ^ 64) {dotted : String} (word : String)
    (behind : dotted.toList = '.' :: word.toList) :
    slot? (clauseKey i ++ dotted) = (clausePart? word).map (.clause i) := by
  have shape : (clauseKey i ++ dotted).toList =
      "whereClauses[".toList ++ (Numeral.digits i ++ ']' :: '.' :: word.toList) := by
    simp [clauseKey, Numeral.text, String.toList_append, behind]
  have index := indexed?_digits h word.toList
  rw [String.ofList_toList] at index
  simp only [slot?, shape, afterLead?_append, index, Option.bind_some]

theorem slot?_sortKey {i : Nat} (h : i < 2 ^ 64) {dotted : String} (word : String)
    (behind : dotted.toList = '.' :: word.toList) :
    slot? (sortKey i ++ dotted) = (sortPart? word).map (.sort i) := by
  have shape : (sortKey i ++ dotted).toList =
      "sortByClauses[".toList ++ (Numeral.digits i ++ ']' :: '.' :: word.toList) := by
    simp [sortKey, Numeral.text, String.toList_append, behind]
  have other : afterLead? "whereClauses["
      ("sortByClauses[".toList ++ (Numeral.digits i ++ ']' :: '.' :: word.toList)) = none := rfl
  have index := indexed?_digits h word.toList
  rw [String.ofList_toList] at index
  simp only [slot?, shape, other, afterLead?_append, index, Option.bind_some]

/-- The indices of slots are machine words. -/
theorem index_lt_of_indexed? {cs : List Char} {i : Nat} {word : String}
    (h : indexed? cs = some (i, word)) : i < 2 ^ 64 := by
  simp only [indexed?] at h
  split at h
  · split at h
    · next bound =>
      cases h
      exact bound
    · cases h
  · cases h

def Slot.index : Slot → Nat
  | clause n _ => n
  | sort n _ => n

theorem index_lt_of_slot? {key : String} {slot : Slot} (h : slot? key = some slot) :
    slot.index < 2 ^ 64 := by
  simp only [slot?] at h
  split at h
  · obtain ⟨⟨n, word⟩, index, part⟩ := Option.bind_eq_some_iff.mp h
    obtain ⟨_, _, rfl⟩ := Option.map_eq_some_iff.mp part
    exact index_lt_of_indexed? index
  · obtain ⟨⟨n, word⟩, index, part⟩ := Option.bind_eq_some_iff.mp h
    obtain ⟨_, _, rfl⟩ := Option.map_eq_some_iff.mp part
    exact index_lt_of_indexed? index
  · cases h

/-! ## Slots -/

/-- Everything in the slots stands before an index. -/
def Slots.Below (n : Nat) (s : Slots) : Prop := ∀ e ∈ s, e.1 < n

/-- The slots are in increasing order, and their indices are machine words. -/
structure Slots.Ordered (s : Slots) : Prop where
  increasing : s.Pairwise (·.1 < ·.1)
  bounded : s.Below (2 ^ 64)

theorem Slots.set_of_below {n : Nat} {s : Slots} (h : s.Below n) (part : Part) (value : String) :
    s.set n part value = s ++ [(n, Partial.empty.set part value)] := by
  induction s with
  | nil => rfl
  | cons e rest ih =>
    have first : e.1 < n := h e List.mem_cons_self
    have others : Slots.Below n rest := fun e he => h e (List.mem_cons_of_mem _ he)
    rw [Slots.set, if_neg (by omega), if_neg (by omega), ih others, List.cons_append]

theorem Slots.set_last {n : Nat} {s : Slots} (h : s.Below n) (p : Partial) (part : Part)
    (value : String) :
    Slots.set n part value (s ++ [(n, p)]) = s ++ [(n, p.set part value)] := by
  induction s with
  | nil => simp [Slots.set]
  | cons e rest ih =>
    have first : e.1 < n := h e List.mem_cons_self
    have others : Slots.Below n rest := fun e he => h e (List.mem_cons_of_mem _ he)
    rw [List.cons_append, Slots.set, if_neg (by omega), if_neg (by omega), ih others,
      List.cons_append]

theorem Slots.fst_mem_set {n : Nat} {s : Slots} {part : Part} {value : String}
    {e : Nat × Partial} (h : e ∈ s.set n part value) : e.1 = n ∨ ∃ e' ∈ s, e'.1 = e.1 := by
  induction s with
  | nil =>
    rw [Slots.set, List.mem_singleton] at h
    exact .inl (h ▸ rfl)
  | cons head rest ih =>
    rw [Slots.set] at h
    split at h
    · rcases List.mem_cons.mp h with rfl | old
      · exact .inl rfl
      · exact .inr ⟨e, old, rfl⟩
    · split at h
      · next same =>
        rcases List.mem_cons.mp h with rfl | old
        · exact .inl same.symm
        · exact .inr ⟨e, List.mem_cons_of_mem _ old, rfl⟩
      · rcases List.mem_cons.mp h with rfl | later
        · exact .inr ⟨_, List.mem_cons_self, rfl⟩
        · rcases ih later with new | ⟨e', old, same⟩
          · exact .inl new
          · exact .inr ⟨e', List.mem_cons_of_mem _ old, same⟩

theorem Slots.Ordered.set {n : Nat} {s : Slots} (h : s.Ordered) (bound : n < 2 ^ 64)
    (part : Part) (value : String) : (s.set n part value).Ordered := by
  constructor
  · have increasing := h.increasing
    clear h
    induction s with
    | nil => exact List.pairwise_singleton _ _
    | cons head rest ih =>
      obtain ⟨first, others⟩ := List.pairwise_cons.mp increasing
      rw [Slots.set]
      split
      · next before =>
        refine List.pairwise_cons.mpr ⟨?_, increasing⟩
        intro e he
        rcases List.mem_cons.mp he with rfl | later
        · exact before
        · exact Nat.lt_trans before (first e later)
      · next notBefore =>
        split
        · exact List.pairwise_cons.mpr ⟨first, others⟩
        · next other =>
          refine List.pairwise_cons.mpr ⟨?_, ih others⟩
          intro e he
          rcases Slots.fst_mem_set he with same | ⟨e', old, same⟩
          · show head.1 < e.1
            omega
          · have := first e' old
            show head.1 < e.1
            omega
  · intro e he
    rcases Slots.fst_mem_set he with same | ⟨e', old, same⟩
    · omega
    · have := h.bounded e' old
      omega

/-- No more slots than machine words. -/
theorem Slots.Ordered.length_le {s : Slots} (h : s.Ordered) : s.length ≤ 2 ^ 64 := by
  have distinct : (s.map (·.1)).Nodup := by
    rw [List.nodup_iff_pairwise_ne, List.pairwise_map]
    exact h.increasing.imp fun less => Nat.ne_of_lt less
  have within : s.map (·.1) ⊆ List.range (2 ^ 64) := by
    intro n hn
    obtain ⟨e, he, rfl⟩ := List.mem_map.mp hn
    exact List.mem_range.mpr (h.bounded e he)
  have shorter := (distinct.subperm within).length_le
  rwa [List.length_map, List.length_range] at shorter

/-! ## Taking parameters in -/

/-- The draft after a parameter whose key names a slot. -/
def Draft.put (d : Draft) (slot : Slot) (value : String) : Draft :=
  match slot with
  | .clause n part => { d with clauses := d.clauses.set n part value }
  | .sort n part => { d with sorts := d.sorts.set n part value }

theorem Draft.take_of_slot? (d : Draft) {key : String} {slot : Slot} (h : slot? key = some slot)
    (value : String) : d.take (key, value) = .ok (d.put slot value) := by
  -- The four keys with a meaning of their own name no slot.
  have page : key ≠ "pageIndex" := by rintro rfl; cases h
  have size : key ≠ "pageSize" := by rintro rfl; cases h
  have join : key ≠ "whereClauseJoinOp" := by rintro rfl; cases h
  have counted : key ≠ "calculateStatTotal" := by rintro rfl; cases h
  simp only [Draft.take, if_neg page, if_neg size, if_neg join, if_neg counted, h]
  cases slot <;> rfl

def Clause.parts (c : Clause) : Partial :=
  ⟨some c.name, some c.operator.token, c.values.map Value.wire⟩

def Sorting.parts (s : Sorting) : Partial := ⟨some s.name, some s.direction.token, []⟩

/-- The slots of parts that are numbered from `start`. -/
def Slots.from {α : Type} (parts : α → Partial) (start : Nat) : List α → Slots
  | [] => []
  | a :: rest => (start, parts a) :: Slots.from parts (start + 1) rest

theorem Slots.Below.snoc {n : Nat} {s : Slots} (h : s.Below n) (p : Partial) :
    Slots.Below (n + 1) (s ++ [(n, p)]) := by
  intro e he
  rcases List.mem_append.mp he with old | new
  · have := h e old
    omega
  · rw [List.mem_singleton.mp new]
    exact Nat.lt_succ_self n

/-- Numbered parts fill one slot each, if that is what the pairs of one part do. -/
theorem foldlM_take_numbered {α : Type} {pairs : Nat → α → List (String × String)}
    {parts : α → Partial} {draft : Slots → Draft}
    (one : ∀ i a s, i < 2 ^ 64 → Slots.Below i s →
      (pairs i a).foldlM Draft.take (draft s) = .ok (draft (s ++ [(i, parts a)])))
    (as : List α) (start : Nat) (s : Slots) (bound : start + as.length ≤ 2 ^ 64)
    (below : s.Below start) :
    (numbered pairs start as).foldlM Draft.take (draft s) =
      .ok (draft (s ++ Slots.from parts start as)) := by
  induction as generalizing start s with
  | nil => simp [numbered, Slots.from]; rfl
  | cons a rest ih =>
    rw [List.length_cons] at bound
    have first := one start a s (by omega) below
    have others := ih (start + 1) _ (by omega) (below.snoc (parts a))
    rw [List.append_assoc] at others
    rw [numbered, foldlM_append_of_ok first, others, Slots.from]
    rfl

theorem Draft.take_page (d : Draft) (page : UInt64) :
    d.take ("pageIndex", Numeral.text page.toNat) = .ok { d with page } := by
  simp only [Draft.take, number?, Numeral.word?_text]
  rfl

theorem Draft.take_size (d : Draft) {size : UInt64} (some : size ≠ 0) :
    d.take ("pageSize", Numeral.text size.toNat) = .ok { d with size } := by
  have other : "pageSize" ≠ "pageIndex" := by decide
  simp only [Draft.take, number?, Numeral.word?_text, if_neg other, if_pos]
  show (if size = 0 then _ else _) = _
  rw [if_neg some]
  rfl

theorem Draft.take_join (d : Draft) (join : Join) :
    d.take ("whereClauseJoinOp", join.token) = .ok { d with join } := by
  simp [Draft.take, Join.ofToken?_token]

theorem Draft.take_counted (d : Draft) (counted : Bool) :
    d.take ("calculateStatTotal", Value.boolText counted) = .ok { d with counted } := by
  simp [Draft.take, bool?_boolText]

theorem foldlM_take_values (d : Draft) {i : Nat} (bound : i < 2 ^ 64) {s : Slots}
    (below : s.Below i) (values : List Value) (p : Partial) :
    (values.map fun v => (clauseKey i ++ ".values", v.wire)).foldlM Draft.take
        { d with clauses := s ++ [(i, p)] } =
      .ok { d with
        clauses := s ++ [(i, { p with values := p.values ++ values.map Value.wire })] } := by
  induction values generalizing p with
  | nil => simp; rfl
  | cons v rest ih =>
    have slot : slot? (clauseKey i ++ ".values") = some (.clause i .value) :=
      slot?_clauseKey bound "values" rfl
    have first := Draft.take_of_slot? { d with clauses := s ++ [(i, p)] } slot v.wire
    simp only [Draft.put, Slots.set_last below] at first
    have others := ih (p.set .value v.wire)
    simp only [Partial.set, List.append_assoc, List.singleton_append] at others first
    rw [List.map_cons, foldlM_cons_of_ok first, others, List.map_cons]

theorem foldlM_take_clausePairs (d : Draft) (i : Nat) (c : Clause) (s : Slots)
    (bound : i < 2 ^ 64) (below : s.Below i) :
    (clausePairs i c).foldlM Draft.take { d with clauses := s } =
      .ok { d with clauses := s ++ [(i, c.parts)] } := by
  have name : slot? (clauseKey i ++ ".name") = some (.clause i .name) :=
    slot?_clauseKey bound "name" rfl
  have token : slot? (clauseKey i ++ ".oper") = some (.clause i .token) :=
    slot?_clauseKey bound "oper" rfl
  have first := Draft.take_of_slot? { d with clauses := s } name c.name
  have second := Draft.take_of_slot?
    { d with clauses := s ++ [(i, Partial.empty.set .name c.name)] } token c.operator.token
  have values := foldlM_take_values d bound below c.values
    ((Partial.empty.set .name c.name).set .token c.operator.token)
  simp only [Draft.put, Slots.set_of_below below] at first
  simp only [Draft.put, Slots.set_last below] at second
  rw [clausePairs, foldlM_cons_of_ok first, foldlM_cons_of_ok second]
  exact values

theorem foldlM_take_sortPairs (d : Draft) (i : Nat) (x : Sorting) (s : Slots)
    (bound : i < 2 ^ 64) (below : s.Below i) :
    (sortPairs i x).foldlM Draft.take { d with sorts := s } =
      .ok { d with sorts := s ++ [(i, x.parts)] } := by
  have name : slot? (sortKey i ++ ".name") = some (.sort i .name) :=
    slot?_sortKey bound "name" rfl
  have token : slot? (sortKey i ++ ".type") = some (.sort i .token) :=
    slot?_sortKey bound "type" rfl
  have first := Draft.take_of_slot? { d with sorts := s } name x.name
  have second := Draft.take_of_slot?
    { d with sorts := s ++ [(i, Partial.empty.set .name x.name)] } token x.direction.token
  simp only [Draft.put, Slots.set_of_below below] at first
  simp only [Draft.put, Slots.set_last below] at second
  rw [sortPairs, foldlM_cons_of_ok first, foldlM_cons_of_ok second]
  rfl

/-! ## Writing and reading -/

/-- The clause as it is known from parameters: its values are the texts they travel in. -/
def Clause.asText (c : Clause) : Clause :=
  { c with values := c.values.map fun v => .text v.wire }

def Criteria.asText (c : Criteria) : Criteria := { c with clauses := c.clauses.map Clause.asText }

/-- Criteria that can be written: every clause has as many values as its operator takes, a page
holds something, and the numbers of clauses and sorts are machine words. -/
structure Criteria.WellFormed (c : Criteria) : Prop where
  clauses : ∀ clause ∈ c.clauses, clause.WellFormed
  size : c.size ≠ 0
  clauses_le : c.clauses.length ≤ 2 ^ 64
  sorts_le : c.sorts.length ≤ 2 ^ 64

/-- The draft once all parameters of some criteria are taken in. -/
def Criteria.draft (c : Criteria) : Draft :=
  ⟨c.page, c.size, c.join, c.counted, Slots.from Clause.parts 0 c.clauses,
    Slots.from Sorting.parts 0 c.sorts⟩

theorem foldlM_take_toParams {c : Criteria} (w : c.WellFormed) (defaultSize : UInt64) :
    c.toParams.pairs.foldlM Draft.take (Draft.start defaultSize) = .ok c.draft := by
  have none : Slots.Below 0 [] := fun _ he => nomatch he
  have clauses := foldlM_take_numbered
    (foldlM_take_clausePairs ⟨c.page, c.size, c.join, false, [], []⟩) c.clauses 0 []
    (by have := w.clauses_le; omega) none
  have sorts := foldlM_take_numbered
    (foldlM_take_sortPairs
      ⟨c.page, c.size, c.join, false, Slots.from Clause.parts 0 c.clauses, []⟩)
    c.sorts 0 [] (by have := w.sorts_le; omega) none
  simp only [List.nil_append] at clauses sorts
  rw [Criteria.toParams]
  simp only [List.append_assoc, List.cons_append, List.nil_append]
  rw [foldlM_cons_of_ok (Draft.take_page _ c.page), foldlM_cons_of_ok (Draft.take_size _ w.size),
    foldlM_cons_of_ok (Draft.take_join _ c.join), Draft.start, foldlM_append_of_ok clauses,
    foldlM_append_of_ok sorts, foldlM_cons_of_ok (Draft.take_counted _ c.counted)]
  rfl

theorem Clause.make_asText {c : Clause} (w : c.WellFormed) :
    Clause.make c.name c.operator ((c.values.map Value.wire).map Value.text) = .ok c.asText := by
  have takes : c.operator.takes c.values.length = true := w
  rw [Clause.make, List.map_map, List.length_map, if_pos takes]
  rfl

theorem Clause.toClause_parts {c : Clause} (w : c.WellFormed) (key : String) :
    c.parts.toClause key = .ok c.asText := by
  simp only [Clause.parts, Partial.toClause, Operator.ofToken?_token]
  exact Clause.make_asText w

theorem Sorting.toSort_parts (s : Sorting) (key : String) : s.parts.toSort key = .ok s := by
  simp only [Sorting.parts, Partial.toSort, Direction.ofToken?_token]

theorem mapM_from {α β : Type} {parts : α → Partial} {read : Nat × Partial → Except Fault β}
    {made : α → β} {as : List α} (reads : ∀ a ∈ as, ∀ n, read (n, parts a) = .ok (made a))
    (start : Nat) : (Slots.from parts start as).mapM read = .ok (as.map made) := by
  induction as generalizing start with
  | nil => rfl
  | cons a rest ih =>
    have first := reads a List.mem_cons_self start
    have others := ih (fun b hb => reads b (List.mem_cons_of_mem _ hb)) (start + 1)
    rw [Slots.from, List.mapM_cons, first, List.map_cons]
    show (Slots.from parts (start + 1) rest).mapM read >>= _ = _
    rw [others]
    rfl

theorem Draft.finish_eq (d : Draft) : d.finish =
    if maxWord < d.page.toNat * d.size.toNat then .error (.pageOutOfRange d.page d.size)
    else (d.clauses.mapM fun e : Nat × Partial => e.2.toClause (clauseKey e.1)).bind fun clauses =>
      (d.sorts.mapM fun e : Nat × Partial => e.2.toSort (sortKey e.1)).bind fun sorts =>
        .ok ⟨clauses, d.join, sorts, d.page, d.size, d.counted⟩ := rfl

/-- A draft becomes criteria if its page lies in range and each slot becomes a clause or a sort. -/
theorem Draft.finish_ok_iff {d : Draft} {c : Criteria} :
    d.finish = .ok c ↔ d.page.toNat * d.size.toNat ≤ maxWord ∧
      (d.clauses.mapM fun e : Nat × Partial => e.2.toClause (clauseKey e.1)) = .ok c.clauses ∧
      (d.sorts.mapM fun e : Nat × Partial => e.2.toSort (sortKey e.1)) = .ok c.sorts ∧
      c.page = d.page ∧ c.size = d.size ∧ c.join = d.join ∧ c.counted = d.counted := by
  rw [Draft.finish_eq]
  split
  · next outside =>
    exact iff_of_false nofun fun h => absurd outside (Nat.not_lt.mpr h.1)
  · next inside =>
    constructor
    · intro h
      obtain ⟨clauses, readClauses, h⟩ := bind_ok_iff.mp h
      obtain ⟨sorts, readSorts, h⟩ := bind_ok_iff.mp h
      cases h
      exact ⟨Nat.not_lt.mp inside, readClauses, readSorts, rfl, rfl, rfl, rfl⟩
    · rintro ⟨_, clauses, sorts, page, size, join, counted⟩
      rw [clauses, sorts, ← page, ← size, ← join, ← counted]
      rfl

theorem Criteria.finish_draft {c : Criteria} (w : c.WellFormed) :
    c.draft.finish = if maxWord < c.page.toNat * c.size.toNat
      then .error (.pageOutOfRange c.page c.size) else .ok c.asText := by
  have clauses : (Slots.from Clause.parts 0 c.clauses).mapM
      (fun e : Nat × Partial => e.2.toClause (clauseKey e.1)) = .ok (c.clauses.map Clause.asText) :=
    mapM_from (fun clause hc n => Clause.toClause_parts (w.clauses clause hc) (clauseKey n)) 0
  have sorts : (Slots.from Sorting.parts 0 c.sorts).mapM
      (fun e : Nat × Partial => e.2.toSort (sortKey e.1)) = .ok (c.sorts.map id) :=
    mapM_from (fun s _ n => s.toSort_parts (sortKey n)) 0
  rw [List.map_id] at sorts
  simp only [Draft.finish_eq, Criteria.draft, clauses, sorts]
  split <;> rfl

/-- What the parameters of some criteria are read as. -/
theorem Criteria.ofParams_toParams_eq {c : Criteria} (w : c.WellFormed) (defaultSize : UInt64) :
    Criteria.ofParams c.toParams defaultSize = if maxWord < c.page.toNat * c.size.toNat
      then .error (.pageOutOfRange c.page c.size) else .ok c.asText := by
  rw [Criteria.ofParams, foldlM_take_toParams w]
  exact c.finish_draft w

theorem clausePairs_asText (i : Nat) (c : Clause) : clausePairs i c.asText = clausePairs i c := by
  simp [clausePairs, Clause.asText, Value.wire]

theorem numbered_map {α β : Type} {pairs : Nat → β → List (String × String)}
    {pairs' : Nat → α → List (String × String)} {f : α → β}
    (same : ∀ i a, pairs i (f a) = pairs' i a) (as : List α) (start : Nat) :
    numbered pairs start (as.map f) = numbered pairs' start as := by
  induction as generalizing start with
  | nil => rfl
  | cons a rest ih => rw [List.map_cons, numbered, numbered, same, ih]

/-- Texts travel as they are. -/
theorem Criteria.toParams_asText (c : Criteria) : c.asText.toParams = c.toParams := by
  simp only [Criteria.toParams, Criteria.asText, numbered_map clausePairs_asText]

/-! ## Reading at all -/

/-- All that one parameter can do to a draft. -/
theorem Draft.take_cases {d d' : Draft} {key value : String} (h : d.take (key, value) = .ok d') :
    (∃ page, d' = { d with page }) ∨ (∃ size, size ≠ 0 ∧ d' = { d with size }) ∨
      (∃ join, d' = { d with join }) ∨ (∃ counted, d' = { d with counted }) ∨
      (∃ slot, slot? key = some slot ∧ d' = d.put slot value) ∨ d' = d := by
  simp only [Draft.take] at h
  split at h
  · obtain ⟨page, _, h⟩ := bind_ok_iff.mp h
    cases h
    exact .inl ⟨page, rfl⟩
  split at h
  · obtain ⟨size, _, h⟩ := bind_ok_iff.mp h
    by_cases none : size = 0
    · subst none
      cases h
    · change (if size = 0 then _ else _) = _ at h
      rw [if_neg none] at h
      cases h
      exact .inr (.inl ⟨size, none, rfl⟩)
  split at h
  · split at h
    · cases h
      exact .inr (.inr (.inl ⟨_, rfl⟩))
    · cases h
  split at h
  · split at h
    · cases h
      exact .inr (.inr (.inr (.inl ⟨_, rfl⟩)))
    · cases h
  split at h
  · next slot =>
    cases h
    exact .inr (.inr (.inr (.inr (.inl ⟨_, slot, rfl⟩))))
  · next slot =>
    cases h
    exact .inr (.inr (.inr (.inr (.inl ⟨_, slot, rfl⟩))))
  · cases h
    exact .inr (.inr (.inr (.inr (.inr rfl))))

/-- What holds of every draft that parameters leave behind. -/
structure Draft.Sound (d : Draft) : Prop where
  size : d.size ≠ 0
  clauses : d.clauses.Ordered
  sorts : d.sorts.Ordered

theorem Draft.sound_start (defaultSize : UInt64) : (Draft.start defaultSize).Sound := by
  have ordered : Slots.Ordered [] := ⟨List.Pairwise.nil, fun _ he => nomatch he⟩
  refine ⟨?_, ordered, ordered⟩
  show Criteria.atLeastOne defaultSize ≠ 0
  rw [Criteria.atLeastOne]
  split
  · decide
  · next other => exact other

theorem Draft.Sound.take {d d' : Draft} {pair : String × String} (h : d.Sound)
    (run : d.take pair = .ok d') : d'.Sound := by
  obtain ⟨_, rfl⟩ | ⟨_, some, rfl⟩ | ⟨_, rfl⟩ | ⟨_, rfl⟩ | ⟨slot, key, rfl⟩ | rfl :=
    Draft.take_cases run
  · exact ⟨h.size, h.clauses, h.sorts⟩
  · exact ⟨some, h.clauses, h.sorts⟩
  · exact ⟨h.size, h.clauses, h.sorts⟩
  · exact ⟨h.size, h.clauses, h.sorts⟩
  · have bound := index_lt_of_slot? key
    cases slot with
    | clause n part => exact ⟨h.size, h.clauses.set bound part _, h.sorts⟩
    | sort n part => exact ⟨h.size, h.clauses, h.sorts.set bound part _⟩
  · exact h

/-- Clauses that are read have texts for values, as many as their operators take. -/
theorem Partial.toClause_cases {p : Partial} {key : String} {c : Clause}
    (h : p.toClause key = .ok c) : c.WellFormed ∧ c.asText = c := by
  simp only [Partial.toClause] at h
  split at h
  · split at h
    · simp only [Clause.make] at h
      split at h
      · next takes =>
        cases h
        refine ⟨takes, ?_⟩
        simp [Clause.asText, Value.wire, Function.comp_def]
      · cases h
    · cases h
  · cases h

theorem Criteria.ofParams_ok {p : Params} {defaultSize : UInt64} {c : Criteria}
    (h : Criteria.ofParams p defaultSize = .ok c) :
    ∃ d, p.pairs.foldlM Draft.take (Draft.start defaultSize) = .ok d ∧ d.finish = .ok c :=
  bind_ok_iff.mp h

/-- Criteria that can be read at all can be written again, their page is in range and their values
are texts. -/
theorem Criteria.of_ofParams {p : Params} {defaultSize : UInt64} {c : Criteria}
    (h : Criteria.ofParams p defaultSize = .ok c) :
    c.WellFormed ∧ c.page.toNat * c.size.toNat ≤ maxWord ∧ c.asText = c := by
  obtain ⟨d, run, done⟩ := Criteria.ofParams_ok h
  have sound : d.Sound :=
    foldlM_preserves (fun _ _ _ held step => held.take step) (Draft.sound_start defaultSize) run
  obtain ⟨inside, clauses, sorts, page, size, _⟩ := Draft.finish_ok_iff.mp done
  have clauses := mapM_ok_iff.mp clauses
  have sorts := mapM_ok_iff.mp sorts
  have read : ∀ clause ∈ c.clauses, clause.WellFormed ∧ clause.asText = clause := by
    intro clause hc
    obtain ⟨_, _, part⟩ := exists_of_forall₂ clauses hc
    exact Partial.toClause_cases part
  refine ⟨⟨fun clause hc => (read clause hc).1, ?_, ?_, ?_⟩, ?_, ?_⟩
  · rw [size]
    exact sound.size
  · rw [← clauses.length_eq]
    exact sound.clauses.length_le
  · rw [← sorts.length_eq]
    exact sound.sorts.length_le
  · rw [page, size]
    exact inside
  · have same : c.clauses.map Clause.asText = c.clauses :=
      (List.map_congr_left fun clause hc => (read clause hc).2).trans (List.map_id _)
    rw [Criteria.asText, same]

/-- Criteria that are written and read come back with texts for values, and these are written as the
criteria were, or the fault is a page out of range. Criteria that were read, from whatever
parameters and with whatever size by default, come back as they are. -/
theorem Criteria.ofParams_toParams :
    (∀ (c : Criteria) (defaultSize : UInt64), c.WellFormed →
      (c.page.toNat * c.size.toNat ≤ maxWord →
        Criteria.ofParams c.toParams defaultSize = .ok c.asText ∧
          c.asText.toParams = c.toParams) ∧
      (maxWord < c.page.toNat * c.size.toNat →
        Criteria.ofParams c.toParams defaultSize = .error (.pageOutOfRange c.page c.size))) ∧
    ∀ (p : Params) (defaultSize : UInt64) (c : Criteria),
      Criteria.ofParams p defaultSize = .ok c →
        Criteria.ofParams c.toParams standardSize = .ok c := by
  refine ⟨?_, ?_⟩
  · intro c defaultSize w
    rw [Criteria.ofParams_toParams_eq w]
    refine ⟨fun inside => ⟨if_neg (Nat.not_lt.mpr inside), c.toParams_asText⟩, ?_⟩
    intro outside
    exact if_pos outside
  · intro p defaultSize c read
    obtain ⟨w, inside, texts⟩ := Criteria.of_ofParams read
    rw [Criteria.ofParams_toParams_eq w, if_neg (Nat.not_lt.mpr inside), texts]

/-- Two clauses, one of them over a field whose name looks like a key. -/
def adultsByAge (page : UInt64) : Criteria :=
  ⟨[⟨"age", .between, [.int 18, .float .infinity]⟩, ⟨"whereClauses[0].name", .like, [.text "AND"]⟩],
    .any, [⟨"age", .descending⟩], page, 16, true⟩

theorem wellFormed_adultsByAge (page : UInt64) : (adultsByAge page).WellFormed := by
  have some : (16 : UInt64) ≠ 0 := by decide
  have two : 2 ≤ 2 ^ 64 := by decide
  have one : 1 ≤ 2 ^ 64 := by decide
  refine ⟨?_, some, two, one⟩
  intro clause hc
  rcases List.mem_cons.mp hc with rfl | hc
  · rfl
  · rcases List.mem_cons.mp hc with rfl | hc
    · rfl
    · cases hc

/-- The same parts in another order, under indices with gaps, and a key of no meaning. -/
def scattered : Params :=
  ⟨[("whereClauses[9].values", "18"), ("sortByClauses[07].type", "desc"), ("lang", "en"),
    ("sortByClauses[7].name", "age"), ("whereClauses[9].oper", "gte"),
    ("whereClauses[9].name", "age")]⟩

theorem ofParams_toParams_adultsByAge :
    (Criteria.ofParams (adultsByAge 3).toParams 5 = .ok (adultsByAge 3).asText ∧
      (adultsByAge 3).asText.toParams = (adultsByAge 3).toParams) ∧
    Criteria.ofParams (adultsByAge 1152921504606846976).toParams 5 =
      .error (.pageOutOfRange 1152921504606846976 16) ∧
    Criteria.ofParams (Criteria.toParams
        ⟨[⟨"age", .atLeast, [.text "18"]⟩], .all, [⟨"age", .descending⟩], 0, 5, false⟩) standardSize =
      .ok ⟨[⟨"age", .atLeast, [.text "18"]⟩], .all, [⟨"age", .descending⟩], 0, 5, false⟩ :=
  ⟨(Criteria.ofParams_toParams.1 _ 5 (wellFormed_adultsByAge 3)).1 (by decide),
    (Criteria.ofParams_toParams.1 _ 5 (wellFormed_adultsByAge 1152921504606846976)).2 (by decide),
    Criteria.ofParams_toParams.2 scattered 5 _ (by rfl)⟩

end BackOffice.Query
