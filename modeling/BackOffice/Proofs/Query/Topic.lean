import BackOffice.Proofs.Query.Params

/-!
# What parameters are about

A parameter is about one of the four fields of a page of its own, or about one part of one clause or
sort, or about nothing. Which it is depends on how its key is written.
-/
namespace BackOffice.Query

open BackOffice.Field

/-! ## Topics -/

/-- What a parameter is about. -/
inductive Topic where
  | page
  | size
  | join
  | counted
  | slot (slot : Slot)
deriving DecidableEq

def topic? (key : String) : Option Topic :=
  if key = "pageIndex" then some .page
  else if key = "pageSize" then some .size
  else if key = "whereClauseJoinOp" then some .join
  else if key = "calculateStatTotal" then some .counted
  else (slot? key).map .slot

def Part.clauseWord : Part → String
  | name => "name"
  | token => "oper"
  | value => "values"

/-- How the keys of a topic are written. Digits may have zeros in front. -/
inductive Spells : String → Topic → Prop where
  | page : Spells "pageIndex" .page
  | size : Spells "pageSize" .size
  | join : Spells "whereClauseJoinOp" .join
  | counted : Spells "calculateStatTotal" .counted
  | clause {digits : List Char} {n : Nat} (read : Numeral.ofDigits? digits = some n)
      (bound : n < 2 ^ 64) (part : Part) :
      Spells ("whereClauses[" ++ String.ofList digits ++ "]." ++ part.clauseWord)
        (.slot (.clause n part))
  | sortName {digits : List Char} {n : Nat} (read : Numeral.ofDigits? digits = some n)
      (bound : n < 2 ^ 64) :
      Spells ("sortByClauses[" ++ String.ofList digits ++ "].name") (.slot (.sort n .name))
  | sortType {digits : List Char} {n : Nat} (read : Numeral.ofDigits? digits = some n)
      (bound : n < 2 ^ 64) :
      Spells ("sortByClauses[" ++ String.ofList digits ++ "].type") (.slot (.sort n .token))

/-! ## Keys -/

theorem afterLead?_eq_some_iff {lead : String} {cs rest : List Char} :
    afterLead? lead cs = some rest ↔ cs = lead.toList ++ rest := by
  constructor
  · intro h
    rw [afterLead?] at h
    split at h
    · next starts =>
      obtain ⟨tail, rfl⟩ := List.isPrefixOf_iff_prefix.mp starts
      rw [← String.length_toList, List.drop_left] at h
      cases h
      rfl
    · cases h
  · rintro rfl
    exact afterLead?_append lead rest

theorem isDigit_of_ofDigits? {ds : List Char} {n : Nat} (h : Numeral.ofDigits? ds = some n) :
    ∀ c ∈ ds, Numeral.isDigit c = true := by
  have some : ds ≠ [] := by
    rintro rfl
    cases h
  rw [Numeral.ofDigits?_of_ne_nil some] at h
  clear some
  generalize 0 = acc at h
  induction ds generalizing acc with
  | nil => exact fun _ hc => nomatch hc
  | cons d rest ih =>
    rw [Numeral.continued?] at h
    cases value : Numeral.digit? d with
    | none =>
      rw [value] at h
      cases h
    | some v =>
      rw [value] at h
      intro c hc
      rcases List.mem_cons.mp hc with rfl | later
      · rw [Numeral.isDigit, value, Option.isSome_some]
      · exact ih _ h c later

theorem indexed?_eq_some_iff {cs : List Char} {n : Nat} {word : String} :
    indexed? cs = some (n, word) ↔ ∃ ds, Numeral.ofDigits? ds = some n ∧ n < 2 ^ 64 ∧
      cs = ds ++ ']' :: '.' :: word.toList := by
  constructor
  · intro h
    simp only [indexed?] at h
    split at h
    · next read rest =>
      split at h
      · next bound =>
        cases h
        refine ⟨_, read, bound, ?_⟩
        rw [String.toList_ofList, ← rest, List.span_eq_takeWhile_dropWhile,
          List.takeWhile_append_dropWhile]
      · cases h
    · cases h
  · rintro ⟨ds, read, bound, rfl⟩
    have cut : (ds ++ ']' :: '.' :: word.toList).span Numeral.isDigit =
        (ds, ']' :: '.' :: word.toList) := by
      apply Numeral.span_isDigit_append (isDigit_of_ofDigits? read)
      rintro c ⟨⟩
      decide
    simp only [indexed?, cut, read, if_pos bound, String.ofList_toList]

theorem clausePart?_eq_some_iff {word : String} {part : Part} :
    clausePart? word = some part ↔ word = part.clauseWord := by
  constructor
  · intro h
    rw [clausePart?] at h
    split at h
    · next name =>
      cases h
      exact name
    split at h
    · next token =>
      cases h
      exact token
    split at h
    · next value =>
      cases h
      exact value
    · cases h
  · rintro rfl
    cases part <;> rfl

theorem sortPart?_eq_some_iff {word : String} {part : Part} :
    sortPart? word = some part ↔ word = "name" ∧ part = .name ∨ word = "type" ∧ part = .token := by
  constructor
  · intro h
    rw [sortPart?] at h
    split at h
    · next name =>
      cases h
      exact .inl ⟨name, rfl⟩
    split at h
    · next token =>
      cases h
      exact .inr ⟨token, rfl⟩
    · cases h
  · rintro (⟨rfl, rfl⟩ | ⟨rfl, rfl⟩) <;> rfl

/-- A key that names a slot starts with one of two words, which tell clauses from sorts. -/
theorem slot?_eq_some_iff {key : String} {slot : Slot} :
    slot? key = some slot ↔
      (∃ rest n word part, key.toList = "whereClauses[".toList ++ rest ∧
        indexed? rest = some (n, word) ∧ clausePart? word = some part ∧ slot = .clause n part) ∨
      ∃ rest n word part, key.toList = "sortByClauses[".toList ++ rest ∧
        indexed? rest = some (n, word) ∧ sortPart? word = some part ∧ slot = .sort n part := by
  constructor
  · intro h
    simp only [slot?] at h
    split at h
    · next rest lead =>
      obtain ⟨⟨n, word⟩, index, found⟩ := Option.bind_eq_some_iff.mp h
      obtain ⟨part, read, rfl⟩ := Option.map_eq_some_iff.mp found
      exact .inl ⟨_, n, word, part, afterLead?_eq_some_iff.mp lead, index, read, rfl⟩
    · next rest _ lead =>
      obtain ⟨⟨n, word⟩, index, found⟩ := Option.bind_eq_some_iff.mp h
      obtain ⟨part, read, rfl⟩ := Option.map_eq_some_iff.mp found
      exact .inr ⟨_, n, word, part, afterLead?_eq_some_iff.mp lead, index, read, rfl⟩
    · cases h
  · rintro (⟨rest, n, word, part, lead, index, read, rfl⟩ |
      ⟨rest, n, word, part, lead, index, read, rfl⟩)
    · rw [← afterLead?_eq_some_iff] at lead
      simp only [slot?, lead, index, read, Option.bind_some, Option.map_some]
    · have other : afterLead? "whereClauses[" key.toList = none := by
        rw [lead]
        rfl
      rw [← afterLead?_eq_some_iff] at lead
      simp only [slot?, other, lead, index, read, Option.bind_some, Option.map_some]

theorem key_eq_of_toList {key lead word : String} {ds : List Char}
    (h : key.toList = lead.toList ++ (ds ++ ']' :: '.' :: word.toList)) :
    key = lead ++ String.ofList ds ++ "]." ++ word := by
  apply String.toList_inj.mp
  simp [h]

theorem spells_of_slot? {key : String} {slot : Slot} (h : slot? key = some slot) :
    Spells key (.slot slot) := by
  rcases slot?_eq_some_iff.mp h with ⟨rest, n, word, part, lead, index, read, rfl⟩ |
    ⟨rest, n, word, part, lead, index, read, rfl⟩
  · obtain ⟨ds, digits, bound, rfl⟩ := indexed?_eq_some_iff.mp index
    rw [key_eq_of_toList lead, clausePart?_eq_some_iff.mp read]
    exact .clause digits bound part
  · obtain ⟨ds, digits, bound, rfl⟩ := indexed?_eq_some_iff.mp index
    rcases sortPart?_eq_some_iff.mp read with ⟨rfl, rfl⟩ | ⟨rfl, rfl⟩
    · rw [key_eq_of_toList lead, String.append_assoc]
      exact .sortName digits bound
    · rw [key_eq_of_toList lead, String.append_assoc]
      exact .sortType digits bound

theorem slot?_of_spells {key : String} {slot : Slot} (h : Spells key (.slot slot)) :
    slot? key = some slot := by
  cases h with
  | @clause digits n read bound part =>
    refine slot?_eq_some_iff.mpr (.inl ⟨digits ++ ']' :: '.' :: part.clauseWord.toList, n, _, part,
      ?_, indexed?_eq_some_iff.mpr ⟨digits, read, bound, rfl⟩,
      clausePart?_eq_some_iff.mpr rfl, rfl⟩)
    simp
  | @sortName digits n read bound =>
    refine slot?_eq_some_iff.mpr (.inr ⟨digits ++ ']' :: '.' :: "name".toList, n, _, .name,
      ?_, indexed?_eq_some_iff.mpr ⟨digits, read, bound, rfl⟩, rfl, rfl⟩)
    simp
  | @sortType digits n read bound =>
    refine slot?_eq_some_iff.mpr (.inr ⟨digits ++ ']' :: '.' :: "type".toList, n, _, .token,
      ?_, indexed?_eq_some_iff.mpr ⟨digits, read, bound, rfl⟩, rfl, rfl⟩)
    simp

/-- The four keys with a meaning of their own name no slot. -/
theorem topic?_of_slot? {key : String} {slot : Slot} (h : slot? key = some slot) :
    topic? key = some (.slot slot) := by
  have page : key ≠ "pageIndex" := by rintro rfl; cases h
  have size : key ≠ "pageSize" := by rintro rfl; cases h
  have join : key ≠ "whereClauseJoinOp" := by rintro rfl; cases h
  have counted : key ≠ "calculateStatTotal" := by rintro rfl; cases h
  rw [topic?, if_neg page, if_neg size, if_neg join, if_neg counted, h, Option.map_some]

/-- A key is written as its topic says, and every key that is so written has the topic. -/
theorem topic?_eq_some_iff {key : String} {topic : Topic} :
    topic? key = some topic ↔ Spells key topic := by
  constructor
  · intro h
    rw [topic?] at h
    split at h
    · next same =>
      cases h
      exact same ▸ .page
    split at h
    · next same =>
      cases h
      exact same ▸ .size
    split at h
    · next same =>
      cases h
      exact same ▸ .join
    split at h
    · next same =>
      cases h
      exact same ▸ .counted
    · obtain ⟨slot, named, rfl⟩ := Option.map_eq_some_iff.mp h
      exact spells_of_slot? named
  · intro h
    cases topic with
    | page | size | join | counted =>
      cases h
      rfl
    | slot slot => exact topic?_of_slot? (slot?_of_spells h)

theorem slot?_of_topic? {key : String} {slot : Slot} (h : topic? key = some (.slot slot)) :
    slot? key = some slot :=
  slot?_of_spells (topic?_eq_some_iff.mp h)

end BackOffice.Query
