import BackOffice.Proofs.Query.Topic

/-!
# Parameters taken in

While parameters are taken in, a draft tells what has arrived so far: for each topic by itself the
last value or, of a clause, all values. One parameter changes what is told of its topic and nothing
else, and whether it can be taken in depends on itself alone.
-/
namespace BackOffice.Query

open BackOffice.Field

/-! ## What has arrived -/

/-- The last of some texts as it is read, or what counts without any. -/
def lastRead {α : Type} (read : String → Option α) (default : α) (texts : List String) : α :=
  (texts.getLast?.bind read).getD default

namespace Params

/-- The values that a topic is given, in the order of their arrival. -/
def given (p : Params) (topic : Topic) : List String :=
  (p.pairs.filter fun pair => topic? pair.1 = some topic).map (·.2)

def page (p : Params) : UInt64 := lastRead Numeral.word? 0 (p.given .page)

def size (p : Params) (defaultSize : UInt64) : UInt64 :=
  lastRead Numeral.word? (Criteria.atLeastOne defaultSize) (p.given .size)

def join (p : Params) : Join := lastRead Join.ofToken? .all (p.given .join)

def counted (p : Params) : Bool := lastRead Value.bool? false (p.given .counted)

end Params

theorem Params.mem_given {p : Params} {topic : Topic} {value : String} :
    value ∈ p.given topic ↔ ∃ key, (key, value) ∈ p.pairs ∧ topic? key = some topic := by
  simp [Params.given]

theorem Params.given_push (p : Params) (key value : String) (topic : Topic) :
    (p.push key value).given topic =
      p.given topic ++ if topic? key = some topic then [value] else [] := by
  rw [Params.given, Params.push, List.filter_append, List.map_append]
  by_cases h : topic? key = some topic
  · simp [h, Params.given]
  · simp [h, Params.given]

theorem lastRead_concat {α : Type} {read : String → Option α} {value : String} {a : α}
    (h : read value = some a) (default : α) (texts : List String) :
    lastRead read default (texts ++ [value]) = a := by
  simp [lastRead, h]

/-- What the values that have come for the parts of one index add up to. -/
def Partial.gather (arrived : Part → List String) : Partial :=
  ⟨(arrived .name).getLast?, (arrived .token).getLast?, arrived .value⟩

theorem Partial.gather_of_none {arrived : Part → List String}
    (none : ¬∃ part, arrived part ≠ []) : Partial.gather arrived = Partial.empty := by
  have empty : ∀ part, arrived part = [] := by simpa using none
  simp [Partial.gather, Partial.empty, empty]

theorem Partial.gather_concat (arrived : Part → List String) (part : Part) (value : String) :
    Partial.gather (fun other => arrived other ++ if part = other then [value] else []) =
      (Partial.gather arrived).set part value := by
  cases part <;> simp [Partial.gather, Partial.set]

/-! ## Tokens -/

theorem token_of_find? {α : Type} {token : α → String} {all : List α} {s : String} {a : α}
    (h : all.find? (fun other => token other == s) = some a) : s = token a := by
  have found := List.find?_some h
  exact (eq_of_beq found).symm

theorem Join.ofToken?_eq_some_iff {s : String} {join : Join} :
    Join.ofToken? s = some join ↔ s = join.token := by
  constructor
  · exact token_of_find?
  · rintro rfl
    exact join.ofToken?_token

theorem Operator.ofToken?_eq_some_iff {s : String} {op : Operator} :
    Operator.ofToken? s = some op ↔ s = op.token := by
  constructor
  · exact token_of_find?
  · rintro rfl
    exact op.ofToken?_token

theorem Direction.ofToken?_eq_some_iff {s : String} {direction : Direction} :
    Direction.ofToken? s = some direction ↔ s = direction.token := by
  constructor
  · exact token_of_find?
  · rintro rfl
    exact direction.ofToken?_token

theorem bool?_eq_some_iff {s : String} {b : Bool} :
    Value.bool? s = some b ↔ s = Value.boolText b := by
  constructor
  · intro h
    rw [Value.bool?] at h
    split at h
    · next true =>
      cases h
      exact true
    split at h
    · next false =>
      cases h
      exact false
    · cases h
  · rintro rfl
    exact bool?_boolText b

/-! ## One parameter -/

/-- The values of a topic that can be read. -/
def Topic.Admits : Topic → String → Prop
  | page, v => ∃ n, Numeral.word? v = some n
  | size, v => ∃ n, Numeral.word? v = some n ∧ n ≠ 0
  | join, v => v = "AND" ∨ v = "OR"
  | counted, v => v = "true" ∨ v = "false"
  | slot _, _ => True

/-- The draft after a value for a topic, if the value can be read. -/
def Draft.note? (d : Draft) (topic : Topic) (value : String) : Option Draft :=
  match topic with
  | .page => (Numeral.word? value).map fun page => { d with page }
  | .size => ((Numeral.word? value).filter (· ≠ 0)).map fun size => { d with size }
  | .join => (Join.ofToken? value).map fun join => { d with join }
  | .counted => (Value.bool? value).map fun counted => { d with counted }
  | .slot slot => some (d.put slot value)

theorem Draft.take_of_topic?_none {key : String} (h : topic? key = none) (d : Draft)
    (value : String) : d.take (key, value) = .ok d := by
  simp only [topic?] at h
  split at h
  · cases h
  split at h
  · cases h
  split at h
  · cases h
  split at h
  · cases h
  · next page size join counted =>
    have none : slot? key = none := Option.map_eq_none_iff.mp h
    simp only [Draft.take, if_neg page, if_neg size, if_neg join, if_neg counted, none]

/-- What a parameter does to a draft depends on its topic and its value. -/
theorem Draft.take_ok_iff {key : String} {topic : Topic} (h : topic? key = some topic)
    {d d' : Draft} {value : String} :
    d.take (key, value) = .ok d' ↔ d.note? topic value = some d' := by
  cases topic with
  | page =>
    obtain rfl : key = "pageIndex" := by
      cases topic?_eq_some_iff.mp h
      rfl
    simp only [Draft.take, number?, Draft.note?]
    cases Numeral.word? value with
    | none => constructor <;> rintro ⟨⟩
    | some page => constructor <;> rintro ⟨⟩ <;> rfl
  | size =>
    obtain rfl : key = "pageSize" := by
      cases topic?_eq_some_iff.mp h
      rfl
    simp only [Draft.take, number?, Draft.note?, String.reduceEq, reduceIte]
    cases Numeral.word? value with
    | none => constructor <;> rintro ⟨⟩
    | some size =>
      show (if size = 0 then _ else _) = _ ↔ _
      by_cases none : size = 0
      · rw [if_pos none, none]
        constructor <;> rintro ⟨⟩
      · have kept : (some size).filter (· ≠ 0) = some size := by simp [none]
        rw [if_neg none, kept]
        constructor <;> rintro ⟨⟩ <;> rfl
  | join =>
    obtain rfl : key = "whereClauseJoinOp" := by
      cases topic?_eq_some_iff.mp h
      rfl
    simp only [Draft.take, Draft.note?, String.reduceEq, reduceIte]
    cases Join.ofToken? value with
    | none => constructor <;> rintro ⟨⟩
    | some join => constructor <;> rintro ⟨⟩ <;> rfl
  | counted =>
    obtain rfl : key = "calculateStatTotal" := by
      cases topic?_eq_some_iff.mp h
      rfl
    simp only [Draft.take, Draft.note?, String.reduceEq, reduceIte]
    cases Value.bool? value with
    | none => constructor <;> rintro ⟨⟩
    | some counted => constructor <;> rintro ⟨⟩ <;> rfl
  | slot slot =>
    rw [Draft.take_of_slot? d (slot?_of_topic? h), Draft.note?]
    constructor <;> rintro ⟨⟩ <;> rfl

/-- Whether a value can be read does not depend on the draft. -/
theorem Draft.exists_note?_iff (d : Draft) {topic : Topic} {value : String} :
    (∃ d', d.note? topic value = some d') ↔ topic.Admits value := by
  cases topic with
  | page =>
    constructor
    · rintro ⟨d', h⟩
      obtain ⟨n, read, _⟩ := Option.map_eq_some_iff.mp h
      exact ⟨n, read⟩
    · rintro ⟨n, read⟩
      exact ⟨_, by rw [Draft.note?, read, Option.map_some]⟩
  | size =>
    constructor
    · rintro ⟨d', h⟩
      obtain ⟨n, read, _⟩ := Option.map_eq_some_iff.mp h
      obtain ⟨word, some⟩ := Option.filter_eq_some_iff.mp read
      exact ⟨n, word, of_decide_eq_true some⟩
    · rintro ⟨n, read, some⟩
      have kept : (Numeral.word? value).filter (· ≠ 0) = .some n := by simp [read, some]
      exact ⟨_, by rw [Draft.note?, kept, Option.map_some]⟩
  | join =>
    constructor
    · rintro ⟨d', h⟩
      obtain ⟨join, read, _⟩ := Option.map_eq_some_iff.mp h
      rw [Join.ofToken?_eq_some_iff.mp read]
      cases join
      · exact .inl rfl
      · exact .inr rfl
    · rintro (rfl | rfl)
      · exact ⟨_, rfl⟩
      · exact ⟨_, rfl⟩
  | counted =>
    constructor
    · rintro ⟨d', h⟩
      obtain ⟨b, read, _⟩ := Option.map_eq_some_iff.mp h
      rw [bool?_eq_some_iff.mp read]
      cases b
      · exact .inr rfl
      · exact .inl rfl
    · rintro (rfl | rfl)
      · exact ⟨_, rfl⟩
      · exact ⟨_, rfl⟩
  | slot slot => exact ⟨fun _ => trivial, fun _ => ⟨_, rfl⟩⟩

/-! ## Slots that tell what has arrived -/

theorem Slots.lookup_set_of_ne {n i : Nat} (other : n ≠ i) (s : Slots) (part : Part)
    (value : String) : (s.set i part value).lookup n = s.lookup n := by
  have apart : (n == i) = false := beq_false_of_ne other
  induction s with
  | nil => rw [Slots.set, List.lookup_cons, apart]
  | cons head rest ih =>
    obtain ⟨m, q⟩ := head
    rw [Slots.set]
    split
    · rw [List.lookup_cons, apart]
    split
    · next same =>
      subst same
      simp only [List.lookup_cons, apart]
    · rw [List.lookup_cons, List.lookup_cons, ih]

theorem Slots.lookup_eq_none_of_lt {n : Nat} {s : Slots} (h : ∀ e ∈ s, n < e.1) :
    s.lookup n = none := by
  induction s with
  | nil => rfl
  | cons head rest ih =>
    have first : n < head.1 := h head List.mem_cons_self
    have apart : (n == head.1) = false := beq_false_of_ne (by omega)
    rw [List.lookup_cons, apart]
    exact ih fun e he => h e (List.mem_cons_of_mem _ he)

theorem Slots.Ordered.lookup_set_self {s : Slots} (h : s.Ordered) (i : Nat) (part : Part)
    (value : String) : (s.set i part value).lookup i =
      some (((s.lookup i).getD Partial.empty).set part value) := by
  have increasing := h.increasing
  clear h
  induction s with
  | nil => rw [Slots.set, List.lookup_cons_self, List.lookup_nil, Option.getD_none]
  | cons head rest ih =>
    obtain ⟨m, q⟩ := head
    obtain ⟨first, others⟩ := List.pairwise_cons.mp increasing
    rw [Slots.set]
    split
    · next before =>
      have new : ((m, q) :: rest).lookup i = none := by
        apply Slots.lookup_eq_none_of_lt
        rintro e he
        rcases List.mem_cons.mp he with rfl | later
        · exact before
        · exact Nat.lt_trans before (first e later)
      rw [new, List.lookup_cons_self, Option.getD_none]
    split
    · next same =>
      subst same
      rw [List.lookup_cons_self, List.lookup_cons_self, Option.getD_some]
    · next notBefore other =>
      have apart : (i == m) = false := beq_false_of_ne other
      rw [List.lookup_cons, List.lookup_cons, apart]
      exact ih others

theorem Slots.Ordered.mem_iff_lookup {s : Slots} (h : s.Ordered) {n : Nat} {q : Partial} :
    (n, q) ∈ s ↔ s.lookup n = some q := by
  have increasing := h.increasing
  clear h
  induction s with
  | nil => simp
  | cons head rest ih =>
    obtain ⟨m, r⟩ := head
    obtain ⟨first, others⟩ := List.pairwise_cons.mp increasing
    by_cases same : n = m
    · subst same
      have new : (n, q) ∉ rest := fun later => Nat.lt_irrefl n (first _ later)
      rw [List.lookup_cons_self, List.mem_cons, or_iff_left new, Prod.mk.injEq, Option.some.injEq]
      constructor
      · rintro ⟨_, rfl⟩
        rfl
      · rintro rfl
        exact ⟨rfl, rfl⟩
    · have apart : (n == m) = false := beq_false_of_ne same
      have elsewhere : (n, q) ≠ (m, r) := fun equal => same (congrArg Prod.fst equal)
      rw [List.lookup_cons, apart, List.mem_cons, or_iff_right elsewhere]
      exact ih others

/-- Slots hold for each index what has arrived for its parts, and nothing else. -/
structure Slots.Tell (s : Slots) (arrived : Nat → Part → List String) : Prop where
  ordered : s.Ordered
  mem_iff : ∀ n q, (n, q) ∈ s ↔ (∃ part, arrived n part ≠ []) ∧ q = Partial.gather (arrived n)

section Tell

variable {s : Slots} {arrived arrived' : Nat → Part → List String}

theorem Slots.tell_nil (none : ∀ n part, arrived n part = []) : Slots.Tell [] arrived := by
  constructor
  · exact ⟨List.Pairwise.nil, fun _ he => nomatch he⟩
  · intro n q
    simp [none]

theorem Slots.Tell.getD_lookup (h : s.Tell arrived) (n : Nat) :
    (s.lookup n).getD Partial.empty = Partial.gather (arrived n) := by
  cases found : s.lookup n with
  | some q =>
    have held := h.ordered.mem_iff_lookup.mpr found
    exact ((h.mem_iff n q).mp held).2
  | none =>
    have unmentioned : ¬∃ part, arrived n part ≠ [] := by
      intro mentioned
      have held := (h.mem_iff n _).mpr ⟨mentioned, rfl⟩
      rw [h.ordered.mem_iff_lookup, found] at held
      cases held
    exact (Partial.gather_of_none unmentioned).symm

theorem Slots.Tell.set (h : s.Tell arrived) {i : Nat} (bound : i < 2 ^ 64) {part : Part}
    {value : String} (elsewhere : ∀ n, n ≠ i → arrived' n = arrived n)
    (here : arrived' i = fun other => arrived i other ++ if part = other then [value] else []) :
    (s.set i part value).Tell arrived' := by
  have ordered := h.ordered.set bound part value
  refine ⟨ordered, fun n q => ?_⟩
  rw [ordered.mem_iff_lookup]
  by_cases same : n = i
  · subst same
    have mentioned : ∃ part, arrived' n part ≠ [] := by
      refine ⟨part, ?_⟩
      rw [here]
      simp
    rw [h.ordered.lookup_set_self, h.getD_lookup, ← Partial.gather_concat, ← here,
      Option.some.injEq, eq_comm, and_iff_right mentioned]
  · rw [Slots.lookup_set_of_ne same, elsewhere n same, ← h.ordered.mem_iff_lookup, h.mem_iff]

end Tell

/-! ## Drafts that tell what has arrived -/

/-- A draft holds what parameters say that have been taken in. -/
structure Draft.Tells (d : Draft) (p : Params) (defaultSize : UInt64) : Prop where
  page : d.page = p.page
  size : d.size = p.size defaultSize
  join : d.join = p.join
  counted : d.counted = p.counted
  clauses : d.clauses.Tell fun n part => p.given (.slot (.clause n part))
  sorts : d.sorts.Tell fun n part => p.given (.slot (.sort n part))

theorem Draft.tells_start (defaultSize : UInt64) :
    (Draft.start defaultSize).Tells ⟨[]⟩ defaultSize :=
  ⟨rfl, rfl, rfl, rfl, Slots.tell_nil fun _ _ => rfl, Slots.tell_nil fun _ _ => rfl⟩

/-- Only the values that topics are given matter. -/
theorem Draft.Tells.congr {d : Draft} {p q : Params} {defaultSize : UInt64}
    (h : d.Tells p defaultSize) (same : ∀ topic, q.given topic = p.given topic) :
    d.Tells q defaultSize := by
  obtain ⟨page, size, join, counted, clauses, sorts⟩ := h
  constructor
  · rw [page, Params.page, Params.page, same]
  · rw [size, Params.size, Params.size, same]
  · rw [join, Params.join, Params.join, same]
  · rw [counted, Params.counted, Params.counted, same]
  · simpa only [same] using clauses
  · simpa only [same] using sorts

section Put

variable (d : Draft) (i : Nat) (part : Part) (value : String)

@[simp]
theorem Draft.put_clause :
    d.put (.clause i part) value = { d with clauses := d.clauses.set i part value } := rfl

@[simp]
theorem Draft.put_sort :
    d.put (.sort i part) value = { d with sorts := d.sorts.set i part value } := rfl

end Put

/-- One parameter changes what is told of its topic, and nothing else. -/
theorem Draft.Tells.note? {d d' : Draft} {p : Params} {defaultSize : UInt64}
    (h : d.Tells p defaultSize) {key value : String} {topic : Topic} (about : topic? key = some topic)
    (run : d.note? topic value = some d') : d'.Tells (p.push key value) defaultSize := by
  have given (other : Topic) : (p.push key value).given other =
      p.given other ++ if topic = other then [value] else [] := by
    rw [Params.given_push, about]
    simp only [Option.some.injEq]
  obtain ⟨page, size, join, counted, clauses, sorts⟩ := h
  cases topic with
  | page =>
    obtain ⟨n, read, rfl⟩ := Option.map_eq_some_iff.mp run
    constructor
    · rw [Params.page, given, if_pos rfl, lastRead_concat read]
    · simpa [Params.size, given] using size
    · simpa [Params.join, given] using join
    · simpa [Params.counted, given] using counted
    · simpa [given] using clauses
    · simpa [given] using sorts
  | size =>
    obtain ⟨n, kept, rfl⟩ := Option.map_eq_some_iff.mp run
    have read := (Option.filter_eq_some_iff.mp kept).1
    constructor
    · simpa [Params.page, given] using page
    · rw [Params.size, given, if_pos rfl, lastRead_concat read]
    · simpa [Params.join, given] using join
    · simpa [Params.counted, given] using counted
    · simpa [given] using clauses
    · simpa [given] using sorts
  | join =>
    obtain ⟨j, read, rfl⟩ := Option.map_eq_some_iff.mp run
    constructor
    · simpa [Params.page, given] using page
    · simpa [Params.size, given] using size
    · rw [Params.join, given, if_pos rfl, lastRead_concat read]
    · simpa [Params.counted, given] using counted
    · simpa [given] using clauses
    · simpa [given] using sorts
  | counted =>
    obtain ⟨b, read, rfl⟩ := Option.map_eq_some_iff.mp run
    constructor
    · simpa [Params.page, given] using page
    · simpa [Params.size, given] using size
    · simpa [Params.join, given] using join
    · rw [Params.counted, given, if_pos rfl, lastRead_concat read]
    · simpa [given] using clauses
    · simpa [given] using sorts
  | slot slot =>
    cases run
    have index := index_lt_of_slot? (slot?_of_topic? about)
    cases slot with
    | clause i part =>
      have bound : i < 2 ^ 64 := index
      constructor
      · simpa [Params.page, given] using page
      · simpa [Params.size, given] using size
      · simpa [Params.join, given] using join
      · simpa [Params.counted, given] using counted
      · apply clauses.set bound
        · intro n other
          simp [given, Ne.symm other]
        · simp [given]
      · simpa [given] using sorts
    | sort i part =>
      have bound : i < 2 ^ 64 := index
      constructor
      · simpa [Params.page, given] using page
      · simpa [Params.size, given] using size
      · simpa [Params.join, given] using join
      · simpa [Params.counted, given] using counted
      · simpa [given] using clauses
      · apply sorts.set bound
        · intro n other
          simp [given, Ne.symm other]
        · simp [given]

theorem Draft.Tells.take {d d' : Draft} {p : Params} {defaultSize : UInt64}
    (h : d.Tells p defaultSize) {key value : String} (run : d.take (key, value) = .ok d') :
    d'.Tells (p.push key value) defaultSize := by
  cases about : topic? key with
  | none =>
    rw [Draft.take_of_topic?_none about] at run
    cases run
    apply h.congr
    intro topic
    simp [Params.given_push, about]
  | some topic => exact h.note? about ((Draft.take_ok_iff about).mp run)

/-- What is left when all parameters are taken in tells what they say. -/
theorem Draft.tells_of_foldlM {p : Params} {defaultSize : UInt64} {d : Draft}
    (run : p.pairs.foldlM Draft.take (Draft.start defaultSize) = .ok d) :
    d.Tells p defaultSize := by
  obtain ⟨pairs⟩ := p
  induction pairs using List.reverseRecOn generalizing d with
  | nil =>
    cases run
    exact Draft.tells_start defaultSize
  | append_singleton front pair ih =>
    obtain ⟨before, first, last⟩ := foldlM_concat_iff.mp run
    exact (ih first).take last

theorem Draft.exists_take_iff (d : Draft) (pair : String × String) :
    (∃ d', d.take pair = .ok d') ↔ ∀ topic, topic? pair.1 = some topic → topic.Admits pair.2 := by
  obtain ⟨key, value⟩ := pair
  cases about : topic? key with
  | none =>
    constructor
    · intro _ topic other
      cases other
    · exact fun _ => ⟨d, Draft.take_of_topic?_none about d value⟩
  | some topic =>
    have same : (∃ d', d.take (key, value) = .ok d') ↔ topic.Admits value := by
      rw [← d.exists_note?_iff]
      exact exists_congr fun _ => Draft.take_ok_iff about
    rw [same]
    constructor
    · rintro admits _ ⟨⟩
      exact admits
    · exact fun admits => admits topic rfl

/-- All parameters can be taken in if the values of every topic can be read. -/
theorem Draft.exists_foldlM_take_iff (p : Params) (defaultSize : UInt64) :
    (∃ d, p.pairs.foldlM Draft.take (Draft.start defaultSize) = .ok d) ↔
      ∀ topic, ∀ v ∈ p.given topic, topic.Admits v := by
  rw [exists_foldlM_iff Draft.exists_take_iff]
  constructor
  · intro good topic v arrived
    obtain ⟨key, mem, about⟩ := Params.mem_given.mp arrived
    exact good _ mem topic about
  · intro admits pair mem topic about
    exact admits topic _ (Params.mem_given.mpr ⟨pair.1, mem, about⟩)

end BackOffice.Query
