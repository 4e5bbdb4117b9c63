import BackOffice.Proofs.Query.Traveling
import BackOffice.Proofs.Repository

/-!
# Searches by parameters

A search may be asked for by criteria, or by the parameters in which they travel. The answer is the
same, page and count included, if the values of the clauses travel well and the page has room.
-/
namespace BackOffice.Repository

open BackOffice.Field BackOffice.Query
open BackOffice.Pattern (Engine)

/-- Some record has the value in a field. -/
def Stores (r : Repository) (name : String) (v : Value) : Prop :=
  ∃ record ∈ r.toList, record.field? name = some v

variable {r : Repository} {c : Criteria}

/-- The values of the clauses travel, as far as the records have the fields they name. -/
def Travels (r : Repository) (c : Criteria) : Prop :=
  ∀ clause ∈ c.clauses, ∀ kind, r.schema.kind? clause.name = some kind →
    ∀ v ∈ clause.values, Clause.Travels (r.Stores clause.name) kind clause.operator v

theorem search_asText [Engine] (w : r.WellFormed) (travels : r.Travels c) :
    r.search c.asText = r.search c := by
  have accepted : ∀ record ∈ r.toList,
      c.asText.accepts record.field? = c.accepts record.field? := by
    intro record stored
    refine Criteria.accepts_asText fun clause hc => ?_
    exact Clause.accepts_asText (w.fits record stored) (fun v has => ⟨record, stored, has⟩)
      (travels clause hc)
  have matching : r.matching c.asText = r.matching c :=
    congrArg (List.mergeSort · (notAfter c.sorts)) (List.filter_congr accepted)
  rw [search, search, matching]
  rfl

/-- Criteria whose values travel are answered the same when they come as parameters. -/
theorem search_ofParams_toParams [Engine] (w : r.WellFormed) (well : c.WellFormed)
    (inside : c.page.toNat * c.size.toNat ≤ maxWord) (travels : r.Travels c)
    (defaultSize : UInt64) :
    ∃ read, Criteria.ofParams c.toParams defaultSize = .ok read ∧ r.search read = r.search c := by
  refine ⟨c.asText, ?_, search_asText w travels⟩
  rw [Criteria.ofParams_toParams_eq well, if_neg (Nat.not_lt.mpr inside)]

theorem total_search [Engine] (counted : c.counted = true) : (r.search c).info.total =
    some (UInt64.ofNat (r.toList.filter fun record => c.accepts record.field?).length) := by
  have length : (r.matching c).length =
      (r.toList.filter fun record => c.accepts record.field?).length := List.length_mergeSort _
  simp only [search, Page.slice, counted, if_pos, length]

def loan : Schema :=
  ⟨"loan", "loans", [("note", .optionalText), ("owner", .optionalUuid), ("count", .integer),
    ("weight", .decimal), ("due", .optionalInstant)], []⟩

/-- The first moment of a year of five digits. -/
def farOff : Instant := ⟨10000, 1, 1, 0, 0, 0, 0, by decide, by decide⟩

/-- A third of a leap second in the middle of a minute. -/
def midMinute : Instant := ⟨2020, 1, 1, 0, 0, 29, 1333333333, by decide, by decide⟩

def loanNumbered (n : Nat) (note owner count weight due : Value) : Record :=
  ⟨some (.ofNat n), "active",
    [("note", note), ("owner", owner), ("count", count), ("weight", weight), ("due", due)], []⟩

def loans : Repository :=
  (ofRecords loan Uuid.ofNat 0
    [loanNumbered 1 (.text "a") (.uuid (.ofNat 7)) (.int (2 ^ 53 + 1)) (.float Binary64.nan.neg)
      (.instant farOff),
     loanNumbered 2 (.text "null") .null (.int 0) (.float (Value.asFloat (2 ^ 53)))
      (.instant midMinute)]).1

theorem wellFormed_loans : loans.WellFormed ∧ loans.schema = loan := by
  refine wellFormed_ofRecords loan Uuid.ofNat 0 ?_
  have fits (n : Nat) {note owner count weight due : Value}
      (admitted : FieldKind.optionalText.admits note ∧ FieldKind.optionalUuid.admits owner ∧
        FieldKind.integer.admits count ∧ FieldKind.decimal.admits weight ∧
        FieldKind.optionalInstant.admits due) :
      Record.Fits loan (loanNumbered n note owner count weight due) := by
    refine ⟨⟨rfl, ?_⟩, .nil⟩
    simpa [loanNumbered, loan] using admitted
  simp only [List.forall_mem_cons]
  exact ⟨fits 1 ⟨rfl, rfl, rfl, rfl, rfl⟩, fits 2 ⟨rfl, rfl, rfl, rfl, rfl⟩, nofun⟩

/-- Twenty-five and a half. -/
def fraction : Binary64 := .ofMagnitude false (1027 * 2 ^ 52 + 19 * 2 ^ 47)

/-- A clause for each kind of field of a loan. -/
def anyOfAll : Criteria :=
  ⟨[⟨"count", .between, [.float (Value.asFloat (-3)), .int (2 ^ 53)]⟩,
      ⟨"count", .like, [.float fraction]⟩, ⟨"note", .like, [.null]⟩,
      ⟨"owner", .noneOf, [.null, .uuid (.ofNat 7)]⟩, ⟨"weight", .atMost, [.int 7]⟩,
      ⟨"due", .less, [.instant ⟨2000, 2, 29, 23, 59, 59, 10 ^ 9, by decide, by decide⟩]⟩],
    .any, [⟨"count", .descending⟩], 0, 1, true⟩

theorem travels_anyOfAll : loans.Travels anyOfAll := by
  have field {name : String} (kind : FieldKind) {holds : FieldKind → Prop}
      (known : loan.kind? name = some kind) (own : holds kind) :
      ∀ kind', loans.schema.kind? name = some kind' → holds kind' := by
    intro kind' same
    rw [wellFormed_loans.2, known] at same
    cases same
    exact own
  simp only [Travels, anyOfAll, List.forall_mem_cons]
  refine ⟨field .integer (by decide) ?_, field .integer (by decide) ?_,
    field .optionalText (by decide) ?_, field .optionalUuid (by decide) ?_,
    field .decimal (by decide) ?_, field .optionalInstant (by decide) ?_, List.forall_mem_nil _⟩
  · exact ⟨Clause.travels_floatAsInt (by decide), .int _, List.forall_mem_nil _⟩
  · exact ⟨Clause.travels_like (by decide), List.forall_mem_nil _⟩
  · exact ⟨.noText rfl (absurd rfl), List.forall_mem_nil _⟩
  · exact ⟨.noUuid rfl, .uuid _, List.forall_mem_nil _⟩
  · exact ⟨Clause.travels_intAsFloat (by decide), List.forall_mem_nil _⟩
  · exact ⟨.instant (.inr (by decide)), List.forall_mem_nil _⟩

/-- Both loans are found, and one of them is on the page. -/
theorem search_anyOfAll :
    loans.WellFormed ∧ anyOfAll.WellFormed ∧
    anyOfAll.page.toNat * anyOfAll.size.toNat ≤ maxWord ∧ loans.Travels anyOfAll ∧
    (loans.search anyOfAll).info.total = some 2 ∧
    ∃ read, Criteria.ofParams anyOfAll.toParams 5 = .ok read ∧
      loans.search read = loans.search anyOfAll := by
  have one : 1 ≤ 2 ^ 64 := by decide
  have six : 6 ≤ 2 ^ 64 := by decide
  have well : anyOfAll.WellFormed := by
    refine ⟨?_, by decide, six, one⟩
    show ∀ clause ∈ anyOfAll.clauses, clause.operator.takes clause.values.length = true
    decide
  have inside : anyOfAll.page.toNat * anyOfAll.size.toNat ≤ maxWord := by decide
  have w := wellFormed_loans.1
  refine ⟨w, well, inside, travels_anyOfAll, ?_, ?_⟩
  · rw [total_search rfl]
    decide +kernel
  · exact search_ofParams_toParams w well inside travels_anyOfAll 5

/-! ## Values that do not travel -/

/-- The values that suit a field: those that it can hold, and numbers of the other kind. -/
def Suits (kind : FieldKind) (v : Value) : Bool :=
  kind.admits v ||
    match kind, v with
    | .integer, .float _ | .decimal, .int _ => true
    | _, _ => false

/-- A search with clauses as they are made, values that suit the fields, and a page in range. -/
structure Asks (r : Repository) (c : Criteria) : Prop where
  clauses : ∀ clause ∈ c.clauses, clause.WellFormed
  suits : ∀ clause ∈ c.clauses, ∃ kind, r.schema.kind? clause.name = some kind ∧
    ∀ v ∈ clause.values, Suits kind v = true
  inside : c.page.toNat * c.size.toNat ≤ maxWord

/-- The first page of what one clause is true of, with the number of all. -/
def seeking (size : UInt64) (clause : Clause) : Criteria := ⟨[clause], .all, [], 0, size, true⟩

theorem wellFormed_seeking {clause : Clause} (well : clause.WellFormed) {size : UInt64}
    (some : size ≠ 0) : (seeking size clause).WellFormed := by
  have one : 1 ≤ 2 ^ 64 := by decide
  have none : 0 ≤ 2 ^ 64 := by decide
  exact ⟨List.forall_mem_singleton.mpr well, some, one, none⟩

theorem asks_seeking {clause : Clause} (well : clause.WellFormed) {kind : FieldKind}
    (known : r.schema.kind? clause.name = some kind)
    (suits : ∀ v ∈ clause.values, Suits kind v = true) (size : UInt64) :
    r.Asks (seeking size clause) := by
  refine ⟨List.forall_mem_singleton.mpr well, List.forall_mem_singleton.mpr ⟨kind, known, suits⟩, ?_⟩
  show 0 * size.toNat ≤ maxWord
  omega

/-- Clauses over loans with values that suit the fields but do not travel. -/
def astray : List Clause :=
  [⟨"note", .greater, [.null]⟩, ⟨"note", .equals, [.null]⟩, ⟨"owner", .greater, [.null]⟩,
    ⟨"count", .atMost, [.float fraction]⟩, ⟨"count", .equals, [.float (Value.asFloat (2 ^ 53))]⟩,
    ⟨"count", .equals, [.float Binary64.zero.neg]⟩, ⟨"weight", .like, [.int (2 ^ 53 + 1)]⟩,
    ⟨"weight", .equals, [.float Binary64.nan.neg]⟩, ⟨"due", .equals, [.instant farOff]⟩,
    ⟨"due", .equals, [.instant midMinute]⟩]

/-- Parameters answer the search for each of these values otherwise, and do not take a page of
nothing. -/
theorem search_astray :
    loans.WellFormed ∧
    ∀ c ∈ seeking 0 (.like "note" "a") :: astray.map (seeking 20), loans.Asks c ∧
      ¬∃ read, Criteria.ofParams c.toParams standardSize = .ok read ∧
        loans.search read = loans.search c := by
  obtain ⟨w, schema⟩ := wellFormed_loans
  refine ⟨w, List.forall_mem_cons.mpr ⟨?_, List.forall_mem_map.mpr ?_⟩⟩
  · have known : loans.schema.kind? "note" = some .optionalText := schema ▸ by decide
    have well : (Clause.like "note" "a").WellFormed := rfl
    refine ⟨asks_seeking well known (List.forall_mem_singleton.mpr rfl) 0, ?_⟩
    rintro ⟨read, ok, _⟩
    have refused : (Criteria.ofParams (seeking 0 (.like "note" "a")).toParams
        standardSize).toOption = none := by
      decide +kernel
    rw [ok] at refused
    cases refused
  · have suits : ∀ clause ∈ astray, clause.operator.takes clause.values.length = true ∧
        (loan.kind? clause.name).any fun kind => clause.values.all (Suits kind) := by
      decide
    -- The totals already differ. They are counted without sorting, so they can be computed.
    have totals : ∀ clause ∈ astray,
        UInt64.ofNat (loans.toList.filter fun record =>
          (seeking 20 clause).asText.accepts record.field?).length ≠
        UInt64.ofNat (loans.toList.filter fun record =>
          (seeking 20 clause).accepts record.field?).length := by
      decide +kernel
    intro clause hc
    obtain ⟨takes, kinds⟩ := suits clause hc
    obtain ⟨kind, known, all⟩ := (Option.any_eq_true _ _).mp kinds
    have asks := asks_seeking takes (schema ▸ known) (List.all_eq_true.mp all) 20
    refine ⟨asks, ?_⟩
    rintro ⟨read, ok, same⟩
    have well := wellFormed_seeking takes (by decide : (20 : UInt64) ≠ 0)
    rw [Criteria.ofParams_toParams_eq well, if_neg (Nat.not_lt.mpr asks.inside)] at ok
    obtain rfl := Except.ok.inj ok
    have total := congrArg (fun page => page.info.total) same
    rw [total_search rfl, total_search rfl] at total
    exact totals clause hc (Option.some.inj total)

end BackOffice.Repository
