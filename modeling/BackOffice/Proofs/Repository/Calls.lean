import BackOffice.Proofs.Keyed
import BackOffice.Proofs.Repository
import BackOffice.Record.Bundled

/-!
# What calls leave in a repository

A repository answers calls one after the other. What it stores under an identifier is what the last
call that succeeded left there: the record that a save answered, or nothing after a deletion. Where
no call has left anything, it is the last record given at the beginning. Calls that fail change
nothing, and those that succeed change one record and leave all others in their places.
-/
namespace BackOffice

open BackOffice.Association BackOffice.Query
open BackOffice.Pattern (Engine)

/-- Each list of links names its targets once, and all of them are kept. -/
def Record.IsSettled (r : Record) : Prop :=
  ∀ x ∈ r.links, (x.2.map (Link.key Record.key)).Nodup ∧ ∀ l ∈ x.2, l.tag = .kept

theorem Record.isSettled_settle (r : Record) (previous : Option Record) :
    (r.settle previous).IsSettled := by
  intro x hx
  obtain ⟨⟨name, links⟩, _, rfl⟩ := List.mem_map.mp hx
  refine ⟨nodup_keys_settle _ links, fun l hl => ?_⟩
  dsimp only at hl
  rw [settle_eq] at hl
  obtain ⟨a, _, rfl⟩ := List.mem_map.mp hl
  rfl

namespace Repository

/-- A call. A save comes with the identifier that the record gets if it has none. -/
inductive Call where
  | search (c : Criteria)
  | get (id : Uuid)
  | save (fresh : Uuid) (record : Record)
  | delete (id : Uuid)

inductive Answer where
  | page (records : Page Record)
  | found (record : Option Record)
  | saved (record : Record)
  | deleted
  | refused (p : Problem)

/-- The repository after a call, and the answer. -/
def respond [Engine] (r : Repository) : Call → Repository × Answer
  | .search c => (r, .page (r.search c))
  | .get id => (r, .found (r.get? id))
  | .save fresh record =>
    match r.save fresh record with
    | .ok (next, saved) => (next, .saved saved)
    | .error p => (r, .refused p)
  | .delete id =>
    match r.delete id with
    | .ok next => (next, .deleted)
    | .error p => (r, .refused p)

def afterCalls [Engine] (r : Repository) (calls : List Call) : Repository :=
  calls.foldl (fun r c => (r.respond c).1) r

/-- What a call did to an identifier, told by its answer: a record is stored there now, or none. -/
def Call.effect : Call → Answer → Option (Uuid × Option Record)
  | .save _ _, .saved record => record.id.map fun id => (id, some record)
  | .delete id, .deleted => some (id, none)
  | _, _ => none

/-- What calls did, the latest last. -/
def effects [Engine] (r : Repository) : List Call → List (Uuid × Option Record)
  | [] => []
  | c :: rest => (c.effect (r.respond c).2).toList ++ (r.respond c).1.effects rest

/-- Given records with their identifiers; those without one get the next one of a supply. -/
def identified (fresh : Nat → Uuid) : Nat → List Record → List Record
  | _, [] => []
  | used, record :: rest =>
    if record.isSaved then record :: identified fresh used rest
    else record.withId (fresh used) :: identified fresh (used + 1) rest

/-- No record is given an identifier that is in use by then. -/
def SupplyUnused (s : Schema) (fresh : Nat → Uuid) (used : Nat) (given : List Record) : Prop :=
  ∀ before record after, given = before ++ record :: after → record.id = none →
    let made := ofRecords s fresh used before
    made.1.get? (fresh made.2) = none

variable {r : Repository} {id : Uuid} {record saved : Record}

/-! ## One call -/

/-- Each record stands under its own identifier, and none stands under two. -/
structure Indexed (r : Repository) : Prop where
  named : ∀ e ∈ r.records.entries, e.2.id = some e.1
  unique : r.records.keys.Nodup

theorem indexed_empty (s : Schema) : (empty s).Indexed :=
  ⟨nofun, List.nodup_nil⟩

theorem Indexed.insert (h : r.Indexed) (own : record.id = some id) : (r.insert record).Indexed := by
  refine ⟨fun e he => ?_, OrderedMap.nodup_keys_insert h.unique⟩
  rcases OrderedMap.mem_of_mem_insert h.unique he with rfl | old
  · rw [Record.key_of_id own]
    exact own
  · exact h.named e old

theorem Indexed.erase (h : r.Indexed) (id : Uuid) :
    Indexed { r with records := r.records.erase id } where
  named e he := h.named e (List.mem_filter.mp he).1
  unique := OrderedMap.nodup_keys_erase h.unique

theorem get?_ne_none_iff : r.get? id ≠ none ↔ id ∈ r.records.keys := by
  rw [get?, ne_eq, OrderedMap.get?_eq_none_iff, not_not]

/-- A record of an identifier that is not in use comes after all others. -/
theorem insert_of_unused (own : record.id = some id) (unused : r.get? id = none) :
    r.insert record = { r with records := ⟨r.records.entries ++ [(id, record)]⟩ } := by
  have absent : id ∉ r.records.keys := OrderedMap.get?_eq_none_iff.mp unused
  rw [Repository.insert, Record.key_of_id own]
  exact congrArg (fun entries => { r with records := ⟨entries⟩ })
    (OrderedMap.entries_insert_of_notMem absent)

/-- A record of a known identifier takes the place of the one that was stored under it. -/
theorem Indexed.insert_of_known (h : r.Indexed) (own : record.id = some id)
    (known : r.get? id ≠ none) : r.insert record = { r with
      records := ⟨r.records.entries.map fun e => if e.1 = id then (id, record) else e⟩ } := by
  rw [Repository.insert, Record.key_of_id own]
  exact congrArg (fun entries => { r with records := ⟨entries⟩ })
    (OrderedMap.entries_insert_of_mem h.unique (get?_ne_none_iff.mp known))

section Answers

variable [Engine]

theorem respond_save_unsaved (unsaved : record.id = none) (fresh : Uuid) :
    r.respond (.save fresh record) = (r.insert ((record.withId fresh).settle none),
      .saved ((record.withId fresh).settle none)) := by
  simp only [respond, save, unsaved]

theorem respond_save_known (own : record.id = some id) (known : r.get? id ≠ none) (fresh : Uuid) :
    r.respond (.save fresh record) =
      (r.insert (record.settle (r.get? id)), .saved (record.settle (r.get? id))) := by
  obtain ⟨previous, found⟩ := Option.ne_none_iff_exists'.mp known
  simp only [respond, save, own, found]

theorem respond_save_unknown (own : record.id = some id) (unknown : r.get? id = none)
    (fresh : Uuid) : r.respond (.save fresh record) = (r, .refused (r.unknown id)) := by
  simp only [respond, save, own, unknown]

theorem respond_delete_known (known : r.get? id ≠ none) :
    r.respond (.delete id) = ({ r with records := r.records.erase id }, .deleted) := by
  have present := OrderedMap.contains_iff.mpr (get?_ne_none_iff.mp known)
  simp only [respond, delete, present, if_true]

theorem respond_delete_unknown (unknown : r.get? id = none) :
    r.respond (.delete id) = (r, .refused (r.unknown id)) := by
  have absent : ¬ r.records.contains id = true :=
    fun h => get?_ne_none_iff.mpr (OrderedMap.contains_iff.mp h) unknown
  simp only [respond, delete, if_neg absent]

/-- A call changes nothing, or it stores the record that it answers, or it deletes one. -/
theorem respond_cases (r : Repository) (c : Call) :
    ((r.respond c).1 = r ∧ c.effect (r.respond c).2 = none) ∨
      (∃ id saved, saved.id = some id ∧ (r.respond c).1 = r.insert saved ∧
        c.effect (r.respond c).2 = some (id, some saved)) ∨
      ∃ id, (r.respond c).1 = { r with records := r.records.erase id } ∧
        c.effect (r.respond c).2 = some (id, none) := by
  cases c with
  | search c => exact Or.inl ⟨rfl, rfl⟩
  | get id => exact Or.inl ⟨rfl, rfl⟩
  | save fresh record =>
    cases own : record.id with
    | none =>
      rw [respond_save_unsaved own]
      exact Or.inr (Or.inl ⟨fresh, _, rfl, rfl, rfl⟩)
    | some id =>
      by_cases known : r.get? id = none
      · rw [respond_save_unknown own known]
        exact Or.inl ⟨rfl, rfl⟩
      · rw [respond_save_known own known]
        have same : (record.settle (r.get? id)).id = some id := own
        refine Or.inr (Or.inl ⟨id, _, same, rfl, ?_⟩)
        rw [Call.effect, same]
        rfl
  | delete id =>
    by_cases known : r.get? id = none
    · rw [respond_delete_unknown known]
      exact Or.inl ⟨rfl, rfl⟩
    · rw [respond_delete_known known]
      exact Or.inr (Or.inr ⟨id, rfl, rfl⟩)

theorem schema_respond (r : Repository) (c : Call) : (r.respond c).1.schema = r.schema := by
  rcases respond_cases r c with ⟨same, _⟩ | ⟨_, _, _, stored, _⟩ | ⟨_, deleted, _⟩
  · rw [same]
  · rw [stored]
    rfl
  · rw [deleted]

theorem Indexed.respond (h : r.Indexed) (c : Call) : (r.respond c).1.Indexed := by
  rcases respond_cases r c with ⟨same, _⟩ | ⟨_, _, own, stored, _⟩ | ⟨id, deleted, _⟩
  · rw [same]
    exact h
  · rw [stored]
    exact h.insert own
  · rw [deleted]
    exact h.erase id

/-- What is stored after a call is what the call left there; without an effect it is as before. -/
theorem Indexed.get?_respond (h : r.Indexed) (c : Call) (id : Uuid) :
    (r.respond c).1.get? id = ((c.effect (r.respond c).2).toList.lookup id).getD (r.get? id) := by
  rcases respond_cases r c with ⟨same, effect⟩ | ⟨k, _, own, stored, effect⟩ | ⟨k, deleted, effect⟩
  · rw [same, effect]
    rfl
  · rw [stored, effect, get?_insert h.unique own]
    by_cases here : id = k
    · simp [here]
    · simp [here, List.lookup_cons, beq_false_of_ne here]
  · rw [deleted, effect, get?, OrderedMap.get?_erase]
    by_cases here : id = k
    · simp [here]
    · simp [here, List.lookup_cons, beq_false_of_ne here, get?]

/-- What a save answers is what it stores, and its links are settled. -/
theorem Indexed.of_saved (h : r.Indexed) {new : Uuid}
    (answered : (r.respond (.save new record)).2 = .saved saved) :
    saved.IsSettled ∧ ∃ id, saved.id = some id ∧
      (r.respond (.save new record)).1.get? id = some saved := by
  cases own : record.id with
  | none =>
    rw [respond_save_unsaved own] at answered ⊢
    cases answered
    have same : ((record.withId new).settle none).id = some new := rfl
    exact ⟨Record.isSettled_settle _ none, new, same,
      (get?_insert h.unique same new).trans (if_pos rfl)⟩
  | some id =>
    by_cases known : r.get? id = none
    · rw [respond_save_unknown own known] at answered
      cases answered
    · rw [respond_save_known own known] at answered ⊢
      cases answered
      have same : (record.settle (r.get? id)).id = some id := own
      exact ⟨Record.isSettled_settle record _, id, same,
        (get?_insert h.unique same id).trans (if_pos rfl)⟩

/-! ## All calls -/

theorem Indexed.afterCalls (h : r.Indexed) (calls : List Call) : (r.afterCalls calls).Indexed := by
  induction calls generalizing r with
  | nil => exact h
  | cons c rest ih => exact ih (h.respond c)

theorem schema_afterCalls (r : Repository) (calls : List Call) :
    (r.afterCalls calls).schema = r.schema := by
  induction calls generalizing r with
  | nil => rfl
  | cons c rest ih => exact (ih _).trans (schema_respond r c)

/-- The last effect on an identifier counts; where there is none, it is as it was before. -/
theorem Indexed.get?_afterCalls (h : r.Indexed) (calls : List Call) (id : Uuid) :
    (r.afterCalls calls).get? id = ((r.effects calls).reverse.lookup id).getD (r.get? id) := by
  induction calls generalizing r with
  | nil => rfl
  | cons c rest ih =>
    have first : (c.effect (r.respond c).2).toList.reverse = (c.effect (r.respond c).2).toList := by
      cases c.effect (r.respond c).2 <;> rfl
    have later : (r.afterCalls (c :: rest)).get? id =
        (((r.respond c).1.effects rest).reverse.lookup id).getD ((r.respond c).1.get? id) :=
      ih (h.respond c)
    rw [later, effects, List.reverse_append, List.lookup_append, first, h.get?_respond c id]
    cases ((r.respond c).1.effects rest).reverse.lookup id <;> rfl

end Answers

/-! ## The records given at the beginning -/

variable {s : Schema} {fresh : Nat → Uuid} {used : Nat} {given : List Record}

theorem foldl_insert_identified (r : Repository) (fresh : Nat → Uuid) (used : Nat)
    (given : List Record) :
    (given.foldl (fun (r, used) record =>
      if record.isSaved then (r.insert record, used)
      else (r.insert (record.withId (fresh used)), used + 1)) (r, used)).1 =
      (identified fresh used given).foldl insert r := by
  induction given generalizing r used with
  | nil => rfl
  | cons record rest ih =>
    rw [List.foldl_cons, identified]
    by_cases saved : record.isSaved = true
    · simp only [saved, if_true, List.foldl_cons]
      exact ih _ used
    · simp only [saved]
      exact ih _ (used + 1)

theorem isSaved_of_mem_identified (h : record ∈ identified fresh used given) :
    ∃ id, record.id = some id := by
  induction given generalizing used with
  | nil => cases h
  | cons first rest ih =>
    rw [identified] at h
    split at h
    · next saved =>
      rcases List.mem_cons.mp h with rfl | later
      · exact Option.isSome_iff_exists.mp saved
      · exact ih later
    · rcases List.mem_cons.mp h with rfl | later
      · exact ⟨fresh used, rfl⟩
      · exact ih later

/-- Records that are inserted one after the other replace those of their identifiers. -/
theorem Indexed.foldl_insert (h : r.Indexed) {records : List Record}
    (named : ∀ record ∈ records, ∃ id, record.id = some id) :
    (records.foldl Repository.insert r).Indexed ∧
      ∀ id, (records.foldl Repository.insert r).get? id =
        (records.reverse.find? (·.id = some id)).or (r.get? id) := by
  induction records generalizing r with
  | nil => exact ⟨h, fun id => rfl⟩
  | cons record rest ih =>
    obtain ⟨⟨k, own⟩, others⟩ := List.forall_mem_cons.mp named
    obtain ⟨indexed, found⟩ := ih (h.insert own) others
    refine ⟨indexed, fun id => (found id).trans ?_⟩
    rw [get?_insert h.unique own, List.reverse_cons, List.find?_append, Option.or_assoc]
    by_cases here : id = k
    · simp [own, here]
    · simp [own, here, Ne.symm here]

theorem indexed_ofRecords (s : Schema) (fresh : Nat → Uuid) (used : Nat) (given : List Record) :
    (ofRecords s fresh used given).1.Indexed := by
  rw [ofRecords, foldl_insert_identified]
  exact ((indexed_empty s).foldl_insert fun _ => isSaved_of_mem_identified).1

theorem get?_ofRecords (s : Schema) (fresh : Nat → Uuid) (used : Nat) (given : List Record)
    (id : Uuid) : (ofRecords s fresh used given).1.get? id =
      (identified fresh used given).reverse.find? (·.id = some id) := by
  rw [ofRecords, foldl_insert_identified,
    ((indexed_empty s).foldl_insert fun _ => isSaved_of_mem_identified).2 id]
  exact Option.or_none

theorem schema_ofRecords (s : Schema) (fresh : Nat → Uuid) (used : Nat) (given : List Record) :
    (ofRecords s fresh used given).1.schema = s := by
  rw [ofRecords, foldl_insert_identified]
  exact List.foldlRecOn (motive := fun r : Repository => r.schema = s) _ insert rfl
    fun _ same _ _ => same

theorem ofRecords_concat (s : Schema) (fresh : Nat → Uuid) (used : Nat) (given : List Record)
    (record : Record) : (ofRecords s fresh used (given ++ [record])).1 =
      if record.isSaved then (ofRecords s fresh used given).1.insert record
      else (ofRecords s fresh used given).1.insert
        (record.withId (fresh (ofRecords s fresh used given).2)) := by
  rw [ofRecords, List.foldl_append, List.foldl_cons, List.foldl_nil, ← ofRecords]
  rcases ofRecords s fresh used given with ⟨made, gone⟩
  dsimp only
  split <;> rfl

theorem SupplyUnused.of_concat (unused : SupplyUnused s fresh used (given ++ [record])) :
    SupplyUnused s fresh used given := by
  intro before first after split unsaved
  refine unused before first (after ++ [record]) ?_ unsaved
  rw [split, List.append_assoc, List.cons_append]

/-- While no identifier in use is given to a record, the last record given with one is stored. -/
theorem get?_ofRecords_of_given (unused : SupplyUnused s fresh used given)
    (last : given.reverse.find? (·.id = some id) = some record) :
    (ofRecords s fresh used given).1.get? id = some record := by
  induction given using List.reverseRecOn with
  | nil => cases last
  | append_singleton given next ih =>
    have before := ih unused.of_concat
    have unique := (indexed_ofRecords s fresh used given).unique
    rw [List.reverse_append, List.reverse_singleton, List.singleton_append] at last
    rw [ofRecords_concat]
    cases own : next.id with
    | none =>
      have unsaved : next.isSaved = false := by rw [Record.isSaved, own]; rfl
      rw [List.find?_cons_of_neg (by simp [own])] at last
      have free : (ofRecords s fresh used given).1.get?
          (fresh (ofRecords s fresh used given).2) = none := unused given next [] rfl own
      have other : id ≠ fresh (ofRecords s fresh used given).2 := by
        intro same
        rw [← same, before last] at free
        cases free
      rw [unsaved, if_neg Bool.false_ne_true, get?_insert unique rfl, if_neg other]
      exact before last
    | some k =>
      have saved : next.isSaved = true := by rw [Record.isSaved, own]; rfl
      rw [if_pos saved, get?_insert unique own]
      by_cases here : id = k
      · subst here
        rw [List.find?_cons_of_pos (by simp [own])] at last
        rw [if_pos rfl, last]
      · rw [List.find?_cons_of_neg (by simp [own, Ne.symm here])] at last
        rw [if_neg here]
        exact before last

/-- Whatever records are given and whatever is called, each record stands under its own identifier,
no identifier twice, and what is found under one is what the last call left there or, if none did,
the last record given with it. A save without an identifier adds a record at the end, one with a
known identifier replaces the record in its place, and a deletion takes one record away; with an
unknown identifier both are refused and nothing changes. What a save answers is what it stores, and
its links are settled. -/
theorem stored_along_calls [Engine] (s : Schema) (fresh : Nat → Uuid) (used : Nat)
    (given : List Record) (calls : List Call) :
    let start := (ofRecords s fresh used given).1
    let r := start.afterCalls calls
    (∀ e ∈ r.records.entries, e.2.id = some e.1) ∧ r.records.keys.Nodup ∧
    (∀ id, r.respond (.get id) = (r, .found (((start.effects calls).reverse.lookup id).getD
      ((identified fresh used given).reverse.find? (·.id = some id))))) ∧
    (SupplyUnused s fresh used given →
      ∀ id record, given.reverse.find? (·.id = some id) = some record →
        (identified fresh used given).reverse.find? (·.id = some id) = some record) ∧
    (∀ c, r.respond (.search c) = (r, .page (r.search c))) ∧
    (∀ new record, record.id = none → r.get? new = none →
      let saved := (record.withId new).settle none
      r.respond (.save new record) =
        ({ r with records := ⟨r.records.entries ++ [(new, saved)]⟩ }, .saved saved)) ∧
    (∀ new record id, record.id = some id → r.get? id ≠ none →
      let saved := record.settle (r.get? id)
      r.respond (.save new record) = ({ r with
        records := ⟨r.records.entries.map fun e => if e.1 = id then (id, saved) else e⟩ },
          .saved saved)) ∧
    (∀ new record id, record.id = some id → r.get? id = none →
      r.respond (.save new record) = (r, .refused (.unknownRecord s.singular id))) ∧
    (∀ id, r.get? id ≠ none → r.respond (.delete id) =
      ({ r with records := ⟨r.records.entries.filter (·.1 ≠ id)⟩ }, .deleted)) ∧
    (∀ id, r.get? id = none →
      r.respond (.delete id) = (r, .refused (.unknownRecord s.singular id))) ∧
    (∀ new record saved, (r.respond (.save new record)).2 = .saved saved →
      saved.IsSettled ∧ ∃ id, saved.id = some id ∧
        (r.respond (.save new record)).1.get? id = some saved) := by
  intro start r
  have begun : start.Indexed := indexed_ofRecords s fresh used given
  have h : r.Indexed := begun.afterCalls calls
  have schema : r.schema = s :=
    (schema_afterCalls start calls).trans (schema_ofRecords s fresh used given)
  have unknown : ∀ id, r.unknown id = .unknownRecord s.singular id := by
    intro id
    rw [Repository.unknown, schema]
  refine ⟨h.named, h.unique, ?_, ?_, fun _ => rfl, ?_, ?_, ?_, fun _ => respond_delete_known, ?_,
    fun _ _ _ => h.of_saved⟩
  · intro id
    rw [← get?_ofRecords s fresh used given, ← begun.get?_afterCalls calls]
    rfl
  · intro unused id record last
    rw [← get?_ofRecords s fresh used given]
    exact get?_ofRecords_of_given unused last
  · intro new record unsaved unused saved
    rw [respond_save_unsaved unsaved, insert_of_unused rfl unused]
  · intro new record id own known saved
    have same : saved.id = some id := own
    rw [respond_save_known own known, h.insert_of_known same known]
  · intro new record id own absent
    rw [respond_save_unknown own absent, unknown]
  · intro id absent
    rw [respond_delete_unknown absent, unknown]

/-- Two roles of one identifier are given, and one without. A role is created with a privilege that
is linked twice, the role that was given none is deleted twice, and the first one is saved with the
same links before a role is saved that nobody knows. -/
theorem stored_of_roles :
    let role := Schema.role.create fun _ => none
    let privilege (n : Nat) := (Schema.privilege.create fun _ => none).withId (.ofNat n)
    let fresh (n : Nat) := Uuid.ofNat (n + 2)
    let given := [role.withId (.ofNat 1), role, (role.withId (.ofNat 1)).withStatus "disabled"]
    let granted := role.withLinks "privileges"
      [⟨privilege 5, .created⟩, ⟨privilege 6, .deleted⟩, ⟨privilege 5, .updated⟩]
    let calls := [.save (.ofNat 3) granted, .delete (.ofNat 2), .delete (.ofNat 2),
      .save (.ofNat 4) (granted.withId (.ofNat 1)), .save (.ofNat 4) (granted.withId (.ofNat 7))]
    let start := (ofRecords .role fresh 0 given).1
    let r := start.afterCalls calls
    SupplyUnused .role fresh 0 given ∧
      (start.effects calls).map (·.1) = [.ofNat 3, .ofNat 2, .ofNat 1] ∧
      r.records.keys = [.ofNat 1, .ofNat 3] ∧
      start.get? (.ofNat 1) = some ((role.withId (.ofNat 1)).withStatus "disabled") ∧
      r.respond (.get (.ofNat 1)) = (r, .found (some ((granted.withId (.ofNat 1)).withLinks
        "privileges" [⟨privilege 5, .kept⟩]))) ∧
      r.respond (.delete (.ofNat 2)) = (r, .refused (.unknownRecord "role" (.ofNat 2))) := by
  intro role privilege fresh given granted calls start r
  obtain ⟨_, _, found, last, _, _, _, _, _, refused, _⟩ :=
    stored_along_calls .role fresh 0 given calls
  have unused : SupplyUnused .role fresh 0 given := by
    intro before record after split unsaved
    dsimp only [given] at split
    rcases before with _ | ⟨first, _ | ⟨second, _ | ⟨third, more⟩⟩⟩
    · cases split
      cases unsaved
    · cases split
      rfl
    · cases split
      cases unsaved
    · cases more <;> cases split
  have known : start.get? (.ofNat 1) = some ((role.withId (.ofNat 1)).withStatus "disabled") :=
    (get?_ofRecords .role fresh 0 given _).trans (last unused _ _ rfl)
  exact ⟨unused, by decide, by decide, known, found _, refused _ (by decide)⟩

end Repository

end BackOffice
