import BackOffice.Proofs.Association.Settling
import BackOffice.Repository

/-!
# What a repository holds

A repository is well formed when its records fit its schema, have identifiers and stand under them,
no identifier twice. One made of given records is, and it stays so whatever is saved or deleted, as
long as what is saved fits the schema.
-/
namespace BackOffice

open BackOffice.Association

namespace Record

variable {ss : List (String × Schema)} {rs : List (String × List (Link Record))}

theorem LinksFit.names (fit : LinksFit ss rs) : rs.map (·.1) = ss.map (·.1) := by
  induction ss generalizing rs with
  | nil => cases fit; rfl
  | cons s rest ih =>
    cases fit with
    | cons _ others => rw [List.map_cons, List.map_cons, ih others]

theorem LinksFit.targets (fit : LinksFit ss rs) (distinct : (ss.map (·.1)).Nodup) {name : String}
    {target : Schema} (named : (name, target) ∈ ss) :
    ∀ l ∈ (rs.lookup name).getD [], Fits target l.target := by
  induction ss generalizing rs with
  | nil => cases named
  | cons s rest ih =>
    rw [List.map_cons, List.nodup_cons] at distinct
    cases fit with
    | @cons first _ links _ _ targets others =>
      rcases List.mem_cons.mp named with here | later
      · cases here
        rw [List.lookup_cons_self]
        exact targets
      · have other : name ≠ first := fun same =>
          distinct.1 (same ▸ List.mem_map.mpr ⟨_, later, rfl⟩)
        rw [List.lookup_cons, beq_false_of_ne other]
        exact ih others distinct.2 later

/-- Links may be replaced under each name as long as the new ones have targets of its schema. -/
theorem LinksFit.map (f : String → List (Link Record) → List (Link Record)) (fit : LinksFit ss rs)
    (keeps : ∀ name target, (name, target) ∈ ss → ∀ links, (∀ l ∈ links, Fits target l.target) →
      ∀ l ∈ f name links, Fits target l.target) :
    LinksFit ss (rs.map fun (name, links) => (name, f name links)) := by
  induction ss generalizing rs with
  | nil => cases fit; exact .nil
  | cons s rest ih =>
    cases fit with
    | cons targets others =>
      exact .cons (keeps _ _ List.mem_cons_self _ targets) (ih others fun name target later =>
        keeps name target (List.mem_cons_of_mem _ later))

theorem LinksFit.settle (before : String → List (Link Record)) (fit : LinksFit ss rs)
    (stored : ∀ name target, (name, target) ∈ ss → ∀ l ∈ before name, Fits target l.target) :
    LinksFit ss (rs.map fun (name, links) =>
      (name, Association.settle Record.key (before name) links)) := by
  refine fit.map (fun name => Association.settle Record.key (before name)) ?_
  intro name target named links targets l hl
  obtain ⟨d, hd, same⟩ := target_of_mem_settle hl
  rcases List.mem_append.mp hd with old | new
  · exact same ▸ stored name target named d old
  · exact same ▸ targets d new

theorem Fits.forCopy {s : Schema} {r : Record} (fits : Fits s r) : Fits s r.forCopy := by
  cases fits with
  | mk values links =>
    refine ⟨values, links.map (fun _ => Association.forCopy) ?_⟩
    intro name target _ links targets l hl
    obtain ⟨d, hd, rfl⟩ := List.mem_map.mp hl
    exact targets d (List.mem_filter.mp hd).1

theorem Fits.settle {s : Schema} (distinct : (s.links.map (·.1)).Nodup) {r : Record}
    (fits : Fits s r) {previous : Option Record} (stored : ∀ p ∈ previous, Fits s p) :
    Fits s (r.settle previous) := by
  cases fits with
  | mk values links =>
    cases previous with
    | none =>
      have nothing : ∀ name target, (name, target) ∈ s.links → ∀ l ∈ ([] : List (Link Record)),
          Fits target l.target := by
        simp
      exact ⟨values, LinksFit.settle (fun _ => []) links nothing⟩
    | some p =>
      cases stored p rfl with
      | mk _ linked =>
        exact ⟨values, LinksFit.settle p.linksOf links fun _ _ named =>
          linked.targets distinct named⟩

theorem Fits.withId {s : Schema} {r : Record} (fits : Fits s r) (id : Uuid) :
    Fits s (r.withId id) := by
  cases fits with
  | mk values links => exact ⟨values, links⟩

theorem key_of_id {r : Record} {id : Uuid} (own : r.id = some id) : r.key = id := by
  rw [key, own, Option.getD_some]

end Record

namespace Repository

variable {r : Repository}

/-- The records fit the schema, and each stands under its own identifier. -/
structure WellFormed (r : Repository) : Prop where
  keyed : r.records.KeyedBy Record.key
  saved : ∀ record ∈ r.toList, record.isSaved = true
  fits : ∀ record ∈ r.toList, Record.Fits r.schema record

theorem wellFormed_empty (s : Schema) : (empty s).WellFormed :=
  ⟨.empty, nofun, nofun⟩

theorem mem_toList_of_get? {id : Uuid} {record : Record} (h : r.get? id = some record) :
    record ∈ r.toList :=
  List.mem_map.mpr ⟨_, OrderedMap.mem_of_get? h, rfl⟩

theorem WellFormed.insert (w : r.WellFormed) {record : Record} (saved : record.isSaved = true)
    (fits : Record.Fits r.schema record) : (r.insert record).WellFormed := by
  have either : ∀ a ∈ (r.insert record).toList, a = record ∨ a ∈ r.toList := by
    intro a ha
    obtain ⟨e, he, rfl⟩ := List.mem_map.mp ha
    rcases OrderedMap.mem_of_mem_insert w.keyed.unique he with rfl | old
    · exact Or.inl rfl
    · exact Or.inr (List.mem_map.mpr ⟨e, old, rfl⟩)
  refine ⟨w.keyed.insert record, ?_, ?_⟩
  · intro a ha
    rcases either a ha with rfl | old
    · exact saved
    · exact w.saved a old
  · intro a ha
    rcases either a ha with rfl | old
    · exact fits
    · exact w.fits a old

theorem wellFormed_ofRecords (s : Schema) (fresh : Nat → Uuid) (used : Nat) {records : List Record}
    (fits : ∀ record ∈ records, Record.Fits s record) :
    (ofRecords s fresh used records).1.WellFormed ∧ (ofRecords s fresh used records).1.schema = s := by
  refine List.foldlRecOn (motive := fun made : Repository × Nat =>
    made.1.WellFormed ∧ made.1.schema = s) records _ ⟨wellFormed_empty s, rfl⟩ ?_
  rintro ⟨r, used⟩ ⟨w, rfl⟩ record given
  have fit := fits record given
  dsimp only
  split
  · next saved => exact ⟨w.insert saved fit, rfl⟩
  · exact ⟨w.insert rfl (fit.withId _), rfl⟩

theorem get?_insert (unique : r.records.keys.Nodup) {record : Record} {id : Uuid}
    (own : record.id = some id) (k : Uuid) :
    (r.insert record).get? k = if k = id then some record else r.get? k := by
  rw [get?, Repository.insert, Record.key_of_id own]
  exact OrderedMap.get?_insert unique

/-- What saving does when it succeeds: a record that is stored is settled against its stored form,
one without an identifier gets the fresh one. -/
theorem save_cases {fresh : Uuid} {record saved : Record} {next : Repository}
    (h : r.save fresh record = .ok (next, saved)) :
    next = r.insert saved ∧
      ((∃ id p, record.id = some id ∧ r.get? id = some p ∧ saved = record.settle (some p)) ∨
        (record.id = none ∧ saved = (record.withId fresh).settle none)) := by
  rw [save] at h
  split at h
  · next id known =>
    split at h
    · next p found =>
      cases h
      exact ⟨rfl, Or.inl ⟨id, p, known, found, rfl⟩⟩
    · cases h
  · next unsaved =>
    cases h
    exact ⟨rfl, Or.inr ⟨unsaved, rfl⟩⟩

theorem WellFormed.fits_saved (w : r.WellFormed) (distinct : (r.schema.links.map (·.1)).Nodup)
    {fresh : Uuid} {record saved : Record} {next : Repository}
    (fits : Record.Fits r.schema record) (h : r.save fresh record = .ok (next, saved)) :
    Record.Fits r.schema saved := by
  obtain ⟨_, ⟨id, p, _, found, rfl⟩ | ⟨_, rfl⟩⟩ := save_cases h
  · refine fits.settle distinct ?_
    rintro _ ⟨⟩
    exact w.fits p (mem_toList_of_get? found)
  · exact (fits.withId fresh).settle distinct nofun

theorem WellFormed.save (w : r.WellFormed) (distinct : (r.schema.links.map (·.1)).Nodup)
    {fresh : Uuid} {record saved : Record} {next : Repository}
    (fits : Record.Fits r.schema record) (h : r.save fresh record = .ok (next, saved)) :
    next.WellFormed := by
  have fit := w.fits_saved distinct fits h
  obtain ⟨rfl, ⟨id, p, known, _, rfl⟩ | ⟨_, rfl⟩⟩ := save_cases h
  · refine w.insert ?_ fit
    rw [Record.isSaved, Record.settle, known]
    rfl
  · exact w.insert rfl fit

theorem WellFormed.delete (w : r.WellFormed) {id : Uuid} {next : Repository}
    (h : r.delete id = .ok next) : next.WellFormed := by
  rw [Repository.delete] at h
  split at h
  · cases h
    have left : ∀ record ∈ (r.records.erase id).values, record ∈ r.toList := by
      intro record hr
      obtain ⟨e, he, rfl⟩ := List.mem_map.mp hr
      exact List.mem_map.mpr ⟨e, (List.mem_filter.mp he).1, rfl⟩
    exact ⟨w.keyed.erase id, fun record hr => w.saved record (left record hr),
      fun record hr => w.fits record (left record hr)⟩
  · cases h

/-! ## Runs -/

/-- A call that may change what is stored, if it succeeds. -/
inductive Change where
  | save (fresh : Uuid) (record : Record)
  | delete (id : Uuid)

def change (r : Repository) : Change → Repository
  | .save fresh record => (r.save fresh record).toOption.elim r (·.1)
  | .delete id => (r.delete id).toOption.getD r

def run (r : Repository) (changes : List Change) : Repository := changes.foldl change r

theorem schema_change (r : Repository) (c : Change) : (r.change c).schema = r.schema := by
  cases c with
  | save fresh record =>
    rw [change]
    cases h : r.save fresh record with
    | error p => rfl
    | ok next =>
      have saved : next.1 = r.insert next.2 := (save_cases h).1
      exact Eq.trans (congrArg schema saved) rfl
  | delete id =>
    rw [change, Repository.delete]
    split <;> rfl

theorem WellFormed.change (w : r.WellFormed) (distinct : (r.schema.links.map (·.1)).Nodup)
    (c : Change) (fits : ∀ fresh record, c = .save fresh record → Record.Fits r.schema record) :
    (r.change c).WellFormed := by
  cases c with
  | save fresh record =>
    rw [Repository.change]
    cases h : r.save fresh record with
    | error p => exact w
    | ok next => exact w.save distinct (fits fresh record rfl) h
  | delete id =>
    rw [Repository.change]
    cases h : r.delete id with
    | error p => exact w
    | ok next => exact w.delete h

/-- Whatever is stored first and whatever calls follow, the repository is well formed if the records
that are given fit its schema. -/
theorem wellFormed_run {s : Schema} (distinct : (s.links.map (·.1)).Nodup) (fresh : Nat → Uuid)
    (used : Nat) {records : List Record} (fits : ∀ record ∈ records, Record.Fits s record)
    {changes : List Change}
    (submitted : ∀ fresh record, .save fresh record ∈ changes → Record.Fits s record) :
    ((ofRecords s fresh used records).1.run changes).WellFormed ∧
      ((ofRecords s fresh used records).1.run changes).schema = s := by
  refine List.foldlRecOn (motive := fun r : Repository => r.WellFormed ∧ r.schema = s) changes _
    (wellFormed_ofRecords s fresh used fits) ?_
  rintro r ⟨w, rfl⟩ c given
  exact ⟨w.change distinct c fun fresh record same => submitted fresh record (same ▸ given),
    schema_change r c⟩

end Repository

end BackOffice
