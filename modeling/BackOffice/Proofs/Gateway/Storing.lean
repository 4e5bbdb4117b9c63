import BackOffice.Proofs.Gateway.Routing
import BackOffice.Proofs.Json.Text
import BackOffice.Proofs.Repository.Calls

/-!
# What requests leave in the stores

A gateway opens with an empty store for each of its schemas and answers requests one after the other.
A record that is posted is stored if it breaks no rule and its identifier, if it has one, is known;
it can be fetched as it was answered. Whatever request is answered with a problem changes nothing.
Rules are checked before a record is given its identifier and its links are settled, and as none of
this touches any other field, what is stored obeys the rules that are not about the identifier.
-/
namespace BackOffice

open BackOffice.Field
open BackOffice.Field (Recognizer)

/-! ## Rules for fields that a store leaves alone -/

theorem Ruleset.check_congr [Recognizer] {rules : Ruleset} {f g : String → Option Value}
    (same : ∀ name ∈ rules.keys, f name = g name) : rules.check f = rules.check g := by
  refine List.filterMap_congr fun e he => ?_
  simp only [same e.1 (List.mem_map_of_mem he)]

namespace Record

theorem field?_settle (r : Record) (previous : Option Record) (name : String) :
    (r.settle previous).field? name = r.field? name := rfl

theorem field?_withId (r : Record) (id : Uuid) {name : String} (other : name ≠ "id") :
    (r.withId id).field? name = r.field? name := by
  simp only [field?, if_neg other]
  rfl

theorem withId_of_id {r : Record} {id : Uuid} (own : r.id = some id) : r.withId id = r := by
  cases r
  cases own
  rfl

end Record

theorem Ruleset.check_stored [Recognizer] {rules : Ruleset} (free : "id" ∉ rules.keys) (r : Record)
    (id : Uuid) (previous : Option Record) :
    rules.check ((r.withId id).settle previous).field? = rules.check r.field? := by
  refine Ruleset.check_congr fun name hn => ?_
  have other : name ≠ "id" := fun equal => free (equal ▸ hn)
  exact (Record.field?_settle _ _ _).trans (r.field?_withId id other)

namespace Repository

variable {r : Repository} {record : Record}

/-- A record as it is stored: under its own identifier or the fresh one, with its links settled
against those that are stored under its own. -/
def savedAs (r : Repository) (fresh : Uuid) (record : Record) : Record :=
  (record.withId (record.id.getD fresh)).settle (record.id.bind r.get?)

theorem save_of_known (known : ∀ id, record.id = some id → r.get? id ≠ none) (fresh : Uuid) :
    r.save fresh record = .ok (r.insert (r.savedAs fresh record), r.savedAs fresh record) := by
  cases own : record.id with
  | none => simp only [save, savedAs, own, Option.getD_none, Option.bind_none]
  | some id =>
    obtain ⟨previous, found⟩ := Option.ne_none_iff_exists'.mp (known id own)
    simp only [save, savedAs, own, found, Option.getD_some, Option.bind_some,
      Record.withId_of_id own]

theorem save_of_unknown {id : Uuid} (own : record.id = some id) (unknown : r.get? id = none)
    (fresh : Uuid) : r.save fresh record = .error (r.unknown id) := by
  simp only [save, own, unknown]

end Repository

namespace Gateway

/-! ## What one request can do -/

variable {g : Gateway}

/-- Backends stand under the singulars of their schemas. -/
def Arranged (g : Gateway) : Prop := g.resources.KeyedBy fun b => b.repository.schema.singular

theorem Arranged.get? (arranged : g.Arranged) {b : Backend} (known : b ∈ g.resources.values) :
    g.resources.get? b.repository.schema.singular = some b :=
  (OrderedMap.get?_eq_some_iff arranged.unique).mpr (arranged.mem_entries_iff.mpr ⟨known, rfl⟩)

theorem Arranged.register_self (arranged : g.Arranged) {b : Backend} (known : b ∈ g.resources.values) :
    g.register b = g := by
  simp only [register, OrderedMap.insert_of_get? (arranged.get? known)]

/-- The gateway after a request and the answer: nothing changes, or a record that breaks no rule is
stored as it is answered, or a record is deleted. -/
inductive Served [Recognizer] (g : Gateway) : Gateway → Response → Prop
  | same (response : Response) : Served g g response
  | saved {b : Backend} {fresh : Uuid} {record saved : Record} {repository : Repository}
      (known : b ∈ g.resources.values)
      (clean : violations g.settings b.repository.schema record = [])
      (save : b.repository.save fresh record = .ok (repository, saved)) :
      Served g (g.register { b with repository })
        ⟨if record.isSaved then 200 else 201, some saved.toJson⟩
  | deleted {b : Backend} {id : Uuid} {repository : Repository} (known : b ∈ g.resources.values)
      (delete : b.repository.delete id = .ok repository) :
      Served g (g.register { b with repository }) (.ofStatus 204)

theorem save_cases [Recognizer] (s : Settings) (b : Backend) (fresh : Uuid) (record : Record) :
    (∃ p, save s b fresh record = (b, .error p)) ∨ ∃ repository saved,
      violations s b.repository.schema record = [] ∧
        b.repository.save fresh record = .ok (repository, saved) ∧
        save s b fresh record = ({ b with repository }, .ok saved) := by
  cases clean : violations s b.repository.schema record with
  | cons v vs => exact .inl ⟨.invalid (v :: vs), by simp only [save, clean]⟩
  | nil =>
    cases ready : b.ensure "save" with
    | error p => exact .inl ⟨p, by simp only [save, clean, Backend.save, ready]⟩
    | ok _ =>
      cases done : b.repository.save fresh record with
      | error p => exact .inl ⟨p, by simp only [save, clean, Backend.save, ready, done]⟩
      | ok next =>
        exact .inr ⟨next.1, next.2, rfl, rfl, by simp only [save, clean, Backend.save, ready, done]⟩

theorem save_of_clean [Recognizer] {s : Settings} {b : Backend} {record : Record}
    (up : b.reachable = true) (clean : violations s b.repository.schema record = [])
    (fresh : Uuid) :
    save s b fresh record = b.save fresh record ∧ b.ensure "save" = .ok () := by
  simp only [save, clean, Backend.ensure, up, if_true, and_self]

theorem save_of_flaws [Recognizer] {s : Settings} {b : Backend} {record : Record}
    {vs : List Violation} (flaws : violations s b.repository.schema record = vs)
    (some : vs ≠ []) (fresh : Uuid) :
    save s b fresh record = (b, .error (.invalid vs)) := by
  obtain ⟨v, rest, rfl⟩ := List.exists_cons_of_ne_nil some
  simp only [save, flaws]

theorem delete_cases (b : Backend) (id : Uuid) :
    (∃ p, b.delete id = (b, .error p)) ∨ ∃ repository, b.repository.delete id = .ok repository ∧
      b.delete id = ({ b with repository }, .ok ()) := by
  cases ready : b.ensure "delete" with
  | error p => exact .inl ⟨p, by simp only [Backend.delete, ready]⟩
  | ok _ =>
    cases done : b.repository.delete id with
    | error p => exact .inl ⟨p, by simp only [Backend.delete, ready, done]⟩
    | ok next => exact .inr ⟨next, rfl, by simp only [Backend.delete, ready, done]⟩

/-- The backend that a place belongs to. -/
def Place.backend? : Place → Option Backend
  | .page _ => none
  | .records b | .search b | .associations b | .record b _ => some b

theorem mem_of_resource? {plural : String} {b : Backend} (h : g.resource? plural = some b) :
    b ∈ g.resources.values := List.mem_of_find?_eq_some h

theorem mem_of_place? {r : Request} {place : Place} (h : g.place? r = some place) {b : Backend}
    (hb : place.backend? = some b) : b ∈ g.resources.values := by
  simp only [place?] at h
  split at h
  · cases h
    cases hb
  · obtain ⟨c, found, rfl⟩ := Option.map_eq_some_iff.mp h
    cases hb
    exact mem_of_resource? found
  · split at h
    · cases h
    · obtain ⟨c, found, rfl⟩ := Option.map_eq_some_iff.mp h
      simp only [placeIn] at hb
      split at hb
      · cases hb
        exact mem_of_resource? found
      · split at hb
        · cases hb
          exact mem_of_resource? found
        · cases hb
          exact mem_of_resource? found
  · cases h

/-- Asking for something changes nothing. -/
theorem serve_get [Recognizer] (fresh : Uuid) (place : Place) (r : Request) :
    (g.serve fresh place .get r).1 = g := by
  cases place with
  | record b part =>
    simp only [serve]
    cases readId? part <;> rfl
  | page body | records b | search b | associations b => rfl

theorem served_saveIn [Recognizer] (arranged : g.Arranged) {b : Backend}
    (known : b ∈ g.resources.values) (fresh : Uuid) (r : Request) :
    Served g (g.answer (g.saveIn fresh b r)).1 (g.answer (g.saveIn fresh b r)).2 := by
  cases read : r.record b.repository.schema with
  | error fault =>
    simp only [saveIn, read, answer, arranged.register_self known]
    exact .same _
  | ok record =>
    rcases save_cases g.settings b fresh record with
      ⟨p, refused⟩ | ⟨repository, saved, clean, done, stored⟩
    · simp only [saveIn, read, refused, answer, arranged.register_self known]
      exact .same _
    · simp only [saveIn, read, stored, answer, Response.ofResult]
      exact .saved known clean done

theorem served_deleteIn [Recognizer] (arranged : g.Arranged) {b : Backend}
    (known : b ∈ g.resources.values) (id : Uuid) :
    Served g (g.answer (deleteIn b id)).1 (g.answer (deleteIn b id)).2 := by
  rcases delete_cases b id with ⟨p, refused⟩ | ⟨repository, done, deleted⟩
  · simp only [deleteIn, refused, answer, arranged.register_self known]
    exact .same _
  · simp only [deleteIn, deleted, answer, Response.ofResult]
    exact .deleted known done

theorem served_serve [Recognizer] (arranged : g.Arranged) (fresh : Uuid) {place : Place}
    (known : ∀ b, place.backend? = some b → b ∈ g.resources.values) (verb : Verb) (r : Request) :
    Served g (g.serve fresh place verb r).1 (g.serve fresh place verb r).2 := by
  simp only [serve]
  split
  · exact .same _
  · exact served_saveIn arranged (known _ rfl) fresh r
  · exact .same _
  · exact .same _
  · split <;> exact .same _
  · split
    · exact served_deleteIn arranged (known _ rfl) _
    · exact .same _
  · exact .same _

/-- All that a request can do. -/
theorem handle_served [Recognizer] (arranged : g.Arranged) (fresh : Uuid) (r : Request) :
    Served g (g.handle fresh r).1 (g.handle fresh r).2 := by
  simp only [handle]
  split
  · exact .same _
  · exact .same _
  · next place _ =>
    simp only [serve_get]
    exact .same _
  · next place found _ _ =>
    exact served_serve arranged fresh (fun b hb => mem_of_place? found hb) _ r

/-! ## What holds of every gateway -/

/-- What holds of a backend whose records are saved under some settings. -/
structure BackendSound [Recognizer] (s : Settings) (b : Backend) : Prop where
  bundled : b.repository.schema ∈ Schema.bundled
  up : b.reachable = true
  indexed : b.repository.Indexed
  obeyed : "id" ∉ (s.rulesOf b.repository.schema.singular).keys → ∀ record ∈ b.repository.toList,
    violations s b.repository.schema record = []

/-- What holds of a gateway that was opened for some schemas, whatever it was asked. -/
structure Sound [Recognizer] (s : Settings) (schemas : List Schema) (g : Gateway) : Prop where
  settings : g.settings = s
  pages : g.HasPages
  arranged : g.Arranged
  opened : ∀ schema ∈ schemas, schema.singular ∈ g.resources.keys
  backends : ∀ b ∈ g.resources.values, BackendSound s b

variable {s : Settings} {schemas : List Schema}

theorem BackendSound.saved [Recognizer] {b : Backend} (h : BackendSound s b) {fresh : Uuid}
    {record saved : Record} {repository : Repository}
    (clean : violations s b.repository.schema record = [])
    (save : b.repository.save fresh record = .ok (repository, saved)) :
    BackendSound s { b with repository } := by
  obtain ⟨rfl, origin⟩ := Repository.save_cases save
  have own : ∃ id, saved.id = some id := by
    rcases origin with ⟨id, p, known, _, rfl⟩ | ⟨_, rfl⟩
    · exact ⟨id, known⟩
    · exact ⟨fresh, rfl⟩
  obtain ⟨id, own⟩ := own
  refine ⟨h.bundled, h.up, h.indexed.insert own, ?_⟩
  intro free other ho
  obtain ⟨e, he, rfl⟩ := List.mem_map.mp ho
  rcases OrderedMap.mem_of_mem_insert h.indexed.unique he with rfl | old
  · rcases origin with ⟨id, p, _, _, rfl⟩ | ⟨_, rfl⟩
    · exact clean
    · exact (Ruleset.check_stored free record fresh none).trans clean
  · exact h.obeyed free e.2 (List.mem_map_of_mem old)

theorem BackendSound.deleted [Recognizer] {b : Backend} (h : BackendSound s b) {id : Uuid}
    {repository : Repository} (delete : b.repository.delete id = .ok repository) :
    BackendSound s { b with repository } := by
  simp only [Repository.delete] at delete
  split at delete
  · cases delete
    refine ⟨h.bundled, h.up, h.indexed.erase id, ?_⟩
    intro free other ho
    obtain ⟨e, he, rfl⟩ := List.mem_map.mp ho
    exact h.obeyed free e.2 (List.mem_map_of_mem (List.mem_filter.mp he).1)
  · cases delete

theorem mem_values_register (arranged : g.Arranged) {b c : Backend}
    (h : c ∈ (g.register b).resources.values) : c = b ∨ c ∈ g.resources.values := by
  obtain ⟨e, he, rfl⟩ := List.mem_map.mp h
  rcases OrderedMap.mem_of_mem_insert arranged.unique he with rfl | old
  · exact .inl rfl
  · exact .inr (List.mem_map_of_mem old)

theorem Sound.register [Recognizer] (h : Sound s schemas g) {b : Backend}
    (sound : BackendSound s b) : Sound s (b.repository.schema :: schemas) (g.register b) where
  settings := h.settings
  pages := h.pages
  arranged := h.arranged.insert b
  opened schema hs := by
    simp only [Gateway.register, OrderedMap.mem_keys_insert]
    rcases List.mem_cons.mp hs with rfl | old
    · exact .inl rfl
    · exact .inr (h.opened schema old)
  backends c hc := by
    rcases mem_values_register h.arranged hc with rfl | old
    · exact sound
    · exact h.backends c old

theorem Sound.mono [Recognizer] {others : List Schema} (h : Sound s schemas g)
    (fewer : ∀ schema ∈ others, schema ∈ schemas) : Sound s others g :=
  ⟨h.settings, h.pages, h.arranged, fun schema hs => h.opened schema (fewer schema hs), h.backends⟩

theorem Sound.served [Recognizer] (h : Sound s schemas g) {next : Gateway} {response : Response}
    (served : Served g next response) : Sound s schemas next := by
  cases served with
  | same response => exact h
  | saved known clean save =>
    have sound := (h.backends _ known).saved (h.settings ▸ clean) save
    exact (h.register sound).mono fun _ => List.mem_cons_of_mem _
  | deleted known delete =>
    have sound := (h.backends _ known).deleted delete
    exact (h.register sound).mono fun _ => List.mem_cons_of_mem _

/-! ## Runs -/

/-- A gateway with an empty store for each of some schemas, before its first request. -/
def opened (all : List Settings) (schemas : List Schema) : Gateway :=
  schemas.foldl (fun g schema => g.register ⟨.empty schema, true⟩) (ofSettings all)

/-- The gateway after requests, each with the identifier that it gives to a new record. -/
def run [Recognizer] (g : Gateway) (requests : List (Uuid × Request)) : Gateway :=
  requests.foldl (fun g x => (g.handle x.1 x.2).1) g

theorem sound_opened [Recognizer] (all : List Settings) {schemas : List Schema}
    (bundled : ∀ schema ∈ schemas, schema ∈ Schema.bundled) :
    Sound (ofSettings all).settings schemas (opened all schemas) := by
  induction schemas using List.reverseRecOn with
  | nil => exact ⟨rfl, rfl, .empty, nofun, nofun⟩
  | append_singleton schemas schema ih =>
    have before := ih fun t ht => bundled t (List.mem_append_left _ ht)
    have blank : BackendSound (ofSettings all).settings ⟨.empty schema, true⟩ :=
      ⟨bundled schema (by simp), rfl, Repository.indexed_empty schema, nofun⟩
    have last : opened all (schemas ++ [schema]) =
        (opened all schemas).register ⟨.empty schema, true⟩ := by
      simp only [opened, List.foldl_append, List.foldl_cons, List.foldl_nil]
    rw [last]
    refine (before.register blank).mono fun t ht => ?_
    rcases List.mem_append.mp ht with old | new
    · exact List.mem_cons_of_mem _ old
    · exact List.mem_cons.mpr (.inl (List.mem_singleton.mp new))

theorem Sound.run [Recognizer] (h : Sound s schemas g) (requests : List (Uuid × Request)) :
    Sound s schemas (g.run requests) := by
  refine List.foldlRecOn requests _ h ?_
  intro g h x _
  exact h.served (handle_served h.arranged x.1 x.2)

/-! ## Requests for the records of one schema -/

/-- The store of a schema, which is empty if there is none. -/
def repositoryOf (g : Gateway) (schema : Schema) : Repository :=
  ((g.resources.get? schema.singular).map (·.repository)).getD (.empty schema)

theorem singular_injective {a b : Schema} (ha : a ∈ Schema.bundled) (hb : b ∈ Schema.bundled)
    (same : a.singular = b.singular) : a = b := by
  have distinct : (Schema.bundled.map (·.singular)).Nodup := by decide
  exact List.inj_on_of_nodup_map distinct ha hb same

theorem plural_injective {a b : Schema} (ha : a ∈ Schema.bundled) (hb : b ∈ Schema.bundled)
    (same : a.plural = b.plural) : a = b := by
  have distinct : (Schema.bundled.map (·.plural)).Nodup := by decide
  exact List.inj_on_of_nodup_map distinct ha hb same

/-- A store that was opened for a schema is where the names of the schema lead. -/
theorem Sound.resource [Recognizer] (h : Sound s schemas g) {schema : Schema}
    (bundled : schema ∈ Schema.bundled) (known : schema ∈ schemas) :
    (⟨g.repositoryOf schema, true⟩ : Backend) ∈ g.resources.values ∧
      (g.repositoryOf schema).schema = schema ∧
      g.resource? schema.plural = some ⟨g.repositoryOf schema, true⟩ := by
  obtain ⟨e, he, named⟩ := List.mem_map.mp (h.opened schema known)
  have inside : e.2 ∈ g.resources.values := List.mem_map_of_mem he
  have sound := h.backends e.2 inside
  have own : e.2.repository.schema = schema :=
    singular_injective sound.bundled bundled ((h.arranged.keyed e he).symm.trans named)
  have stored : g.resources.get? schema.singular = some e.2 := own ▸ h.arranged.get? inside
  have here : (⟨g.repositoryOf schema, true⟩ : Backend) = e.2 := by
    simp only [repositoryOf, stored, Option.map_some, Option.getD_some, ← sound.up]
  have found : g.resource? schema.plural = some e.2 := by
    cases found : g.resource? schema.plural with
    | none =>
      have other := List.find?_eq_none.mp found e.2 inside
      simp [own] at other
    | some c =>
      have other := mem_of_resource? found
      have plural : c.repository.schema.plural = schema.plural := by
        simpa using List.find?_some found
      have same : c.repository.schema = schema :=
        plural_injective (h.backends c other).bundled bundled plural
      have again : g.resources.get? schema.singular = some c := same ▸ h.arranged.get? other
      exact again.symm.trans stored
  refine ⟨here ▸ inside, ?_, here ▸ found⟩
  have repository : g.repositoryOf schema = e.2.repository := congrArg Backend.repository here
  rw [repository, own]

theorem repositoryOf_register (arranged : g.Arranged) (b : Backend) (schema : Schema) :
    (g.register b).repositoryOf schema =
      if schema.singular = b.repository.schema.singular then b.repository
      else g.repositoryOf schema := by
  simp only [repositoryOf, register, OrderedMap.get?_insert arranged.unique]
  split <;> rfl

/-- A request that posts a record to the path of its schema. -/
structure Posts (r : Request) (schema : Schema) (record : Record) : Prop where
  verb : r.verb = .post
  path : r.path = recordsPath schema
  body : r.record schema = .ok record

/-- The text of a document that a record is read from is a body with that record. -/
theorem readRecord_text {schema : Schema} {record : Record} {fields : List (String × Json)}
    (shallow : Json.Within 127 (.obj fields))
    (read : Record.ofJson? schema (.obj fields) = some record) :
    readRecord schema (Json.obj fields).text = .ok record := by
  simp only [readRecord, Json.readOne_text shallow, cutToMembers, read]
  rfl

theorem Posts.of_text {r : Request} {schema : Schema} {record : Record}
    {fields : List (String × Json)} (verb : r.verb = .post) (path : r.path = recordsPath schema)
    (json : r.contentType.any MediaType.isJson = true)
    (body : r.body = (Json.obj fields).text) (short : r.body.utf8ByteSize ≤ bodyLimit)
    (shallow : Json.Within 127 (.obj fields))
    (read : Record.ofJson? schema (.obj fields) = some record) : Posts r schema record := by
  refine ⟨verb, path, ?_⟩
  rw [Request.record, json, if_neg (by decide), if_neg (Nat.not_lt.mpr short), body,
    readRecord_text shallow read]

/-- A request for the record of an identifier. -/
structure Fetches (r : Request) (schema : Schema) (id : Uuid) : Prop where
  verb : r.verb = .get
  path : r.path = recordPath schema id

section Schemas

variable [Recognizer] {schema : Schema} {record : Record} {r : Request} (h : Sound s schemas g)
  (bundled : schema ∈ Schema.bundled) (known : schema ∈ schemas)

include h bundled known

theorem Sound.handle_fetch {id : Uuid} (fetches : Fetches r schema id)
    (stored : (g.repositoryOf schema).get? id = some record) (fresh : Uuid) :
    g.handle fresh r = (g, .ok record.toJson) := by
  obtain ⟨_, _, resource⟩ := h.resource bundled known
  have place := place?_record h.pages (plainPlural_of_bundled bundled) resource fetches.path
  simp only [handle, fetches.verb, place, serve, readId?_text, fetch, Backend.get, Backend.ensure,
    if_true, Except.map, stored]
  rfl

/-- What a posted record meets: the save of its backend. -/
theorem Sound.handle_post (posts : Posts r schema record) (fresh : Uuid) : g.handle fresh r =
    let saved := save s ⟨g.repositoryOf schema, true⟩ fresh record
    (g.register saved.1, .ofResult
      (fun saved => ⟨if record.isSaved then 200 else 201, some saved.toJson⟩) saved.2) := by
  obtain ⟨_, own, resource⟩ := h.resource bundled known
  have place := place?_records h.pages (plainPlural_of_bundled bundled) resource posts.path
  have read : r.record (g.repositoryOf schema).schema = .ok record := own.symm ▸ posts.body
  simp only [handle, posts.verb, place, serve, saveIn, read, answer, h.settings]

theorem Sound.handle_post_flawed (posts : Posts r schema record) {flaws : List Violation}
    (checked : violations s schema record = flaws) (some : flaws ≠ []) (fresh : Uuid) :
    g.handle fresh r = (g, .ofProblem (.invalid flaws)) := by
  obtain ⟨inside, own, _⟩ := h.resource bundled known
  have refused := save_of_flaws (b := ⟨g.repositoryOf schema, true⟩)
    (by simpa only [own] using checked) some fresh
  simp only [h.handle_post bundled known posts, refused, h.arranged.register_self inside,
    Response.ofResult]

theorem Sound.handle_post_unknown (posts : Posts r schema record)
    (clean : violations s schema record = []) {id : Uuid} (named : record.id = some id)
    (unknown : (g.repositoryOf schema).get? id = none) (fresh : Uuid) :
    g.handle fresh r = (g, .ofProblem (.unknownRecord schema.singular id)) := by
  obtain ⟨inside, own, _⟩ := h.resource bundled known
  obtain ⟨same, up⟩ := save_of_clean (b := ⟨g.repositoryOf schema, true⟩) rfl
    (by simpa only [own] using clean) fresh
  have refused := Repository.save_of_unknown named unknown fresh
  simp only [h.handle_post bundled known posts, same, Backend.save, up, refused,
    h.arranged.register_self inside, Response.ofResult, Repository.unknown, own]

theorem Sound.handle_post_stored (posts : Posts r schema record)
    (clean : violations s schema record = [])
    (stored : ∀ id, record.id = some id → (g.repositoryOf schema).get? id ≠ none) (fresh : Uuid) :
    let saved := (g.repositoryOf schema).savedAs fresh record
    g.handle fresh r = (g.register ⟨(g.repositoryOf schema).insert saved, true⟩,
      ⟨if record.isSaved then 200 else 201, some saved.toJson⟩) := by
  obtain ⟨_, own, _⟩ := h.resource bundled known
  obtain ⟨same, up⟩ := save_of_clean (b := ⟨g.repositoryOf schema, true⟩) rfl
    (by simpa only [own] using clean) fresh
  simp only [h.handle_post bundled known posts, same, Backend.save, up,
    Repository.save_of_known stored, Response.ofResult]

end Schemas

/-- Whatever the settings, whichever stores a gateway was opened with and whatever it was asked, a
record that is posted is stored exactly if it breaks no rule of its entity and its identifier, if it
has one, is stored. It is answered as it can be fetched from then on, and no other store changes.
Every request that is answered with a problem changes nothing. Where no rule is about the identifier,
all records that are stored obey the rules. -/
theorem stores_along_requests [Recognizer] (all : List Settings) {schemas : List Schema}
    (bundled : ∀ schema ∈ schemas, schema ∈ Schema.bundled) (requests : List (Uuid × Request)) :
    let g := (opened all schemas).run requests
    let rules (schema : Schema) := (ofSettings all).settings.rulesOf schema.singular
    (∀ schema ∈ schemas, ∀ (fresh : Uuid) (post : Request) (record : Record),
      Posts post schema record →
        let store := g.repositoryOf schema
        let flaws := (rules schema).check record.field?
        let id := record.id.getD fresh
        let saved := store.savedAs fresh record
        let next := (g.handle fresh post).1
        (flaws ≠ [] → g.handle fresh post = (g, .ofProblem (.invalid flaws))) ∧
        (flaws = [] → record.isSaved = true → store.get? id = none →
          g.handle fresh post = (g, .ofProblem (.unknownRecord schema.singular id))) ∧
        (flaws = [] → (record.isSaved = true → store.get? id ≠ none) →
          (g.handle fresh post).2 = ⟨if record.isSaved then 200 else 201, some saved.toJson⟩ ∧
          next.repositoryOf schema = store.insert saved ∧
          (∀ other, other.singular ≠ schema.singular →
            next.repositoryOf other = g.repositoryOf other) ∧
          ∀ (later : Uuid) (get : Request), Fetches get schema id →
            next.handle later get = (next, .ok saved.toJson))) ∧
    (∀ (fresh : Uuid) (r : Request),
      400 ≤ (g.handle fresh r).2.status → (g.handle fresh r).1 = g) ∧
    ∀ schema ∈ schemas, "id" ∉ (rules schema).keys →
      ∀ record ∈ (g.repositoryOf schema).toList, (rules schema).check record.field? = [] := by
  intro g rules
  have sound : Sound (ofSettings all).settings schemas g := (sound_opened all bundled).run requests
  refine ⟨?_, ?_, ?_⟩
  · intro schema known fresh post record posts store flaws id saved next
    have inBundled := bundled schema known
    obtain ⟨inside, own, _⟩ := sound.resource inBundled known
    have idOf {i : Uuid} (named : record.id = some i) : id = i := by
      simp only [id, named, Option.getD_some]
    refine ⟨?_, ?_, ?_⟩
    · intro broken
      exact sound.handle_post_flawed inBundled known posts rfl broken fresh
    · intro clean named unknown
      obtain ⟨i, named⟩ := Option.isSome_iff_exists.mp named
      have refused := sound.handle_post_unknown inBundled known posts clean named
        (idOf named ▸ unknown) fresh
      exact idOf named ▸ refused
    · intro clean stored
      have posted := sound.handle_post_stored inBundled known posts clean
        (fun i named => idOf named ▸ stored (Option.isSome_iff_exists.mpr ⟨i, named⟩)) fresh
      have nextIs : next = g.register ⟨store.insert saved, true⟩ := congrArg Prod.fst posted
      have here : (store.insert saved).schema.singular = schema.singular := congrArg _ own
      have repositories (other : Schema) : next.repositoryOf other =
          if other.singular = schema.singular then store.insert saved
          else g.repositoryOf other := by
        rw [nextIs, repositoryOf_register sound.arranged, here]
      have mine : next.repositoryOf schema = store.insert saved :=
        (repositories schema).trans (if_pos rfl)
      refine ⟨congrArg Prod.snd posted, mine, ?_, ?_⟩
      · intro other different
        exact (repositories other).trans (if_neg different)
      · intro later get fetches
        have soundNext : Sound (ofSettings all).settings schemas next :=
          sound.served (handle_served sound.arranged fresh post)
        have unique : store.records.keys.Nodup := (sound.backends _ inside).indexed.unique
        have named : saved.id = some id := rfl
        have stored : (next.repositoryOf schema).get? id = some saved := by
          rw [mine, Repository.get?_insert unique named, if_pos rfl]
        exact soundNext.handle_fetch inBundled known fetches stored later
  · intro fresh r failed
    have served := handle_served sound.arranged fresh r
    generalize g.handle fresh r = answered at served failed ⊢
    obtain ⟨next, response⟩ := answered
    dsimp only at served failed ⊢
    cases served with
    | same response => rfl
    | @saved b fresh record saved repository known clean save =>
      dsimp only at failed
      split at failed <;> omega
    | deleted known delete => simp [Response.ofStatus] at failed
  · intro schema known free record hr
    obtain ⟨inside, own, _⟩ := sound.resource (bundled schema known) known
    have obeyed := (sound.backends _ inside).obeyed
    simp only [own] at obeyed
    exact obeyed free record hr

/-- Settings under which a privilege needs a name. -/
def namedPrivileges : Settings :=
  { Settings.empty with rules := ⟨[("privilege", ⟨[("name", .mandatory)]⟩)]⟩ }

def postPrivilege (body : String) : Request :=
  ⟨.post, "/privileges".toList, ⟨[]⟩, some "application/json", body⟩

def getPrivilege (id : String) : Request :=
  ⟨.get, ("/privileges/" ++ id).toList, ⟨[]⟩, none, ""⟩

def privilegeNamed (name : String) : Record :=
  ⟨none, "", [("name", .text name), ("description", .null)], []⟩

/-- A privilege with a name is stored and can be fetched, one without is refused, and all that are
stored have names. -/
theorem stores_of_named_privileges :
    let g := opened [namedPrivileges] [.privilege]
    let posted := g.handle (.ofNat 1) (postPrivilege "\x7b\"name\":\"READ\"\x7d")
    let saved := (privilegeNamed "READ").withId (.ofNat 1)
    (∀ schema ∈ [Schema.privilege], schema ∈ Schema.bundled) ∧
      posted.2 = ⟨201, some saved.toJson⟩ ∧
      posted.1.handle (.ofNat 2) (getPrivilege "00000000-0000-0000-0000-000000000001") =
        (posted.1, .ok saved.toJson) ∧
      (g.handle (.ofNat 1) (postPrivilege "\x7b\x7d")).2.status = 422 ∧
      ∀ record ∈ (posted.1.repositoryOf .privilege).toList,
        (namedPrivileges.rulesOf "privilege").check record.field? = [] := by
  intro g posted saved
  have bundled : ∀ schema ∈ [Schema.privilege], schema ∈ Schema.bundled := by simp [Schema.bundled]
  have known : Schema.privilege ∈ [Schema.privilege] := List.mem_cons_self
  have named : Posts (postPrivilege "\x7b\"name\":\"READ\"\x7d") .privilege
      (privilegeNamed "READ") := by
    refine .of_text rfl rfl (by decide +kernel)
      (by decide +kernel : _ = (Json.obj [("name", .str "READ")]).text) (by decide +kernel)
      (.obj ?_) rfl
    exact List.forall_mem_singleton.mpr (.str "READ")
  have unnamed : Posts (postPrivilege "\x7b\x7d") .privilege (privilegeNamed "") :=
    .of_text rfl rfl (by decide +kernel) (by decide +kernel : _ = (Json.obj []).text)
      (by decide +kernel) (.obj nofun) rfl
  have fetches : Fetches (getPrivilege "00000000-0000-0000-0000-000000000001") .privilege
      (.ofNat 1) := ⟨rfl, by decide +kernel⟩
  have clean : (namedPrivileges.rulesOf "privilege").check (privilegeNamed "READ").field? = [] := by
    decide
  have broken : (namedPrivileges.rulesOf "privilege").check (privilegeNamed "").field? ≠ [] := by
    decide
  obtain ⟨posts, _, _⟩ := stores_along_requests [namedPrivileges] bundled []
  obtain ⟨_, _, stored⟩ := posts .privilege known (.ofNat 1) _ _ named
  have unsaved : (privilegeNamed "READ").isSaved ≠ true := by decide
  obtain ⟨answered, _, _, fetched⟩ := stored clean fun named => absurd named unsaved
  obtain ⟨refused, _, _⟩ := posts .privilege known (.ofNat 1) _ _ unnamed
  obtain ⟨_, _, obeyed⟩ := stores_along_requests [namedPrivileges] bundled
    [(.ofNat 1, postPrivilege "\x7b\"name\":\"READ\"\x7d")]
  exact ⟨bundled, answered, fetched _ _ fetches, congrArg (·.2.status) (refused broken),
    obeyed .privilege known (by decide)⟩

end Gateway

end BackOffice
