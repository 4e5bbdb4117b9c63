import BackOffice.Proofs.Association.Resubmitting
import BackOffice.Proofs.Record.Comparing
import BackOffice.Proofs.Repository.Calls
import BackOffice.Proofs.Screen.Edit.Failing

/-!
# Edits that a record screen notices

While a record is edited, edits are noticed in two ways: the document of the record is compared with
that of the stored one, and the tags of the editors are looked through. Neither looks at what a save
would submit. Still nothing goes unnoticed, since records of one document are equal and editors in
which every link is kept have the stored links, in their order. Nor is anything noticed that was
taken back: the screen has no edits exactly if its record and its links are the stored ones.
-/
namespace BackOffice

open BackOffice.Field (Recognizer)

namespace Association

variable {α κ : Type} [DecidableEq κ] {keyOf : α → κ} {stored links : List (Link α)}

omit [DecidableEq κ] in
theorem map_stored_of_kept (kept : ∀ l ∈ links, l.tag = .kept) :
    (links.map (·.target)).map .stored = links := by
  have each : ∀ l ∈ links, (Link.stored ∘ Link.target) l = id l := by
    rintro ⟨target, tag⟩ hl
    cases kept _ hl
    rfl
  rw [List.map_map, List.map_congr_left each, List.map_id]

/-- Links that are kept, each of another key, are taken over as they are. -/
theorem map_stored_targets (distinct : (links.map (Link.key keyOf)).Nodup)
    (kept : ∀ l ∈ links, l.tag = .kept) : (targets keyOf links).values.map .stored = links := by
  have keys : ((links.map (·.target)).map keyOf).Nodup := by rwa [List.map_map]
  rw [values_targets, Keyed.latestByKey_of_nodup keys, map_stored_of_kept kept]

/-- Edited links are all kept only if they are the stored ones. -/
theorem KeepsStored.kept_iff (h : KeepsStored keyOf stored links)
    (distinct : (stored.map (Link.key keyOf)).Nodup) (settled : ∀ l ∈ stored, l.tag = .kept) :
    (∀ l ∈ links, l.tag = .kept) ↔ links = stored := by
  constructor
  · intro kept
    obtain ⟨olds, news, rfl, places, -, created⟩ := h
    have nothing : news = [] := by
      rw [List.eq_nil_iff_forall_not_mem]
      intro l hl
      cases (kept l (List.mem_append_right olds hl)).symm.trans (created l hl)
    have olden : ∀ l ∈ olds, l.tag = .kept := fun l hl => kept l (List.mem_append_left news hl)
    calc olds ++ news
        = olds := by rw [nothing, List.append_nil]
      _ = (olds.map (·.target)).map .stored := (map_stored_of_kept olden).symm
      _ = stored := by rw [places, map_stored_targets distinct settled]
  · rintro rfl
    exact settled

end Association

open BackOffice.Association

namespace Record

variable {r : Record}

theorem IsSettled.linksOf (h : r.IsSettled) (name : String) :
    ((r.linksOf name).map (Link.key key)).Nodup ∧ ∀ l ∈ r.linksOf name, l.tag = .kept := by
  rw [Record.linksOf]
  cases found : r.links.lookup name with
  | none => exact ⟨List.nodup_nil, List.forall_mem_nil _⟩
  | some links => exact h _ (OrderedMap.mem_of_get? (m := ⟨r.links⟩) found)

theorem withLinks_linksOf (distinct : (r.links.map (·.1)).Nodup) (name : String) :
    r.withLinks name (r.linksOf name) = r := by
  have each : ∀ x ∈ r.links, (x.1, if x.1 = name then r.linksOf name else x.2) = x := by
    intro x hx
    by_cases same : x.1 = name
    · have found : r.links.lookup x.1 = some x.2 :=
        (OrderedMap.get?_eq_some_iff (m := ⟨r.links⟩) distinct).mpr hx
      have own : r.linksOf name = x.2 := by rw [Record.linksOf, ← same, found, Option.getD_some]
      rw [if_pos same, own]
    · rw [if_neg same]
  have links : (r.withLinks name (r.linksOf name)).links = r.links :=
    (List.map_congr_left each).trans (List.map_id' r.links)
  obtain ⟨id, status, values, stored⟩ := r
  exact congrArg (mk id status values) links

theorem isSettled_of_save {r next : Repository} {fresh : Uuid} {record saved : Record}
    (save : r.save fresh record = .ok (next, saved)) : saved.IsSettled := by
  obtain ⟨_, ⟨_, _, _, _, rfl⟩ | ⟨_, rfl⟩⟩ := Repository.save_cases save
  · exact isSettled_settle record _
  · exact isSettled_settle (record.withId fresh) none

/-- A record of a schema as a save stored it. -/
inductive Stored (s : Schema) : Record → Prop
  | mk {r next : Repository} {fresh : Uuid} {record saved : Record} (w : r.WellFormed)
      (schema : r.schema = s) (fits : Fits s record)
      (save : r.save fresh record = .ok (next, saved)) : Stored s saved

theorem Stored.fits {s : Schema} (distinct : (s.links.map (·.1)).Nodup) (h : Stored s r) :
    Fits s r := by
  cases h with
  | mk w schema fits save =>
    subst schema
    exact w.fits_saved distinct fits save

theorem Stored.isSettled {s : Schema} (h : Stored s r) : r.IsSettled := by
  cases h with
  | mk w schema fits save => exact isSettled_of_save save

end Record

theorem Schema.Verbatim.distinct_links {n : Nat} {s : Schema} (h : s.Verbatim n) :
    (s.links.map (·.1)).Nodup := by
  cases h with
  | mk distinct _ _ =>
    exact (List.nodup_append.mp (List.nodup_cons.mp distinct).2).2.1

namespace Screen.EditScreen

open BackOffice.Record

variable {s : Schema} {screen : EditScreen} {a : Act} {p : Record}

/-- Acts on records of a schema. A record is changed to another one of the schema, associations are
edited, and what a service answers is stored. -/
def Act.Concerns (s : Schema) : Act → Prop
  | .edit f => ∀ r, Fits s r → Fits s (f r)
  | .editLinks _ f => ∃ e : Association.Edit Record Uuid, f = (·.edit e)
  | .save answer | .changeStatus _ answer => ∀ r, answer = .ok r → Stored s r
  | .startEditing | .duplicate | .cancel | .delete _ => True

/-- The screen shows a record of the schema and knows a stored one, unless it creates the record.
Its editors keep the stored links in their places. -/
structure Tracks (s : Schema) (screen : EditScreen) : Prop where
  fits : Fits s screen.record
  names : screen.editors.map (·.1) = s.links.map (·.1)
  editors : ∀ x ∈ screen.editors, x.2.WellFormed ∧
    KeepsStored Record.key (linksBefore screen.persisted x.1) x.2.links
  stored : ∀ p, screen.persisted = some p → Stored s p
  known : screen.mode ≠ .creating → screen.persisted ≠ none

/-- Showing a stored record starts from its links. -/
theorem tracks_loaded {editors : List (String × Editor)}
    (wellFormed : ∀ x ∈ editors, x.2.WellFormed) (names : editors.map (·.1) = s.links.map (·.1))
    (distinct : (s.links.map (·.1)).Nodup) (stored : Stored s p) (record : screen.record = p)
    (persisted : screen.persisted = some p) (loaded : screen.editors = loadEditors editors p) :
    Tracks s screen := by
  refine ⟨record ▸ stored.fits distinct, ?_, ?_, ?_, ?_⟩
  · rw [loaded, Session.names_loadEditors, names]
  · rw [loaded, persisted]
    exact Session.loaded wellFormed p
  · intro q known
    cases persisted.symm.trans known
    exact stored
  · rw [persisted]
    exact fun _ => Option.some_ne_none p

theorem Tracks.step (h : Tracks s screen) (distinct : (s.links.map (·.1)).Nodup)
    {next : EditScreen} (concerns : a.Concerns s) (step : Step screen a next) : Tracks s next := by
  have wellFormed : ∀ x ∈ screen.editors, x.2.WellFormed := fun x hx => (h.editors x hx).1
  cases step with
  | same violations message => exact ⟨h.fits, h.names, h.editors, h.stored, h.known⟩
  | edited f enabled => exact ⟨concerns _ h.fits, h.names, h.editors, h.stored, h.known⟩
  | linksEdited name f enabled =>
    obtain ⟨e, rfl⟩ := concerns
    have names : (mapEditors (fun n t => if n = name then t.edit e else t) screen.editors).map
        (·.1) = s.links.map (·.1) := (names_mapEditors _ _).trans h.names
    exact ⟨h.fits, names, Session.linksEdited h.editors name e, h.stored, h.known⟩
  | editing viewing =>
    have known : screen.persisted ≠ none := h.known (by simp [viewing])
    exact ⟨h.fits, h.names, h.editors, h.stored, fun _ => known⟩
  | copied viewing =>
    have names : (resumeEditors screen.editors screen.record.forCopy).map (·.1) =
        s.links.map (·.1) := (names_mapEditors _ _).trans h.names
    have resumed := Session.resumed wellFormed (Session.created_forCopy screen.record)
    refine ⟨h.fits.forCopy, names, resumed, ?_, fun other => absurd rfl other⟩
    rintro q ⟨⟩
  | restored persisted enabled =>
    exact tracks_loaded wellFormed h.names distinct (h.stored _ persisted) rfl persisted rfl
  | saved record enabled | statusChanged status record viewing =>
    exact tracks_loaded wellFormed h.names distinct (concerns record rfl) rfl rfl rfl

theorem Tracks.hasEdits_eq_false_iff {n : Nat} (h : Tracks s screen) (verbatim : s.Verbatim n)
    (editing : screen.mode = .editing) (known : screen.persisted = some p) :
    screen.hasEdits = false ↔
      screen.record = p ∧ ∀ x ∈ screen.editors, x.2.links = p.linksOf x.1 := by
  have stored := h.stored p known
  have kept : ∀ x ∈ screen.editors, KeepsStored Record.key (p.linksOf x.1) x.2.links := by
    have editors := h.editors
    rw [known] at editors
    exact fun x hx => (editors x hx).2
  have links : screen.editorsPending = false ↔
      ∀ x ∈ screen.editors, x.2.links = p.linksOf x.1 := by
    simp only [editorsPending, List.any_eq_false, Bool.not_eq_true]
    refine forall₂_congr fun x hx => ?_
    obtain ⟨once, settled⟩ := stored.isSettled.linksOf x.1
    rw [Sync.isPending_eq_false_iff, (kept x hx).kept_iff once settled]
  have documents : p.toJson.agrees screen.record.toJson = true ↔ screen.record = p := by
    rw [verbatim.agrees_toJson_iff (stored.fits verbatim.distinct_links) h.fits, eq_comm]
  rw [hasEdits, editing, known]
  simp only [Bool.or_eq_false_iff, Bool.not_eq_false', links, documents, and_comm]

/-- A record with its own links put in place by editors is submitted as it is. -/
theorem flatten_of_own {editors : List (String × Editor)} (distinct : (p.links.map (·.1)).Nodup)
    (own : ∀ x ∈ editors, x.2.links = p.linksOf x.1) : flatten editors p = p := by
  induction editors with
  | nil => rfl
  | cons x rest ih =>
    obtain ⟨first, others⟩ := List.forall_mem_cons.mp own
    have same : p.withLinks x.1 x.2.links = p := by rw [first, withLinks_linksOf distinct]
    calc flatten (x :: rest) p
        = flatten rest (p.withLinks x.1 x.2.links) := rfl
      _ = flatten rest p := by rw [same]
      _ = p := ih others

theorem flatten_of_links {editors : List (String × Editor)}
    (distinct : (editors.map (·.1)).Nodup)
    (names : p.links.map (·.1) = editors.map (·.1))
    (own : ∀ x ∈ editors, x.2.links = p.linksOf x.1) : flatten editors p = p :=
  flatten_of_own (names ▸ distinct) own

/-- A screen that was opened on a stored record of a bundled schema, after whatever was done to it
and however often calls failed or were given up: while it edits, it has edits exactly if its record
is not the stored one or an editor has not the stored links. Without edits, what a save would submit
is the stored record. -/
theorem noticed_along_run [Recognizer] (bundled : s ∈ Schema.bundled) {stored : Record}
    (saved : Stored s stored) {resource : String} {rules : Ruleset} {id : Uuid}
    {begin : EditScreen}
    (shown : view resource rules (s.links.map (·.1)) id (.ok (some stored)) = .ok begin)
    {turns : List Turn} (concerns : ∀ t ∈ turns, t.asked.Concerns s)
    (editing : (begin.after turns).mode = .editing) :
    let screen := begin.after turns
    ∃ p, screen.persisted = some p ∧ Stored s p ∧
      (screen.hasEdits = false ↔
        screen.record = p ∧ ∀ x ∈ screen.editors, x.2.links = p.linksOf x.1) ∧
      (screen.hasEdits = false → flatten screen.editors screen.record = p ∧
        ∀ answer c, screen.call? (.save answer) = some c → c = .save p) := by
  intro screen
  have verbatim := Schema.verbatim_of_bundled bundled
  have distinct := verbatim.distinct_links
  have begun : Tracks s begin := by
    cases shown
    exact tracks_loaded Session.wellFormed_emptyEditors (Session.names_emptyEditors _) distinct
      saved rfl rfl rfl
  have tracks : Tracks s screen := by
    refine kept_after (P := Tracks s) ?_ ?_ begun concerns
    · exact fun t running violations h => ⟨h.fits, h.names, h.editors, h.stored, h.known⟩
    · exact fun t a next concerns h step => h.step distinct concerns step
  obtain ⟨p, known⟩ := Option.ne_none_iff_exists'.mp (tracks.known (by simp [screen, editing]))
  have noticed := tracks.hasEdits_eq_false_iff verbatim editing known
  have own := tracks.stored p known
  refine ⟨p, known, own, noticed, fun unedited => ?_⟩
  obtain ⟨record, links⟩ := noticed.mp unedited
  have named : p.links.map (·.1) = screen.editors.map (·.1) := by
    cases own.fits distinct with
    | mk _ fit => exact fit.names.trans tracks.names.symm
  have submitted : flatten screen.editors screen.record = p := by
    rw [record]
    exact flatten_of_links (tracks.names ▸ distinct) named links
  refine ⟨submitted, fun answer c called => ?_⟩
  obtain ⟨_, _, _, refused⟩ | ⟨_, _, started⟩ := screen.startSave_refused_or
  · simp [call?, refused, Except.toOption] at called
  · simp only [call?, started, Except.toOption, Option.map_some, Option.some.injEq] at called
    rw [← called, submitted]

/-- A role with two privileges as it is stored. -/
def storedRole : Record := (Session.draftedRole.withId (.ofNat 7)).settle none

def openedRole : EditScreen :=
  ⟨"role", .empty, .viewing, storedRole, some storedRole,
    loadEditors (emptyEditors ["privileges", "users"]) storedRole, none, none, []⟩

/-- The role is renamed, one privilege is struck and another one given, and a save fails. Then all
of it is taken back. -/
def detour : List Turn :=
  [.startEditing, .edit (renamedTo "Controller"),
    .editLinks "privileges" (·.edit (.strike (.ofNat 1))),
    .editLinks "privileges" (·.edit (.offer [Session.grant 2, Session.grant 3])),
    .editLinks "privileges" (·.edit (.toggle (.ofNat 3))), .save (.error (.offline "save")),
    .edit (renamedTo "Auditor"), .editLinks "privileges" (·.edit (.toggle (.ofNat 3))),
    .editLinks "privileges" (·.edit (.strike (.ofNat 1)))].map .finished

theorem fits_renamedTo {r : Record} (name : String) (fits : Fits .role r) :
    Fits .role (renamedTo name r) := by
  cases fits with
  | mk values links =>
    refine .mk ⟨rfl, ?_⟩ links
    simp only [renamedTo, Schema.role, List.zip_cons_cons, List.zip_nil_left, List.forall_mem_cons]
    exact ⟨rfl, rfl, List.forall_mem_nil _⟩

theorem stored_storedRole : Stored .role storedRole := by
  have first : Fits .privilege (Session.grant 1) := .mk (by decide) .nil
  have second : Fits .privilege (Session.grant 2) := .mk (by decide) .nil
  have fits : Fits .role Session.draftedRole := by
    refine .mk (by decide) (.cons ?_ (.cons nofun .nil))
    simp [first, second]
  have unsaved : Session.draftedRole.id = none := rfl
  have save : (Repository.empty .role).save (.ofNat 7) Session.draftedRole =
      .ok ((Repository.empty .role).insert storedRole, storedRole) := by
    simp only [Repository.save, unsaved, storedRole]
  exact .mk (Repository.wellFormed_empty .role) rfl fits save

theorem noticed_of_renamed_role :
    let screen := openedRole.after detour
    Schema.role ∈ Schema.bundled ∧ Stored .role storedRole ∧
      view "role" .empty (Schema.role.links.map (·.1)) (.ofNat 7) (.ok (some storedRole)) =
        .ok openedRole ∧
      (∀ t ∈ detour, t.asked.Concerns .role) ∧ screen.mode = .editing ∧
      (openedRole.after (detour.take 7)).hasEdits = true ∧ screen.hasEdits = false ∧
      ∃ p, screen.persisted = some p ∧ flatten screen.editors screen.record = p := by
  intro screen
  have bundled : Schema.role ∈ Schema.bundled := by simp [Schema.bundled]
  have shown : view "role" .empty (Schema.role.links.map (·.1)) (.ofNat 7)
      (.ok (some storedRole)) = .ok openedRole := rfl
  have concerns : ∀ t ∈ detour, t.asked.Concerns .role := by
    simp only [detour, List.map_cons, List.map_nil, List.forall_mem_cons, Turn.asked, Act.Concerns]
    refine ⟨trivial, fun _ => fits_renamedTo _, ⟨_, rfl⟩, ⟨_, rfl⟩, ⟨_, rfl⟩, ?_,
      fun _ => fits_renamedTo _, ⟨_, rfl⟩, ⟨_, rfl⟩, List.forall_mem_nil _⟩
    rintro r ⟨⟩
  have editing : screen.mode = .editing := rfl
  have edits : (openedRole.after (detour.take 7)).hasEdits = true := by decide +kernel
  have unedited : screen.hasEdits = false := by decide +kernel
  obtain ⟨p, known, _, _, submitted⟩ :=
    noticed_along_run bundled stored_storedRole shown concerns editing
  exact ⟨bundled, stored_storedRole, shown, concerns, editing, edits, unedited, p, known,
    (submitted unedited).1⟩

end Screen.EditScreen

end BackOffice
