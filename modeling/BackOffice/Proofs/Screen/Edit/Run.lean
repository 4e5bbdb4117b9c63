import BackOffice.Proofs.Repository
import BackOffice.Proofs.Screen.Edit.Session

/-!
# Runs of a record screen

Whatever is done to a record screen, it knows where its record comes from. The record is either
unsaved, with links to be created only, or it has the identifier of a record that the screen keeps as
it is stored, and each editor still has the stored links in their places. Every act keeps this up,
calls that fail included.
-/
namespace BackOffice.Screen

open BackOffice.Association
open BackOffice.Field (Recognizer)

/-! ## Where the record comes from -/

/-- The links that a record had under a name when it was stored, if it was. -/
def linksBefore (previous : Option Record) (name : String) : List (Link Record) :=
  match previous with
  | some p => p.linksOf name
  | none => []

theorem settle_eq_linksBefore (r : Record) (previous : Option Record) :
    r.settle previous = { r with links := r.links.map fun (name, links) =>
      (name, Association.settle Record.key (linksBefore previous name) links) } := by
  cases previous <;> rfl

theorem names_settle (r : Record) (previous : Option Record) :
    (r.settle previous).links.map (·.1) = r.links.map (·.1) := by
  rw [settle_eq_linksBefore, List.map_map]
  rfl

theorem names_mapEditors (f : String → Editor → Editor) (editors : List (String × Editor)) :
    (EditScreen.mapEditors f editors).map (·.1) = editors.map (·.1) := by
  rw [EditScreen.mapEditors, List.map_map]
  rfl

theorem names_flatten (editors : List (String × Editor)) (r : Record) :
    (EditScreen.flatten editors r).links.map (·.1) = r.links.map (·.1) := by
  refine List.foldlRecOn (motive := fun q : Record => q.links.map (·.1) = r.links.map (·.1))
    editors _ rfl ?_
  intro q same x _
  have shape : (q.withLinks x.1 x.2.links).links.map (·.1) = q.links.map (·.1) := by
    simp [Record.withLinks]
  exact shape.trans same

theorem id_flatten (editors : List (String × Editor)) (r : Record) :
    (EditScreen.flatten editors r).id = r.id := by
  refine List.foldlRecOn (motive := fun q : Record => q.id = r.id) editors _ rfl ?_
  intro q same x _
  exact same

/-- The record is unsaved, or it has the identifier of the stored record that the screen knows; that
one is stored as it is known, unless it was deleted. -/
inductive Origin (s : EditScreen) (r : Repository) : Prop
  | unsaved (persisted : s.persisted = none) (mode : s.mode = .creating)
      (unnamed : s.record.id = none)
  | stored {p : Record} {id : Uuid} (persisted : s.persisted = some p) (mode : s.mode ≠ .creating)
      (own : p.id = some id) (same : s.record.id = some id)
      (names : p.links.map (·.1) = s.editors.map (·.1))
      (current : ∀ q, r.get? id = some q → q = p) (viewed : s.mode = .viewing → s.record = p)

namespace Session

/-- What holds after every act. -/
structure Sound (t : Session) : Prop where
  idle : t.screen.running = none
  keyed : t.backend.repository.records.KeyedBy Record.key
  distinct : (t.screen.editors.map (·.1)).Nodup
  names : t.screen.record.links.map (·.1) = t.screen.editors.map (·.1)
  origin : Origin t.screen t.backend.repository
  editors : ∀ x ∈ t.screen.editors, x.2.WellFormed ∧
    KeepsStored Record.key (linksBefore t.screen.persisted x.1) x.2.links

/-- The record that is saved next to a backend that stores it. -/
theorem save_shape {r next : Repository} {fresh : Uuid} {record saved : Record}
    (save : r.save fresh record = .ok (next, saved)) :
    next = r.insert saved ∧ saved.links.map (·.1) = record.links.map (·.1) ∧
      ∃ id, saved.id = some id ∧ (record.id = some id ∨ record.id = none ∧ id = fresh) := by
  obtain ⟨rfl, ⟨id, p, known, _, rfl⟩ | ⟨unsaved, rfl⟩⟩ := Repository.save_cases save
  · exact ⟨rfl, names_settle record _, id, known, .inl known⟩
  · exact ⟨rfl, names_settle (record.withId fresh) _, fresh, rfl, .inr ⟨unsaved, rfl⟩⟩

theorem get?_insert_saved {r : Repository} (keyed : r.records.KeyedBy Record.key) {saved : Record}
    {id : Uuid} (own : saved.id = some id) (k : Uuid) :
    (r.insert saved).get? k = if k = id then some saved else r.get? k :=
  Repository.get?_insert keyed.unique own k

/-- The editors once they have taken over the links of a stored record. -/
theorem loaded {editors : List (String × Editor)} (w : ∀ x ∈ editors, x.2.WellFormed) (p : Record) :
    ∀ x ∈ EditScreen.loadEditors editors p, x.2.WellFormed ∧
      KeepsStored Record.key (linksBefore (some p) x.1) x.2.links := by
  intro x hx
  obtain ⟨⟨name, e⟩, hy, rfl⟩ := List.mem_map.mp hx
  exact ⟨(w _ hy).act (.takeStored (p.linksOf name)), Sync.keepsStored_takeStored e _⟩

theorem names_loadEditors (editors : List (String × Editor)) (p : Record) :
    (EditScreen.loadEditors editors p).map (·.1) = editors.map (·.1) :=
  names_mapEditors (fun name e => e.takeStored (p.linksOf name)) editors

/-- Showing what was just stored leaves the session sound. -/
theorem Sound.showSaved {t : Session} (h : t.Sound) {s : EditScreen} (idle : s.running = none)
    (same : s.editors = t.screen.editors) {next : Repository} {fresh : Uuid}
    {record saved : Record} (names : record.links.map (·.1) = s.editors.map (·.1))
    (save : t.backend.repository.save fresh record = .ok (next, saved)) (reachable : Bool) :
    Sound ⟨s.showSaved saved, ⟨next, reachable⟩⟩ := by
  obtain ⟨rfl, shape, id, own, _⟩ := save_shape save
  have reloaded : (s.showSaved saved).editors.map (·.1) = s.editors.map (·.1) :=
    names_loadEditors s.editors saved
  have distinct : (s.editors.map (·.1)).Nodup := same ▸ h.distinct
  have named := (shape.trans names).trans reloaded.symm
  refine ⟨idle, h.keyed.insert saved, reloaded ▸ distinct, named, ?_, ?_⟩
  · refine .stored rfl nofun own own named ?_ fun _ => rfl
    intro q found
    rw [get?_insert_saved h.keyed own, if_pos rfl] at found
    exact (Option.some.inj found).symm
  · exact loaded (fun x hx => (h.editors x (same ▸ hx)).1) saved

theorem Sound.submitted {t : Session} (h : t.Sound) {record : Record} {fresh : Uuid}
    (names : record.links.map (·.1) = t.screen.editors.map (·.1))
    {outcome : Session × Except Problem Navigation} (s : Submitted t record fresh outcome) :
    outcome.1.Sound := by
  cases s with
  | failed violations message p =>
    refine ⟨rfl, h.keyed, h.distinct, h.names, ?_, h.editors⟩
    cases h.origin with
    | unsaved persisted mode id => exact .unsaved persisted mode id
    | stored persisted mode own same names current viewed =>
      exact .stored persisted mode own same names current viewed
  | stored violations n reachable save =>
    exact h.showSaved
      (s := { t.screen with running := none, violations, message := none }) rfl rfl names save _

theorem Sound.show? {t : Session} (h : t.Sound) {screen : Except Problem EditScreen}
    (shown : ∀ s, screen = .ok s → Sound ⟨s, t.backend⟩) : (t.show? screen).Sound := by
  cases result : screen with
  | error p => exact h
  | ok s => exact shown s result

theorem ok_of_ensureEnabled {s s' : EditScreen} {next : EditScreen}
    (h : (s.ensureEnabled.map fun _ => next) = .ok s') : s.mode ≠ .viewing ∧ next = s' := by
  rw [EditScreen.ensureEnabled] at h
  cases mode : s.mode with
  | viewing =>
    rw [mode] at h
    cases h
  | creating | editing =>
    rw [mode] at h
    cases h
    exact ⟨nofun, rfl⟩

theorem Sound.edit {t : Session} (h : t.Sound) (f : FieldEdit) {s : EditScreen}
    (edited : t.screen.edit f.apply = .ok s) : Sound ⟨s, t.backend⟩ := by
  obtain ⟨mode, rfl⟩ := ok_of_ensureEnabled edited
  refine ⟨h.idle, h.keyed, h.distinct, (f.names _).trans h.names, ?_, h.editors⟩
  cases h.origin with
  | unsaved persisted creating unnamed =>
    exact .unsaved persisted creating ((f.id _).trans unnamed)
  | stored persisted other own same names current viewed =>
    exact .stored persisted other own ((f.id _).trans same) names current fun viewing =>
      absurd viewing mode

/-- The editors once one of them was edited. -/
theorem linksEdited {editors : List (String × Editor)} {before : String → List (Link Record)}
    (h : ∀ x ∈ editors, x.2.WellFormed ∧ KeepsStored Record.key (before x.1) x.2.links)
    (name : String) (e : Association.Edit Record Uuid) :
    ∀ x ∈ EditScreen.mapEditors (fun n t => if n = name then t.edit e else t) editors,
      x.2.WellFormed ∧ KeepsStored Record.key (before x.1) x.2.links := by
  intro x hx
  obtain ⟨⟨n, t⟩, hy, rfl⟩ := List.mem_map.mp hx
  obtain ⟨w, kept⟩ := h _ hy
  dsimp only
  split
  · have moved := Sync.moves_edit w e
    exact ⟨w.moves moved, Sync.keepsStored_moves w kept moved⟩
  · exact ⟨w, kept⟩

theorem Sound.editLinks {t : Session} (h : t.Sound) (name : String)
    (e : Association.Edit Record Uuid) {s : EditScreen}
    (edited : t.screen.editLinks name (fun s => s.edit e) = .ok s) : Sound ⟨s, t.backend⟩ := by
  obtain ⟨_, rfl⟩ := ok_of_ensureEnabled edited
  have same := names_mapEditors (fun n s => if n = name then s.edit e else s) t.screen.editors
  refine ⟨h.idle, h.keyed, same ▸ h.distinct, h.names.trans same.symm, ?_, ?_⟩
  · cases h.origin with
    | unsaved persisted mode unnamed => exact .unsaved persisted mode unnamed
    | stored persisted mode own id names current viewed =>
      exact .stored persisted mode own id (names.trans same.symm) current viewed
  · exact linksEdited h.editors name e

theorem of_startEditing {s s' : EditScreen} (started : s.startEditing = .ok s') :
    s.mode = .viewing ∧ s' = { s with mode := .editing } := by
  obtain ⟨resource, rules, mode, record, persisted, editors, running, message, violations⟩ := s
  cases mode with
  | viewing =>
    cases started
    exact ⟨rfl, rfl⟩
  | creating | editing => cases started

theorem of_duplicate {s s' : EditScreen} (copied : s.duplicate = .ok s') :
    s.mode = .viewing ∧ s' = { s with
      mode := .creating
      record := s.record.forCopy
      persisted := none
      editors := EditScreen.resumeEditors s.editors s.record.forCopy } := by
  obtain ⟨resource, rules, mode, record, persisted, editors, running, message, violations⟩ := s
  cases mode with
  | viewing =>
    cases copied
    exact ⟨rfl, rfl⟩
  | creating | editing => cases copied

theorem Sound.startEditing {t : Session} (h : t.Sound) {s : EditScreen}
    (started : t.screen.startEditing = .ok s) : Sound ⟨s, t.backend⟩ := by
  obtain ⟨viewing, rfl⟩ := of_startEditing started
  refine ⟨h.idle, h.keyed, h.distinct, h.names, ?_, h.editors⟩
  cases h.origin with
  | unsaved _ mode _ => cases viewing.symm.trans mode
  | stored persisted mode own same names current viewed =>
    exact .stored persisted nofun own same names current nofun

/-- Links that are all to be created can be taken over from an unsaved owner. -/
theorem keepsStored_takeDraft (e : Editor) {links : List (Link Record)}
    (created : ∀ l ∈ links, l.tag = .created) :
    KeepsStored Record.key [] (e.takeDraft links).links := by
  refine ⟨[], (e.takeDraft links).links, rfl, rfl, nofun, ?_⟩
  intro l hl
  obtain ⟨x, hx, rfl⟩ := List.mem_map.mp hl
  obtain ⟨d, hd, rfl⟩ := List.mem_map.mp (OrderedMap.mem_of_mem_ofList hx)
  exact created d hd

/-- The editors once they have taken over the links of a record that is to be created. -/
theorem resumed {editors : List (String × Editor)} (w : ∀ x ∈ editors, x.2.WellFormed)
    {r : Record} (created : ∀ x ∈ r.links, ∀ l ∈ x.2, l.tag = .created) :
    ∀ x ∈ EditScreen.resumeEditors editors r, x.2.WellFormed ∧
      KeepsStored Record.key (linksBefore none x.1) x.2.links := by
  intro x hx
  obtain ⟨⟨name, e⟩, hy, rfl⟩ := List.mem_map.mp hx
  have own : ∀ l ∈ r.linksOf name, l.tag = .created := by
    intro l hl
    rw [Record.linksOf] at hl
    cases found : r.links.lookup name with
    | none =>
      rw [found] at hl
      cases hl
    | some links =>
      rw [found] at hl
      exact created _ (OrderedMap.mem_of_get? (m := ⟨r.links⟩) found) l hl
  exact ⟨(w _ hy).act (.takeDraft (r.linksOf name)), keepsStored_takeDraft e own⟩

theorem created_forCopy (r : Record) : ∀ x ∈ r.forCopy.links, ∀ l ∈ x.2, l.tag = .created := by
  intro x hx l hl
  obtain ⟨⟨name, links⟩, _, rfl⟩ := List.mem_map.mp hx
  obtain ⟨_, _, rfl⟩ := List.mem_map.mp hl
  rfl

theorem names_forCopy (r : Record) : r.forCopy.links.map (·.1) = r.links.map (·.1) := by
  rw [Record.forCopy, List.map_map]
  rfl

theorem Sound.duplicate {t : Session} (h : t.Sound) {s : EditScreen}
    (copied : t.screen.duplicate = .ok s) : Sound ⟨s, t.backend⟩ := by
  obtain ⟨_, rfl⟩ := of_duplicate copied
  have same : (EditScreen.resumeEditors t.screen.editors t.screen.record.forCopy).map (·.1) =
      t.screen.editors.map (·.1) := names_mapEditors _ _
  have names := (names_forCopy t.screen.record).trans (h.names.trans same.symm)
  refine ⟨h.idle, h.keyed, same ▸ h.distinct, names, .unsaved rfl rfl rfl, ?_⟩
  exact resumed (fun x hx => (h.editors x hx).1) (created_forCopy t.screen.record)

theorem cancel_cases {s s' : EditScreen} (left : s.cancel.map (·.1) = .ok s') :
    (s.persisted = none ∧ s' = { s with violations := [] }) ∨
      ∃ p, s.persisted = some p ∧ s' = { s with
        editors := EditScreen.loadEditors s.editors p
        record := p
        mode := .viewing
        violations := [] } := by
  rw [EditScreen.cancel, Mode.leaveBy, Mode.ensure] at left
  by_cases allowed : s.mode.allows .cancel = true
  · rw [if_pos allowed] at left
    cases persisted : s.persisted with
    | none =>
      rw [persisted] at left
      cases left
      exact .inl ⟨rfl, rfl⟩
    | some p =>
      rw [persisted] at left
      cases left
      exact .inr ⟨p, rfl, rfl⟩
  · rw [if_neg allowed] at left
    cases left

theorem Sound.cancel {t : Session} (h : t.Sound) {s : EditScreen}
    (left : t.screen.cancel.map (·.1) = .ok s) : Sound ⟨s, t.backend⟩ := by
  obtain ⟨_, rfl⟩ | ⟨p, persisted, rfl⟩ := cancel_cases left
  · refine ⟨h.idle, h.keyed, h.distinct, h.names, ?_, h.editors⟩
    cases h.origin with
    | unsaved persisted mode unnamed => exact .unsaved persisted mode unnamed
    | stored persisted mode own same names current viewed =>
      exact .stored persisted mode own same names current viewed
  · have reloaded := names_loadEditors t.screen.editors p
    cases h.origin with
    | unsaved none _ _ =>
      rw [persisted] at none
      cases none
    | stored known mode own same names current viewed =>
      cases persisted.symm.trans known
      have named := names.trans reloaded.symm
      refine ⟨h.idle, h.keyed, reloaded ▸ h.distinct, named, ?_, ?_⟩
      · exact .stored persisted nofun own own named current fun _ => rfl
      · have editors := loaded (fun x hx => (h.editors x hx).1) p
        rw [← persisted] at editors
        exact editors

theorem Sound.delete {t : Session} (h : t.Sound) : t.delete.1.Sound := by
  obtain ⟨message, failed⟩ | ⟨id, deleted⟩ := delete_cases h.idle
  · rw [failed]
    refine ⟨rfl, h.keyed, h.distinct, h.names, ?_, h.editors⟩
    cases h.origin with
    | unsaved persisted mode unnamed => exact .unsaved persisted mode unnamed
    | stored persisted mode own same names current viewed =>
      exact .stored persisted mode own same names current viewed
  · rw [deleted]
    refine ⟨rfl, h.keyed.erase id, h.distinct, h.names, ?_, h.editors⟩
    cases h.origin with
    | unsaved persisted mode unnamed => exact .unsaved persisted mode unnamed
    | stored persisted mode own same names current viewed =>
      refine .stored persisted mode own same names (fun q found => current q ?_) viewed
      have left := OrderedMap.mem_of_get? found
      exact (OrderedMap.get?_eq_some_iff h.keyed.unique).mpr (List.mem_filter.mp left).1

/-- Every act keeps a session sound. -/
theorem Sound.act [Recognizer] {t : Session} (h : t.Sound) (a : Act) : (t.act a).Sound := by
  cases a with
  | connection reachable =>
    refine ⟨h.idle, h.keyed, h.distinct, h.names, ?_, h.editors⟩
    exact h.origin
  | edit f => exact h.show? fun _ => h.edit f
  | editLinks name e => exact h.show? fun _ => h.editLinks name e
  | startEditing => exact h.show? fun _ => h.startEditing
  | duplicate => exact h.show? fun _ => h.duplicate
  | cancel => exact h.show? fun _ => h.cancel
  | save fresh =>
    exact h.submitted ((names_flatten _ _).trans h.names) (save_cases h.idle fresh)
  | changeStatus fresh status =>
    have names : (t.screen.record.withStatus status).links.map (·.1) =
      t.screen.editors.map (·.1) := h.names
    exact h.submitted names (changeStatus_cases h.idle fresh status)
  | delete => exact h.delete

theorem Sound.run [Recognizer] {t : Session} (h : t.Sound) (acts : List Act) :
    (t.run acts).Sound := by
  refine List.foldlRecOn acts Session.act h ?_
  intro u w a _
  exact w.act a

/-! ## Ways in -/

/-- How a screen over the associations of the given names comes up: on a record that is stored, or
on one to be created that has no identifier and whose links are all to be created. -/
inductive Start (names : List String) : Session → Prop
  | view {b : Backend} {resource : String} {rules : Ruleset} {id : Uuid} {screen : EditScreen}
      (w : b.repository.WellFormed) (links : b.repository.schema.links.map (·.1) = names)
      (shown : EditScreen.view resource rules names id (b.get id) = .ok screen) :
      Start names ⟨screen, b⟩
  | create {b : Backend} (resource : String) (rules : Ruleset) {record : Record}
      (w : b.repository.WellFormed) (unnamed : record.id = none)
      (links : record.links.map (·.1) = names)
      (created : ∀ x ∈ record.links, ∀ l ∈ x.2, l.tag = .created) :
      Start names ⟨EditScreen.create resource rules names record, b⟩

theorem view_cases {b : Backend} {resource : String} {rules : Ruleset} {names : List String}
    {id : Uuid} {screen : EditScreen}
    (shown : EditScreen.view resource rules names id (b.get id) = .ok screen) :
    ∃ p, b.repository.get? id = some p ∧ screen = ⟨resource, rules, .viewing, p, some p,
      EditScreen.loadEditors (EditScreen.emptyEditors names) p, none, none, []⟩ := by
  rw [Backend.get, Backend.ensure] at shown
  by_cases reachable : b.reachable = true
  · rw [if_pos reachable] at shown
    cases found : b.repository.get? id with
    | none =>
      simp only [found] at shown
      cases shown
    | some p =>
      simp only [found] at shown
      cases shown
      exact ⟨p, rfl, rfl⟩
  · rw [if_neg reachable] at shown
    cases shown

theorem names_emptyEditors (names : List String) :
    (EditScreen.emptyEditors names).map (·.1) = names := by
  rw [EditScreen.emptyEditors, List.map_map]
  exact List.map_id names

theorem wellFormed_emptyEditors {names : List String} :
    ∀ x ∈ EditScreen.emptyEditors names, x.2.WellFormed := by
  intro x hx
  obtain ⟨name, _, rfl⟩ := List.mem_map.mp hx
  exact Sync.wellFormed_empty

theorem Start.sound {names : List String} (distinct : names.Nodup) {t : Session}
    (start : Start names t) : t.Sound := by
  have empty := names_emptyEditors names
  cases start with
  | @view b resource rules id screen w links shown =>
    obtain ⟨p, found, rfl⟩ := view_cases shown
    have stored := Repository.mem_toList_of_get? found
    obtain ⟨own, known⟩ := Option.isSome_iff_exists.mp (w.saved p stored)
    have key : p.key = id :=
      (w.keyed.mem_entries_iff.mp (OrderedMap.mem_of_get? found)).2
    rw [Record.key_of_id known] at key
    subst key
    have named : p.links.map (·.1) = names := by
      cases w.fits p stored with
      | mk _ fit => exact fit.names.trans links
    have same : (EditScreen.loadEditors (EditScreen.emptyEditors names) p).map (·.1) = names :=
      (names_loadEditors _ p).trans empty
    have viewing : Mode.viewing ≠ .creating := by decide
    refine ⟨rfl, w.keyed, same.symm ▸ distinct, named.trans same.symm, ?_, ?_⟩
    · refine .stored rfl viewing known known (named.trans same.symm) ?_ fun _ => rfl
      intro q found'
      exact Option.some.inj (found'.symm.trans found)
    · exact loaded wellFormed_emptyEditors p
  | @create b resource rules record w unnamed links created =>
    have same : (EditScreen.resumeEditors (EditScreen.emptyEditors names) record).map (·.1) =
        names := (names_mapEditors _ _).trans empty
    refine ⟨rfl, w.keyed, same.symm ▸ distinct, links.trans same.symm, .unsaved rfl rfl unnamed, ?_⟩
    exact resumed wellFormed_emptyEditors created

end Session

end BackOffice.Screen
