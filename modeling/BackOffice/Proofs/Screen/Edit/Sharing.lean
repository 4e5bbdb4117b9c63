import BackOffice.Proofs.Screen.Edit.Noticing

/-!
# Record screens that are not alone

Others may write to the backend while a record is shown. Then the screen holds old links, and a
change of the status submits them. They have no effect: whatever a save stored is kept, a screen that
views a record has it as some save stored it, and links that are kept say nothing. So the links that
others have stored meanwhile stay as they are.

The invariant is that everything stored under the identifier that the screen knows was stored by a
save. Acts of the screen and calls of others keep it.
-/
namespace BackOffice

open BackOffice.Field (Recognizer)

namespace Association

variable {α κ : Type} [DecidableEq κ] {keyOf : α → κ} {previous submitted : List (Link α)}

/-- Links that are kept leave settled ones as they are, whatever their targets. -/
theorem settle_of_kept (distinct : (previous.map (Link.key keyOf)).Nodup)
    (settled : ∀ l ∈ previous, l.tag = .kept) (kept : ∀ l ∈ submitted, l.tag = .kept) :
    settle keyOf previous submitted = previous := by
  have idle : submitted.foldl (settleOne keyOf) (targets keyOf previous) =
      targets keyOf previous := by
    induction submitted with
    | nil => rfl
    | cons l rest ih =>
      obtain ⟨first, others⟩ := List.forall_mem_cons.mp kept
      have same : settleOne keyOf (targets keyOf previous) l = targets keyOf previous := by
        simp only [settleOne, first]
      rw [List.foldl_cons, same, ih others]
  rw [settle_eq, idle, map_stored_targets distinct settled]

end Association

open BackOffice.Association

namespace Record

variable {r p q : Record}

theorem map_linksOf (distinct : (r.links.map (·.1)).Nodup) :
    (r.links.map (·.1)).map (fun name => (name, r.linksOf name)) = r.links := by
  have each : ∀ x ∈ r.links, ((fun name => (name, r.linksOf name)) ∘ (·.1)) x = x := by
    intro x hx
    have found : r.links.lookup x.1 = some x.2 :=
      (OrderedMap.get?_eq_some_iff (m := ⟨r.links⟩) distinct).mpr hx
    rw [Function.comp_apply, Record.linksOf, found, Option.getD_some]
  rw [List.map_map, List.map_congr_left each, List.map_id']

/-- Settled against a settled record, the links of another settled one give way. -/
theorem IsSettled.settle_links (h : p.IsSettled) (other : q.IsSettled)
    (distinct : (q.links.map (·.1)).Nodup) (names : p.links.map (·.1) = q.links.map (·.1)) :
    (p.settle (some q)).links = q.links := by
  have each : ∀ x ∈ p.links, (x.1, Association.settle key (q.linksOf x.1) x.2) =
      ((fun name => (name, q.linksOf name)) ∘ (·.1)) x := by
    intro x hx
    obtain ⟨once, settled⟩ := other.linksOf x.1
    exact Prod.ext rfl (settle_of_kept once settled (h x hx).2)
  calc (p.settle (some q)).links
      = p.links.map ((fun name => (name, q.linksOf name)) ∘ (·.1)) := List.map_congr_left each
    _ = (q.links.map (·.1)).map fun name => (name, q.linksOf name) := by
      rw [← List.map_map, names]
    _ = q.links := map_linksOf distinct

theorem IsSettled.settle_withStatus (h : p.IsSettled) (other : q.IsSettled)
    (distinct : (q.links.map (·.1)).Nodup) (names : p.links.map (·.1) = q.links.map (·.1))
    (status : String) :
    (p.withStatus status).settle (some q) = { p with status, links := q.links } :=
  congrArg (fun links => { p with status, links }) (h.settle_links other distinct names)

end Record

namespace Repository

variable {r : Repository} {id : Uuid} {names : List String}

/-- Whatever is stored under an identifier has settled links under the given names. -/
def SettledAt (r : Repository) (names : List String) (id : Uuid) : Prop :=
  ∀ q, r.get? id = some q → q.IsSettled ∧ q.links.map (·.1) = names

theorem settledAt_saved (indexed : r.Indexed) {next : Repository} {fresh : Uuid}
    {record saved : Record} (named : record.links.map (·.1) = names)
    (save : r.save fresh record = .ok (next, saved)) (own : saved.id = some id) :
    next.SettledAt names id := by
  obtain ⟨rfl, shape, _⟩ := Screen.Session.save_shape save
  intro q found
  rw [get?_insert indexed.unique own, if_pos rfl] at found
  cases found
  exact ⟨Record.isSettled_of_save save, shape.trans named⟩

theorem SettledAt.save (h : r.SettledAt names id) (indexed : r.Indexed) {next : Repository}
    {fresh : Uuid} {record saved : Record} (named : record.links.map (·.1) = names)
    (save : r.save fresh record = .ok (next, saved)) : next.SettledAt names id := by
  obtain ⟨stored, _, k, own, _⟩ := Screen.Session.save_shape save
  by_cases same : id = k
  · exact settledAt_saved indexed named save (same ▸ own)
  · intro q found
    rw [stored, get?_insert indexed.unique own, if_neg same] at found
    exact h q found

theorem SettledAt.erase (h : r.SettledAt names id) (k : Uuid) :
    SettledAt { r with records := r.records.erase k } names id := by
  intro q found
  have left : (if id = k then none else r.get? id) = some q := OrderedMap.get?_erase.symm.trans found
  split at left
  · cases left
  · exact h q left

/-- Calls of others keep it, as long as the records that they submit have the links. -/
theorem SettledAt.respond [Recognizer] (h : r.SettledAt names id) (indexed : r.Indexed) {c : Call}
    (named : ∀ fresh record, c = .save fresh record → record.links.map (·.1) = names) :
    (r.respond c).1.SettledAt names id := by
  cases c with
  | search c => exact h
  | get id => exact h
  | save fresh record =>
    cases save : r.save fresh record with
    | error p => simpa only [Repository.respond, save] using h
    | ok stored =>
      simpa only [Repository.respond, save] using h.save indexed (named fresh record rfl) save
  | delete k =>
    cases delete : r.delete k with
    | error p => simpa only [Repository.respond, delete] using h
    | ok next =>
      rw [Repository.delete] at delete
      split at delete
      · next known =>
        cases delete
        simpa only [Repository.respond, Repository.delete, if_pos known] using h.erase k
      · cases delete

end Repository

theorem Backend.save_of_known {b : Backend} (reachable : b.reachable = true) {record q : Record}
    {id : Uuid} (own : record.id = some id) (found : b.repository.get? id = some q) {fresh : Uuid} :
    b.save fresh record = ({ b with repository := b.repository.insert (record.settle (some q)) },
      .ok (record.settle (some q))) := by
  simp only [Backend.save, Backend.ensure, if_pos reachable, Repository.save, own, found]

namespace Screen.Session

open EditScreen

/-- What happens to a screen that is not alone: it acts, or somebody else calls the backend. -/
inductive Event where
  | own (a : Act)
  | other (c : Repository.Call)

/-- What others save are records of the schema. -/
def Event.Concerns (s : Schema) : Event → Prop
  | .other (.save _ record) => Record.Fits s record
  | _ => True

def share [Recognizer] (t : Session) : Event → Session
  | .own a => t.act a
  | .other c =>
    { t with backend := { t.backend with repository := (t.backend.repository.respond c).1 } }

/-- What holds after every event: the record that the screen knows was stored by a save, and so was
what is stored under its identifier now. -/
structure Shares (names : List String) (t : Session) : Prop where
  idle : t.screen.running = none
  indexed : t.backend.repository.Indexed
  named : t.screen.record.links.map (·.1) = names
  known : ∀ p, t.screen.persisted = some p → p.IsSettled ∧ p.links.map (·.1) = names ∧
    ∃ id, p.id = some id ∧ t.backend.repository.SettledAt names id
  viewed : t.screen.mode = .viewing → t.screen.persisted = some t.screen.record

variable {names : List String} {t : Session}

theorem Shares.other [Recognizer] (h : t.Shares names) {c : Repository.Call}
    (named : ∀ fresh record, c = .save fresh record → record.links.map (·.1) = names) :
    (t.share (.other c)).Shares names := by
  refine ⟨h.idle, h.indexed.respond c, h.named, ?_, h.viewed⟩
  intro p persisted
  obtain ⟨settled, own, id, known, stored⟩ := h.known p persisted
  exact ⟨settled, own, id, known, stored.respond h.indexed named⟩

theorem Shares.submitted (h : t.Shares names) {record : Record} {fresh : Uuid}
    (named : record.links.map (·.1) = names) {outcome : Session × Except Problem Navigation}
    (s : Submitted t record fresh outcome) : outcome.1.Shares names := by
  cases s with
  | failed violations message p => exact ⟨rfl, h.indexed, h.named, h.known, h.viewed⟩
  | @stored next saved violations n reachable save =>
    obtain ⟨stored, shape, id, own, _⟩ := save_shape save
    have indexed : next.Indexed := by
      rw [stored]
      exact h.indexed.insert own
    refine ⟨rfl, indexed, shape.trans named, ?_, fun _ => rfl⟩
    rintro p ⟨⟩
    exact ⟨Record.isSettled_of_save save, shape.trans named, id, own,
      Repository.settledAt_saved h.indexed named save own⟩

theorem Shares.delete (h : t.Shares names) : t.delete.1.Shares names := by
  obtain ⟨message, failed⟩ | ⟨id, deleted⟩ := delete_cases h.idle
  · rw [failed]
    exact ⟨rfl, h.indexed, h.named, h.known, h.viewed⟩
  · rw [deleted]
    refine ⟨rfl, h.indexed.erase id, h.named, ?_, h.viewed⟩
    intro p persisted
    obtain ⟨settled, own, k, known, stored⟩ := h.known p persisted
    exact ⟨settled, own, k, known, stored.erase id⟩

/-- An act that concerns the screen alone changes nothing, or it leaves a screen of this kind. -/
theorem Shares.show? (h : t.Shares names) {screen : Except Problem EditScreen}
    (shown : ∀ s, screen = .ok s → s.running = none ∧ s.record.links.map (·.1) = names ∧
      (∀ p, s.persisted = some p → t.screen.persisted = some p) ∧
      (s.mode = .viewing → s.persisted = some s.record)) : (t.show? screen).Shares names := by
  cases result : screen with
  | error p => exact h
  | ok s =>
    obtain ⟨idle, named, fewer, viewed⟩ := shown s result
    exact ⟨idle, h.indexed, named, fun p persisted => h.known p (fewer p persisted), viewed⟩

theorem Shares.act [Recognizer] (h : t.Shares names) (a : Act) : (t.act a).Shares names := by
  cases a with
  | connection reachable => exact ⟨h.idle, h.indexed, h.named, h.known, h.viewed⟩
  | edit f =>
    refine h.show? fun s edited => ?_
    obtain ⟨mode, rfl⟩ := ok_of_ensureEnabled edited
    exact ⟨h.idle, (f.names _).trans h.named, fun _ same => same, fun viewing =>
      absurd viewing mode⟩
  | editLinks name e =>
    refine h.show? fun s edited => ?_
    obtain ⟨_, rfl⟩ := ok_of_ensureEnabled edited
    exact ⟨h.idle, h.named, fun _ same => same, h.viewed⟩
  | startEditing =>
    refine h.show? fun s started => ?_
    obtain ⟨viewing, rfl⟩ := of_startEditing started
    exact ⟨h.idle, h.named, fun _ same => same, nofun⟩
  | duplicate =>
    refine h.show? fun s copied => ?_
    obtain ⟨_, rfl⟩ := of_duplicate copied
    exact ⟨h.idle, (names_forCopy t.screen.record).trans h.named, nofun, nofun⟩
  | cancel =>
    refine h.show? fun s left => ?_
    obtain ⟨_, rfl⟩ | ⟨p, persisted, rfl⟩ := cancel_cases left
    · exact ⟨h.idle, h.named, fun _ same => same, h.viewed⟩
    · exact ⟨h.idle, (h.known p persisted).2.1, fun _ same => same, fun _ => persisted⟩
  | save fresh =>
    exact h.submitted ((names_flatten _ _).trans h.named) (save_cases h.idle fresh)
  | changeStatus fresh status =>
    have named : (t.screen.record.withStatus status).links.map (·.1) = names := h.named
    exact h.submitted named (changeStatus_cases h.idle fresh status)
  | delete => exact h.delete

theorem Shares.run [Recognizer] {s : Schema} (h : t.Shares (s.links.map (·.1)))
    {events : List Event} (concerns : ∀ e ∈ events, e.Concerns s) :
    (events.foldl share t).Shares (s.links.map (·.1)) := by
  refine List.foldlRecOn events share h ?_
  intro u shares e he
  cases e with
  | own a => exact shares.act a
  | other c =>
    apply shares.other
    rintro fresh record rfl
    have fits : Record.Fits s record := concerns _ he
    cases fits with
    | mk _ fit => exact fit.names

/-- How a screen comes up: on a record of a schema that a save stored, or on one to be created. -/
inductive Opening (s : Schema) : Session → Prop
  | view {b : Backend} {resource : String} {rules : Ruleset} {names : List String} {id : Uuid}
      {p : Record} {screen : EditScreen} (indexed : b.repository.Indexed)
      (stored : Record.Stored s p) (found : b.repository.get? id = some p)
      (shown : EditScreen.view resource rules names id (b.get id) = .ok screen) :
      Opening s ⟨screen, b⟩
  | create {b : Backend} (resource : String) (rules : Ruleset) (names : List String)
      {record : Record} (indexed : b.repository.Indexed) (fits : Record.Fits s record) :
      Opening s ⟨EditScreen.create resource rules names record, b⟩

theorem Opening.shares {s : Schema} (distinct : (s.links.map (·.1)).Nodup) (opening : Opening s t) :
    t.Shares (s.links.map (·.1)) := by
  cases opening with
  | @view b resource rules names id p screen indexed stored found shown =>
    have named : p.links.map (·.1) = s.links.map (·.1) := by
      cases stored.fits distinct with
      | mk _ fit => exact fit.names
    have own : p.id = some id := indexed.named _ (OrderedMap.mem_of_get? found)
    obtain ⟨q, same, rfl⟩ := view_cases shown
    cases same.symm.trans found
    refine ⟨rfl, indexed, named, ?_, fun _ => rfl⟩
    rintro q ⟨⟩
    refine ⟨stored.isSettled, named, id, own, ?_⟩
    intro q found'
    cases found'.symm.trans found
    exact ⟨stored.isSettled, named⟩
  | create resource rules names indexed fits =>
    cases fits with
    | mk _ fit => exact ⟨rfl, indexed, fit.names, nofun, nofun⟩

/-! ## Changing the status -/

/-- The status of a record that is viewed can be changed while the backend is up and stores it. -/
theorem changeStatus_of_stored (idle : t.screen.running = none) (viewing : t.screen.mode = .viewing)
    {id : Uuid} (own : t.screen.record.id = some id) {fresh : Uuid} {status : String} {b : Backend}
    {saved : Record}
    (stored : t.backend.save fresh (t.screen.record.withStatus status) = (b, .ok saved)) :
    t.changeStatus fresh status = (⟨EditScreen.showSaved
      { t.screen with running := none, message := none } saved, b⟩, .ok .stay) := by
  have started : t.screen.startChangeStatus status =
      .ok ({ t.screen with running := some .changeStatus }, t.screen.record.withStatus status) := by
    simp only [EditScreen.startChangeStatus, Mode.ensure, viewing, EditScreen.identify, own,
      EditScreen.start, idle]
    rfl
  rw [changeStatus, started]
  simp only [stored, EditScreen.finishChangeStatus]
  rfl

/-- What is stored under the identifier may have changed since the record was shown. The links come
from there, everything else from the screen. -/
theorem Shares.changeStatus_of_known (h : t.Shares names) (distinct : names.Nodup)
    (viewing : t.screen.mode = .viewing) {id : Uuid} (own : t.screen.record.id = some id)
    {q : Record} (found : t.backend.repository.get? id = some q)
    (reachable : t.backend.reachable = true) (fresh : Uuid) (status : String) :
    let saved := { t.screen.record with status, links := q.links }
    t.changeStatus fresh status =
      (⟨EditScreen.showSaved { t.screen with running := none, message := none } saved,
        ⟨t.backend.repository.insert saved, t.backend.reachable⟩⟩, .ok .stay) := by
  intro saved
  obtain ⟨settled, named, k, known, stored⟩ := h.known _ (h.viewed viewing)
  obtain rfl : id = k := Option.some.inj (own.symm.trans known)
  obtain ⟨other, names⟩ := stored q found
  have links : (t.screen.record.withStatus status).settle (some q) = saved :=
    settled.settle_withStatus other (names ▸ distinct) (named.trans names.symm) status
  have sent : (t.screen.record.withStatus status).id = some id := own
  apply changeStatus_of_stored h.idle viewing own
  rw [Backend.save_of_known reachable sent found, links]

theorem links_loadEditors {p : Record} (settled : p.IsSettled) (editors : List (String × Editor)) :
    ∀ x ∈ loadEditors editors p, x.2.links = p.linksOf x.1 := by
  intro x hx
  obtain ⟨⟨name, e⟩, _, rfl⟩ := List.mem_map.mp hx
  obtain ⟨once, kept⟩ := settled.linksOf name
  exact (e.links_takeStored _).trans (map_stored_targets once kept)

/-- A status is changed only while the backend is up and stores the record. -/
theorem of_changeStatus (idle : t.screen.running = none) {id : Uuid}
    (own : t.screen.record.id = some id) {fresh : Uuid} {status : String} {after : Session}
    {n : Navigation} (changed : t.changeStatus fresh status = (after, .ok n)) :
    t.backend.reachable = true ∧ t.backend.repository.get? id ≠ none := by
  have outcome := changeStatus_cases idle fresh status
  rw [changed] at outcome
  cases outcome with
  | stored violations n reachable save =>
    obtain ⟨_, ⟨k, q, same, found, _⟩ | ⟨unsaved, _⟩⟩ := Repository.save_cases save
    · cases own.symm.trans same
      exact ⟨reachable, by simp [found]⟩
    · cases own.symm.trans unsaved

/-- However a record came to be viewed, by whatever acts of the screen and whatever others saved and
deleted meanwhile: its status can be changed exactly while the backend is up and stores the record.
Then the record is stored as it is viewed, with that status, but with the links that are stored,
which are all kept. No other record changes, and the screen views what is stored. -/
theorem changeStatus_along_sharing [Recognizer] {s : Schema} (bundled : s ∈ Schema.bundled)
    {begin : Session} (opening : Opening s begin) {events : List Event}
    (concerns : ∀ e ∈ events, e.Concerns s)
    (viewing : (events.foldl share begin).screen.mode = .viewing) (fresh : Uuid) (status : String) :
    let t := events.foldl share begin
    ∃ id, t.screen.record.id = some id ∧
      ((∃ after n, t.changeStatus fresh status = (after, .ok n)) ↔
        t.backend.reachable = true ∧ t.backend.repository.get? id ≠ none) ∧
      ∀ after n, t.changeStatus fresh status = (after, .ok n) →
        ∃ q saved, t.backend.repository.get? id = some q ∧
          (∀ x ∈ q.links, ∀ l ∈ x.2, l.tag = .kept) ∧
          saved = { t.screen.record with status, links := q.links } ∧
          after.backend = { t.backend with repository := { t.backend.repository with
            records := ⟨t.backend.repository.records.entries.map fun e =>
              if e.1 = id then (id, saved) else e⟩ } } ∧
          n = .stay ∧ after.screen.mode = .viewing ∧ after.screen.record = saved ∧
          after.screen.persisted = some saved ∧
          (∀ x ∈ after.screen.editors, x.2.links = saved.linksOf x.1) ∧
          after.screen.editorsPending = false := by
  intro t
  have distinct := (Schema.verbatim_of_bundled bundled).distinct_links
  have h : t.Shares (s.links.map (·.1)) := (opening.shares distinct).run concerns
  have viewing : t.screen.mode = .viewing := viewing
  clear_value t
  obtain ⟨_, _, id, own, stored⟩ := h.known _ (h.viewed viewing)
  have answer {q : Record} (found : t.backend.repository.get? id = some q) reachable :=
    h.changeStatus_of_known distinct viewing own found reachable fresh status
  refine ⟨id, own, ?_, ?_⟩
  · constructor
    · rintro ⟨after, n, changed⟩
      exact of_changeStatus h.idle own changed
    · rintro ⟨reachable, known⟩
      obtain ⟨q, found⟩ := Option.ne_none_iff_exists'.mp known
      exact ⟨_, _, answer found reachable⟩
  · intro after n changed
    obtain ⟨reachable, known⟩ := of_changeStatus h.idle own changed
    obtain ⟨q, found⟩ := Option.ne_none_iff_exists'.mp known
    obtain ⟨other, _⟩ := stored q found
    have kept : ∀ x ∈ q.links, ∀ l ∈ x.2, l.tag = .kept := fun x hx => (other x hx).2
    have same : ({ t.screen.record with status, links := q.links } : Record).id = some id := own
    have replaced := h.indexed.insert_of_known same known
    cases (answer found reachable).symm.trans changed
    refine ⟨q, _, found, kept, rfl, ?_, rfl, rfl, rfl, rfl, ?_, ?_⟩
    · rw [← replaced]
    · exact links_loadEditors other t.screen.editors
    · exact editorsPending_of_loaded rfl

def shared : Session := ⟨openedRole, ⟨(Repository.empty .role).insert storedRole, true⟩⟩

/-- While the role is being edited, somebody else takes a privilege from it and gives another one. -/
def meanwhile : List Event :=
  [.own .startEditing,
    .other (.save (.ofNat 8) { storedRole with
      links := [("privileges", [⟨grant 1, .deleted⟩, ⟨grant 3, .created⟩]), ("users", [])] }),
    .own .cancel]

theorem changeStatus_of_shared_role :
    let t := meanwhile.foldl share shared
    t.screen.record.linksOf "privileges" = [.stored (grant 1), .stored (grant 2)] ∧
      ∃ after, t.changeStatus (.ofNat 9) "disabled" = (after, .ok .stay) ∧
        after.screen.record.status = "disabled" ∧
        after.screen.record.linksOf "privileges" = [.stored (grant 2), .stored (grant 3)] ∧
        after.backend.repository.records.entries = [(.ofNat 7, after.screen.record)] := by
  intro t
  have bundled : Schema.role ∈ Schema.bundled := by simp [Schema.bundled]
  have indexed : shared.backend.repository.Indexed := (Repository.indexed_empty .role).insert rfl
  have found : shared.backend.repository.get? (.ofNat 7) = some storedRole := rfl
  have shown : EditScreen.view "role" .empty ["privileges", "users"] (.ofNat 7)
      (shared.backend.get (.ofNat 7)) = .ok openedRole := rfl
  have opening : Opening .role shared := .view indexed stored_storedRole found shown
  have concerns : ∀ e ∈ meanwhile, e.Concerns .role := by
    have first : Record.Fits .privilege (grant 1) := .mk (by decide) .nil
    have third : Record.Fits .privilege (grant 3) := .mk (by decide) .nil
    simp only [meanwhile, List.forall_mem_cons, Event.Concerns, true_and]
    refine ⟨.mk (by decide) (.cons ?_ (.cons (List.forall_mem_nil _) .nil)), List.forall_mem_nil _⟩
    simp [first, third]
  have viewing : t.screen.mode = .viewing := rfl
  obtain ⟨id, own, changes, saved⟩ :=
    changeStatus_along_sharing bundled opening concerns viewing (.ofNat 9) "disabled"
  have seven : id = .ofNat 7 := (Option.some.inj own).symm
  subst seven
  have known : t.backend.repository.get? (.ofNat 7) ≠ none := Option.isSome_iff_ne_none.mp rfl
  obtain ⟨after, n, changed⟩ := changes.mpr ⟨rfl, known⟩
  obtain ⟨q, _, now, _, rfl, backend, rfl, _, record, _⟩ := saved after n changed
  cases now
  refine ⟨rfl, after, changed, ?_, ?_, ?_⟩
  · rw [record]
  · rw [record]
    rfl
  · rw [backend, record]
    rfl

end Screen.Session

end BackOffice
