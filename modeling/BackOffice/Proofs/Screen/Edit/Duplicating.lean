import BackOffice.Proofs.Screen.Edit.Noticing

/-!
# Copies of stored records

A copy is taken of a record that is shown and saved without an edit. On its way every link is tagged
to be created, goes through the editor of its association, and is settled against nothing. Since a
stored record names each target once, all of them arrive in their order, and what is stored behind
all other records is the original under a fresh identifier. The one thing that a copy lacks is the
identifier, so rules that the original obeys refuse its copy exactly if one of them requires that.
-/
namespace BackOffice

open BackOffice.Field (Recognizer)

namespace Association

variable {α κ : Type} [DecidableEq κ] {keyOf : α → κ} {links : List (Link α)}

theorem forCopy_of_kept (kept : ∀ l ∈ links, l.tag = .kept) :
    forCopy links = links.map fun l => { l with tag := .created } := by
  have none : links.filter (!·.isDeleted) = links := by
    apply List.filter_eq_self.mpr
    intro l hl
    rw [Link.isDeleted, kept l hl]
    rfl
  rw [forCopy, none]

omit [DecidableEq κ] in
theorem keys_forCopy (kept : ∀ l ∈ links, l.tag = .kept) :
    (forCopy links).map (Link.key keyOf) = links.map (Link.key keyOf) := by
  rw [forCopy_of_kept kept, List.map_map]
  rfl

/-- Links that are created for a copy are stored as those that were copied. -/
theorem settle_forCopy (distinct : (links.map (Link.key keyOf)).Nodup)
    (kept : ∀ l ∈ links, l.tag = .kept) : settle keyOf [] (forCopy links) = links := by
  have once : ((forCopy links).map (Link.key keyOf)).Nodup := by rwa [keys_forCopy kept]
  have all : additions keyOf (forCopy links) [] = links.map (·.target) := by
    have new : ∀ l ∈ forCopy links,
        decide (l.tag = .created ∧ l.key keyOf ∉ ([] : List κ)) = true := by
      intro l hl
      obtain ⟨_, _, rfl⟩ := List.mem_map.mp hl
      simp
    rw [additions, List.filter_eq_self.mpr new, forCopy_of_kept kept, List.map_map]
    rfl
  calc settle keyOf [] (forCopy links)
      = (additions keyOf (forCopy links) []).map .stored := settle_eq_map once []
    _ = (links.map (·.target)).map .stored := by rw [all]
    _ = links := map_stored_of_kept kept

/-- Links of distinct keys are taken over from a draft as they are. -/
theorem Sync.links_takeDraft (s : Sync keyOf) (distinct : (links.map (Link.key keyOf)).Nodup) :
    (s.takeDraft links).links = links := by
  have loaded : (s.takeDraft links).links = (s.membership.load links).toList := rfl
  rw [loaded, Keyed.toList_load, Keyed.latestByKey_of_nodup distinct]

end Association

open BackOffice.Association

namespace Record

variable {r p : Record}

theorem linksOf_forCopy (r : Record) (name : String) :
    r.forCopy.linksOf name = Association.forCopy (r.linksOf name) := by
  rw [linksOf, linksOf, forCopy]
  induction r.links with
  | nil => rfl
  | cons x rest ih =>
    rw [List.map_cons, List.lookup_cons, List.lookup_cons]
    cases name == x.1 with
    | true => rfl
    | false => exact ih

/-- A copy of a settled record is stored as the record under another identifier. -/
theorem IsSettled.settle_forCopy (h : r.IsSettled) (fresh : Uuid) :
    (r.forCopy.withId fresh).settle none = r.withId fresh := by
  have each : ∀ x ∈ r.links,
      (x.1, Association.settle key [] (Association.forCopy x.2)) = x := by
    intro x hx
    obtain ⟨distinct, kept⟩ := h x hx
    exact Prod.ext rfl (Association.settle_forCopy distinct kept)
  have links : ((r.forCopy.withId fresh).settle none).links = r.links :=
    List.map_map.trans ((List.map_congr_left each).trans (List.map_id' r.links))
  exact congrArg (fun links => { r.withId fresh with links }) links

end Record

/-! ## Rules -/

namespace Ruleset

open BackOffice.Field

theorem check_null_iff [Recognizer] {rule : Rule} {field : String} :
    rule.check field .null = none ↔ rule.required = false := by
  have blank : Value.null.isBlank = true := rfl
  rw [Rule.check, Option.map_eq_none_iff, Rule.flaw, if_pos blank]
  cases rule.required
  · exact ⟨fun _ => rfl, fun _ => rfl⟩
  · exact ⟨nofun, nofun⟩

/-- The copy of a record that obeys some rules obeys them too unless one requires the identifier. -/
theorem check_forCopy_iff [Recognizer] {rules : Ruleset} {r : Record}
    (obeyed : rules.check r.field? = []) :
    rules.check r.forCopy.field? = [] ↔
      ∀ x ∈ rules.entries, x.1 = "id" → x.2.required = false := by
  rw [check, List.filterMap_eq_nil_iff] at obeyed ⊢
  refine forall₂_congr fun x hx => ?_
  by_cases identifier : x.1 = "id"
  · have lost : (r.forCopy.field? x.1).getD .null = .null := by
      rw [identifier]
      rfl
    dsimp only
    rw [lost, check_null_iff]
    exact ⟨fun free _ => free, fun free => free identifier⟩
  · have same : r.forCopy.field? x.1 = r.field? x.1 := by
      simp only [Record.field?, if_neg identifier]
      rfl
    dsimp only
    rw [same]
    exact ⟨fun _ other => absurd other identifier, fun _ => obeyed x hx⟩

end Ruleset

/-! ## Copying -/

/-- A copy of a settled record is stored behind all others, like the record but for its identifier. -/
theorem Backend.save_forCopy {b : Backend} (reachable : b.reachable = true) {p : Record}
    (settled : p.IsSettled) {fresh : Uuid} (unused : b.repository.get? fresh = none) :
    b.save fresh p.forCopy = ({ b with repository := { b.repository with
      records := ⟨b.repository.records.entries ++ [(fresh, p.withId fresh)]⟩ } },
        .ok (p.withId fresh)) := by
  have own : (p.withId fresh).id = some fresh := rfl
  have unsaved : p.forCopy.id = none := rfl
  simp only [Backend.save, Backend.ensure, if_pos reachable, Repository.save, unsaved,
    settled.settle_forCopy, Repository.insert_of_unused own unused]

namespace Screen.EditScreen

open BackOffice.Record

variable {s : Schema} {p : Record}

/-- The editors of a copy submit the links that the copy has. -/
theorem flatten_forCopy (settled : p.IsSettled) (distinct : (p.links.map (·.1)).Nodup)
    (editors : List (String × Editor)) :
    flatten (resumeEditors editors p.forCopy) p.forCopy = p.forCopy := by
  have names := Session.names_forCopy p
  apply flatten_of_own (names ▸ distinct)
  intro x hx
  obtain ⟨⟨name, e⟩, _, rfl⟩ := List.mem_map.mp hx
  obtain ⟨once, kept⟩ := settled.linksOf name
  apply Sync.links_takeDraft
  rwa [linksOf_forCopy, keys_forCopy kept]

theorem reachable_of_view {resource : String} {rules : Ruleset} {names : List String} {id : Uuid}
    {b : Backend} {screen : EditScreen}
    (opened : view resource rules names id (b.get id) = .ok screen) : b.reachable = true := by
  by_contra down
  rw [Backend.get, Backend.ensure, if_neg down] at opened
  cases opened

theorem duplicate_of_viewing {screen : EditScreen} (viewing : screen.mode = .viewing) :
    screen.duplicate = .ok { screen with
      mode := .creating
      record := screen.record.forCopy
      persisted := none
      editors := resumeEditors screen.editors screen.record.forCopy } := by
  rw [duplicate, viewing]
  rfl

end Screen.EditScreen

namespace Screen.Session

variable {t : Session}

/-- A record that obeys the rules is saved, if the backend stores it. -/
theorem save_of_clean [Recognizer] (idle : t.screen.running = none)
    (allowed : t.screen.mode.allows .save = true)
    (clean : t.screen.rules.check t.screen.record.field? = []) {fresh : Uuid} {b : Backend}
    {saved : Record} (stored : t.backend.save fresh
      (EditScreen.flatten t.screen.editors t.screen.record) = (b, .ok saved)) :
    t.save fresh = (⟨EditScreen.showSaved
      { t.screen with running := none, violations := [], message := none } saved, b⟩,
        .ok .leave) := by
  have started : t.screen.startSave = ({ t.screen with running := some .save, violations := [] },
      .ok (EditScreen.flatten t.screen.editors t.screen.record)) := by
    simp [EditScreen.startSave, Mode.ensure, allowed, clean, EditScreen.start, idle]
  have leaves : t.screen.mode.leaveBy .save = .ok .leave := by
    rw [Mode.leaveBy, Mode.ensure, if_pos allowed]
    rfl
  rw [save, started]
  simp only [stored, EditScreen.finishSave, leaves]
  rfl

/-- A record that breaks the rules is not submitted. -/
theorem save_of_flaws [Recognizer] (allowed : t.screen.mode.allows .save = true)
    (flaws : t.screen.rules.check t.screen.record.field? ≠ []) (fresh : Uuid) :
    t.save fresh = (⟨{ t.screen with violations := t.screen.rules.check t.screen.record.field? },
      t.backend⟩, .error (.invalid (t.screen.rules.check t.screen.record.field?))) := by
  simp [save, EditScreen.startSave, Mode.ensure, allowed, flaws]

end Screen.Session

namespace Screen.EditScreen

open BackOffice.Record

variable {s : Schema} {p : Record}

/-- A record of a bundled schema that a save has stored and that obeys the rules is opened, copied
and saved. Unless a rule requires the identifier, the record is stored once more behind all others,
the same but for a fresh identifier, with its links in their order and all of them kept, and the
screen views that. If a rule does, the copy is refused and nothing is stored. -/
theorem duplicate_saved [Recognizer] (bundled : s ∈ Schema.bundled) (stored : Stored s p)
    {b : Backend} {id : Uuid} (found : b.repository.get? id = some p) {resource : String}
    {rules : Ruleset}
    {names : List String} {screen : EditScreen}
    (opened : view resource rules names id (b.get id) = .ok screen)
    (obeyed : rules.check p.field? = []) {fresh : Uuid}
    (unused : b.repository.get? fresh = none) :
    ∃ copied, screen.duplicate = .ok copied ∧
      ((∀ x ∈ rules.entries, x.1 = "id" → x.2.required = false) →
        ∃ after, Session.save ⟨copied, b⟩ fresh = (after, .ok .leave) ∧
          after.backend = { b with repository := { b.repository with
            records := ⟨b.repository.records.entries ++ [(fresh, p.withId fresh)]⟩ } } ∧
          (∀ x ∈ p.links, ∀ l ∈ x.2, l.tag = .kept) ∧
          after.screen.mode = .viewing ∧ after.screen.record = p.withId fresh ∧
          after.screen.persisted = some (p.withId fresh) ∧
          after.screen.editorsPending = false ∧ after.screen.message = none ∧
          after.screen.violations = []) ∧
      ∀ x ∈ rules.entries, x.1 = "id" → x.2.required = true →
        ∃ after violations, Session.save ⟨copied, b⟩ fresh = (after, .error (.invalid violations)) ∧
          after.backend = b := by
  have reachable := reachable_of_view opened
  have settled := stored.isSettled
  have distinct : (p.links.map (·.1)).Nodup := by
    have once := (Schema.verbatim_of_bundled bundled).distinct_links
    cases stored.fits once with
    | mk _ fit => rwa [fit.names]
  obtain ⟨q, shown, rfl⟩ := Session.view_cases opened
  cases shown.symm.trans found
  have submitted := flatten_forCopy settled distinct (loadEditors (emptyEditors names) p)
  refine ⟨_, duplicate_of_viewing rfl, ?_, ?_⟩
  · intro free
    have clean := (Ruleset.check_forCopy_iff obeyed).mpr free
    have saved := Backend.save_forCopy reachable settled unused
    rw [← submitted] at saved
    refine ⟨_, Session.save_of_clean rfl rfl clean saved, rfl, ?_, rfl, rfl, rfl, ?_, rfl, rfl⟩
    · exact fun x hx => (settled x hx).2
    · exact Session.editorsPending_of_loaded rfl
  · intro x hx identifier required
    have flaws : rules.check p.forCopy.field? ≠ [] := by
      intro clean
      have free := (Ruleset.check_forCopy_iff obeyed).mp clean x hx identifier
      rw [required] at free
      cases free
    exact ⟨_, _, Session.save_of_flaws rfl flaws fresh, rfl⟩

/-- A backend that stores the role, and rules that it obeys. -/
def oneRole : Backend := ⟨(Repository.empty .role).insert storedRole, true⟩

def named : Ruleset := ⟨[("name", .mandatory)]⟩

theorem duplicate_saved_role :
    ∃ opened copied after,
      view "role" named ["privileges", "users"] (.ofNat 7) (oneRole.get (.ofNat 7)) = .ok opened ∧
      opened.duplicate = .ok copied ∧
      Session.save ⟨copied, oneRole⟩ (.ofNat 9) = (after, .ok .leave) ∧
      after.backend.repository.records.entries =
        [(.ofNat 7, storedRole), (.ofNat 9, storedRole.withId (.ofNat 9))] ∧
      (storedRole.withId (.ofNat 9)).linksOf "privileges" =
        [.stored (Session.grant 1), .stored (Session.grant 2)] := by
  have bundled : Schema.role ∈ Schema.bundled := by simp [Schema.bundled]
  have found : oneRole.repository.get? (.ofNat 7) = some storedRole := rfl
  have opened : view "role" named ["privileges", "users"] (.ofNat 7) (oneRole.get (.ofNat 7)) =
      .ok { openedRole with rules := named } := rfl
  have obeyed : named.check storedRole.field? = [] := by decide
  have unused : oneRole.repository.get? (.ofNat 9) = none := rfl
  have free : ∀ x ∈ named.entries, x.1 = "id" → x.2.required = false := by decide
  obtain ⟨copied, duplicated, saved, _⟩ :=
    duplicate_saved bundled stored_storedRole found opened obeyed unused
  obtain ⟨after, done, backend, _⟩ := saved free
  refine ⟨_, copied, after, opened, duplicated, done, ?_, rfl⟩
  rw [backend]
  rfl

/-- A privilege obeys rules that require nothing but the identifier, its copy does not. -/
theorem duplicate_refused :
    let b : Backend := ⟨(Repository.empty .privilege).insert (Session.grant 1), true⟩
    let rules : Ruleset := ⟨[("id", .mandatory)]⟩
    Stored .privilege (Session.grant 1) ∧ b.repository.get? (.ofNat 1) = some (Session.grant 1) ∧
      rules.check (Session.grant 1).field? = [] ∧
      ∃ opened copied, view "privilege" rules [] (.ofNat 1) (b.get (.ofNat 1)) = .ok opened ∧
        opened.duplicate = .ok copied ∧
        (Session.save ⟨copied, b⟩ (.ofNat 2)).2 = .error (.invalid [.of "id" .missing]) ∧
        (Session.save ⟨copied, b⟩ (.ofNat 2)).1.backend.repository.toList = [Session.grant 1] := by
  intro b rules
  have fits : Fits .privilege (Schema.privilege.create fun _ => none) := .mk (by decide) .nil
  have save : (Repository.empty .privilege).save (.ofNat 1) (Schema.privilege.create fun _ => none) =
      .ok ((Repository.empty .privilege).insert (Session.grant 1), Session.grant 1) := rfl
  have stored : Stored .privilege (Session.grant 1) :=
    .mk (Repository.wellFormed_empty .privilege) rfl fits save
  exact ⟨stored, rfl, by decide, _, _, rfl, rfl, rfl, rfl⟩

end Screen.EditScreen

end BackOffice
