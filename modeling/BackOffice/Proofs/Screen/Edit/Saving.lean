import BackOffice.Proofs.Association.Saving
import BackOffice.Proofs.Screen.Edit.Run
import BackOffice.Record.Bundled

/-!
# What a record screen stores

However a record was opened or started, edited and submitted in vain before, a save that succeeds
stores the record with its edited fields and, for each association, the links that its editor shows
as attached. The screen then shows what is stored and has nothing pending, and no other record has
changed.
-/
namespace BackOffice.Screen

open BackOffice.Association
open BackOffice.Field (Recognizer)

/-! ## The record that is submitted -/

/-- Links of a record with those of one name replaced. -/
def replaceLinks (links : List (String × List (Link Record))) (x : String × Editor) :
    List (String × List (Link Record)) :=
  links.map fun (name, old) => (name, if name = x.1 then x.2.links else old)

theorem flatten_eq_foldl (editors : List (String × Editor)) (r : Record) :
    EditScreen.flatten editors r = { r with links := editors.foldl replaceLinks r.links } := by
  induction editors generalizing r with
  | nil =>
    cases r
    rfl
  | cons x rest ih => exact ih (r.withLinks x.1 x.2.links)

theorem replaceLinks_of_ne {p : String × List (Link Record)} {x : String × Editor} (h : p.1 ≠ x.1)
    (links : List (String × List (Link Record))) :
    replaceLinks (p :: links) x = p :: replaceLinks links x := by
  have head : replaceLinks (p :: links) x =
      (p.1, if p.1 = x.1 then x.2.links else p.2) :: replaceLinks links x := rfl
  rw [head, if_neg h]

theorem foldl_replaceLinks_cons {p : String × List (Link Record)} {editors : List (String × Editor)}
    (other : ∀ x ∈ editors, p.1 ≠ x.1) (links : List (String × List (Link Record))) :
    editors.foldl replaceLinks (p :: links) = p :: editors.foldl replaceLinks links := by
  induction editors generalizing links with
  | nil => rfl
  | cons x rest ih =>
    rw [List.foldl_cons, List.foldl_cons, replaceLinks_of_ne (other x List.mem_cons_self)]
    exact ih (fun y hy => other y (List.mem_cons_of_mem _ hy)) _

/-- Editors of distinct names, one for each association, replace all links. -/
theorem foldl_replaceLinks {editors : List (String × Editor)}
    {links : List (String × List (Link Record))} (distinct : (editors.map (·.1)).Nodup)
    (names : links.map (·.1) = editors.map (·.1)) :
    editors.foldl replaceLinks links = editors.map fun (name, e) => (name, e.links) := by
  induction editors generalizing links with
  | nil =>
    rw [List.map_nil, List.map_eq_nil_iff] at names
    rw [names]
    rfl
  | cons x rest ih =>
    cases links with
    | nil => cases names
    | cons p links =>
      rw [List.map_cons, List.map_cons, List.cons.injEq] at names
      rw [List.map_cons, List.nodup_cons] at distinct
      obtain ⟨same, names⟩ := names
      have apart : ∀ y ∈ rest, x.1 ≠ y.1 := fun y hy equal =>
        distinct.1 (equal ▸ List.mem_map_of_mem hy)
      have untouched : replaceLinks links x = links := by
        have each : ∀ q ∈ links, (fun (name, old) =>
            (name, if name = x.1 then x.2.links else old)) q = id q := by
          intro q hq
          have other : q.1 ≠ x.1 := fun equal =>
            distinct.1 (equal ▸ names ▸ List.mem_map_of_mem hq)
          exact Prod.ext rfl (if_neg other)
        rw [replaceLinks, List.map_congr_left each, List.map_id]
      have first : replaceLinks (p :: links) x = (x.1, x.2.links) :: links := by
        have head : replaceLinks (p :: links) x =
            (p.1, if p.1 = x.1 then x.2.links else p.2) :: replaceLinks links x := rfl
        rw [head, untouched, if_pos same, same]
      rw [List.foldl_cons, first, foldl_replaceLinks_cons apart, ih distinct.2 names]
      rfl

/-! ## The record that is stored -/

/-- The links that an editor shows as attached, as they are stored. -/
def remaining (e : Editor) : List (Link Record) :=
  (e.links.filter (!·.isDeleted)).map fun l => .stored l.target

namespace Session

variable {t : Session}

/-- Settled against what was stored before, the submitted record keeps what its editors show. -/
theorem Sound.settle_flatten (h : t.Sound) :
    (EditScreen.flatten t.screen.editors t.screen.record).settle t.screen.persisted =
      { t.screen.record with
        links := t.screen.editors.map fun (name, e) => (name, remaining e) } := by
  rw [settle_eq_linksBefore, flatten_eq_foldl, foldl_replaceLinks h.distinct h.names, List.map_map]
  have each : ∀ x ∈ t.screen.editors, ((fun (name, links) => (name,
      Association.settle Record.key (linksBefore t.screen.persisted name) links)) ∘
      fun (name, e) => (name, Sync.links e)) x = (x.1, remaining x.2) := by
    intro x hx
    obtain ⟨w, kept⟩ := h.editors x hx
    exact Prod.ext rfl (settle_of_keepsStored w.membership.nodup_keys kept)
  rw [List.map_congr_left each]

/-- The record that a save of a sound session stores. -/
theorem Sound.saved (h : t.Sound) {fresh : Uuid} {next : Repository} {saved : Record}
    (save : t.backend.repository.save fresh
      (EditScreen.flatten t.screen.editors t.screen.record) = .ok (next, saved)) :
    ∃ id, (t.screen.record.id = some id ∨ t.screen.record.id = none ∧ id = fresh) ∧
      saved = { t.screen.record with
        id := some id
        links := t.screen.editors.map fun (name, e) => (name, remaining e) } := by
  have settled := h.settle_flatten
  obtain ⟨_, ⟨id, p, known, found, rfl⟩ | ⟨unnamed, rfl⟩⟩ := Repository.save_cases save
  · rw [id_flatten] at known
    cases h.origin with
    | unsaved _ _ none =>
      rw [known] at none
      cases none
    | stored persisted _ _ same _ current _ =>
      cases known.symm.trans same
      cases current p found
      rw [persisted] at settled
      exact ⟨id, .inl known, by rw [settled, ← known]⟩
  · rw [id_flatten] at unnamed
    cases h.origin with
    | unsaved persisted _ _ =>
      rw [persisted] at settled
      refine ⟨fresh, .inr ⟨unnamed, rfl⟩, ?_⟩
      have named : ((EditScreen.flatten t.screen.editors t.screen.record).withId fresh).settle none =
        ((EditScreen.flatten t.screen.editors t.screen.record).settle none).withId fresh := rfl
      rw [named, settled]
      rfl
    | stored _ _ _ same _ _ _ =>
      rw [unnamed] at same
      cases same

theorem isPending_takeStored (e : Editor) (links : List (Link Record)) :
    (e.takeStored links).isPending = false := by
  refine Sync.isPending_eq_false_iff.mpr fun l hl => ?_
  rw [Sync.links_takeStored] at hl
  obtain ⟨a, _, rfl⟩ := List.mem_map.mp hl
  rfl

/-- Editors that hold what a record stores have nothing pending. -/
theorem editorsPending_of_loaded {s : EditScreen} {p : Record} {editors : List (String × Editor)}
    (loaded : s.editors = EditScreen.loadEditors editors p) : s.editorsPending = false := by
  simp only [EditScreen.editorsPending, loaded, List.any_eq_false]
  intro x hx
  obtain ⟨⟨name, e⟩, _, rfl⟩ := List.mem_map.mp hx
  simp [isPending_takeStored e (p.linksOf name)]

/-- Whatever was done before, saves that failed included, a save that succeeds stores the record that
the screen then shows: under its own identifier or, if it had none, under the fresh one, with its
edited fields and with the links that the editors show as attached, in their order. Nothing stays
pending and nothing else changes. -/
theorem save_along_run [Recognizer] {names : List String} (distinct : names.Nodup) {begin : Session}
    (start : Start names begin) (acts : List Act) (fresh : Uuid) {after : Session} {n : Navigation}
    (saved : (begin.run acts).save fresh = (after, .ok n)) :
    ∃ id, ((begin.run acts).screen.record.id = some id ∨
        (begin.run acts).screen.record.id = none ∧ id = fresh) ∧
      after.screen.record = { (begin.run acts).screen.record with
        id := some id
        links := (begin.run acts).screen.editors.map fun (name, e) => (name, remaining e) } ∧
      after.backend.repository.get? id = some after.screen.record ∧
      after.screen.mode = .viewing ∧ after.screen.editorsPending = false ∧
      after.screen.hasEdits = false ∧
      ∀ k, k ≠ id → after.backend.repository.get? k = (begin.run acts).backend.repository.get? k := by
  have h : (begin.run acts).Sound := (start.sound distinct).run acts
  generalize begin.run acts = before at h saved
  have outcome := save_cases h.idle fresh
  rw [saved] at outcome
  cases outcome with
  | @stored next record violations n reachable save =>
    obtain ⟨id, own, rfl⟩ := h.saved save
    obtain ⟨rfl, _⟩ := save_shape save
    refine ⟨id, own, rfl, ?_, rfl, editorsPending_of_loaded rfl, rfl, ?_⟩
    · exact (get?_insert_saved h.keyed rfl id).trans (if_pos rfl)
    · intro k other
      exact (get?_insert_saved h.keyed rfl k).trans (if_neg other)

def grant (n : Nat) : Record :=
  (Schema.privilege.create fun _ => none).withId (.ofNat n)

/-- A role that is to be created with two privileges. -/
def draftedRole : Record :=
  ⟨none, Record.activeStatus, [("name", .text "Auditor"), ("description", .null)],
    [("privileges", [⟨grant 1, .created⟩, ⟨grant 2, .created⟩]), ("users", [])]⟩

def rename : FieldEdit where
  apply r := { r with values := [("name", .text "Controller"), ("description", .null)] }
  id _ := rfl
  names _ := rfl

def drafted : Session :=
  ⟨EditScreen.create "role" .empty ["privileges", "users"] draftedRole,
    ⟨Repository.empty .role, true⟩⟩

/-- The role is stored and edited, one privilege is taken from it and another one given, and a save
fails. -/
def regranted [Recognizer] : Session :=
  drafted.run [.save (.ofNat 7), .startEditing, .edit rename,
    .editLinks "privileges" (.strike (.ofNat 1)), .editLinks "privileges" (.offer [grant 3]),
    .editLinks "privileges" (.check (.ofNat 3)), .connection false, .save (.ofNat 8),
    .connection true]

theorem save_of_regranted :
    ∃ after, regranted.save (.ofNat 9) = (after, .ok .leave) ∧
      after.screen.record.linksOf "privileges" = [.stored (grant 2), .stored (grant 3)] ∧
      after.backend.repository.get? (.ofNat 7) = some after.screen.record ∧
      after.screen.hasEdits = false := by
  have start : Start ["privileges", "users"] drafted :=
    .create "role" .empty (Repository.wellFormed_empty .role) rfl rfl (by decide)
  have saved : regranted.save (.ofNat 9) = ((regranted.save (.ofNat 9)).1, .ok .leave) := rfl
  obtain ⟨id, own, record, stored, _, _, unedited, _⟩ :=
    save_along_run (by decide) start _ (.ofNat 9) saved
  have known : regranted.screen.record.id = some (.ofNat 7) := rfl
  have seven : id = .ofNat 7 := by
    rcases own with same | ⟨unnamed, _⟩
    · exact (Option.some.inj (known.symm.trans same)).symm
    · cases known.symm.trans unnamed
  subst seven
  refine ⟨_, saved, ?_, stored, unedited⟩
  rw [record]
  rfl

end Session

end BackOffice.Screen
