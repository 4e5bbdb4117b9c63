import BackOffice.Association.Sync
import BackOffice.Proofs.Association.Settling
import BackOffice.Proofs.Keyed
import Mathlib.Logic.Relation

/-!
# What editing leaves of the stored links

A synchronised association takes over the stored links of its owner and is then edited, from the
pool or from the membership, any number of times. Whatever is done, the membership consists of the
stored links in their places, each kept or marked for deletion with the target it was loaded with,
and after them of links to be created, whose keys were not stored.
-/
namespace BackOffice.Association

/-- What can be done to an association while its owner's links stay the ones taken over. -/
inductive Edit (α κ : Type) where
  | offer (candidates : List α)
  | apply (change : KeyChange κ)
  | check (k : κ)
  | uncheck (k : κ)
  | toggle (k : κ)
  | toggleAll
  | strike (k : κ)

inductive Act (α κ : Type) where
  | takeStored (links : List (Link α))
  | takeDraft (links : List (Link α))
  | edit (e : Edit α κ)

variable {α κ : Type} [DecidableEq κ] {keyOf : α → κ}

/-- What an association went through before its owner's links were taken over, and since. -/
structure History (α κ : Type) where
  before : List (Act α κ)
  since : List (Edit α κ)

namespace Sync

variable {s : Sync keyOf} {k : κ}

def edit (s : Sync keyOf) : Edit α κ → Sync keyOf
  | .offer candidates => s.offer candidates
  | .apply change => s.apply change
  | .check k => (s.check k).1
  | .uncheck k => (s.uncheck k).1
  | .toggle k => (s.toggle k).1
  | .toggleAll => s.toggleAll.1
  | .strike k => (s.strike k).1

def edits (s : Sync keyOf) (es : List (Edit α κ)) : Sync keyOf := es.foldl edit s

def act (s : Sync keyOf) : Act α κ → Sync keyOf
  | .takeStored links => s.takeStored links
  | .takeDraft links => s.takeDraft links
  | .edit e => s.edit e

def run (s : Sync keyOf) (acts : List (Act α κ)) : Sync keyOf := acts.foldl act s

/-- The association that has taken over stored links in the course of a history. -/
def edited (keyOf : α → κ) (stored : List (Link α)) (h : History α κ) : Sync keyOf :=
  ((empty.run h.before).takeStored stored).edits h.since

/-! ## Both lists are well formed -/

structure WellFormed (s : Sync keyOf) : Prop where
  pool : s.pool.WellFormed
  membership : s.membership.WellFormed

omit [DecidableEq κ] in
theorem wellFormed_empty : (empty : Sync keyOf).WellFormed :=
  ⟨Keyed.wellFormed_empty, Keyed.wellFormed_empty⟩

theorem setTag_of_find? {l : Link α} (tag : Tag) (h : s.membership.find? k = some l) :
    s.setTag k tag = { s with membership := s.membership.replace k { l with tag } } := by
  rw [setTag, h]

theorem WellFormed.setTag (w : s.WellFormed) (k : κ) (tag : Tag) : (s.setTag k tag).WellFormed := by
  cases found : s.membership.find? k with
  | none =>
    rw [Sync.setTag, found]
    exact w
  | some l =>
    rw [setTag_of_find? tag found]
    have own := (w.membership.find?_eq_some_iff.mp found).2
    exact ⟨w.pool, w.membership.replace_own_key (Keyed.mem_keys_of_find? found) own⟩

theorem WellFormed.checkAttached (w : s.WellFormed) : s.checkAttached.WellFormed := by
  refine ⟨?_, w.membership⟩
  refine List.foldlRecOn s.attached _ w.pool.clearSelection ?_
  intro pool wellFormed k _
  exact wellFormed.select k

/-! ## Moves

Every edit is a sequence of five kinds of moves. What each of them keeps, every run of edits keeps.
-/

inductive Move (s : Sync keyOf) : Sync keyOf → Prop
  | pool {pool : Keyed keyOf} (wellFormed : pool.WellFormed) : Move s { s with pool }
  | create {a : α} (absent : s.tag? (keyOf a) = none) :
      Move s { s with membership := s.membership.append ⟨a, .created⟩ }
  | discard {k : κ} (created : s.tag? k = some .created) :
      Move s { s with membership := s.membership.remove k }
  | restore {k : κ} (deleted : s.tag? k = some .deleted) : Move s (s.setTag k .kept)
  | mark {k : κ} (tag : Tag) (tagged : s.tag? k = some tag) (old : tag ≠ .created) :
      Move s (s.setTag k .deleted)

abbrev Moves : Sync keyOf → Sync keyOf → Prop := Relation.ReflTransGen Move

theorem WellFormed.move {t : Sync keyOf} (w : s.WellFormed) (m : Move s t) : t.WellFormed := by
  cases m with
  | pool wellFormed => exact ⟨wellFormed, w.membership⟩
  | create _ => exact ⟨w.pool, w.membership.append _⟩
  | @discard k _ => exact ⟨w.pool, w.membership.remove k⟩
  | @restore k _ => exact w.setTag k .kept
  | @mark k _ _ _ => exact w.setTag k .deleted

theorem WellFormed.moves {t : Sync keyOf} (w : s.WellFormed) (m : Moves s t) : t.WellFormed := by
  induction m with
  | refl => exact w
  | tail _ last ih => exact ih.move last

theorem moves_pool {pool : Keyed keyOf} (wellFormed : pool.WellFormed) : Moves s { s with pool } :=
  .single (.pool wellFormed)

theorem moves_attach (s : Sync keyOf) (a : α) : Moves s (s.attach (keyOf a) a) := by
  cases tagged : s.tag? (keyOf a) with
  | none =>
    simp only [attach, tagged]
    exact .single (.create tagged)
  | some tag =>
    cases tag with
    | deleted =>
      simp only [attach, tagged]
      exact .single (.restore tagged)
    | kept | created | updated | statusChanged =>
      simp only [attach, tagged]
      exact .refl

theorem moves_detach (s : Sync keyOf) (k : κ) : Moves s (s.detach k) := by
  cases tagged : s.tag? k with
  | none =>
    simp only [detach, tagged]
    exact .refl
  | some tag =>
    cases tag with
    | created =>
      simp only [detach, tagged]
      exact .single (.discard tagged)
    | deleted =>
      simp only [detach, tagged]
      exact .refl
    | kept | updated | statusChanged =>
      simp only [detach, tagged]
      exact .single (.mark _ tagged (by decide))

theorem moves_attachLoaded (w : s.WellFormed) (k : κ) : Moves s (s.attachLoaded k) := by
  cases found : s.pool.find? k with
  | none =>
    simp only [attachLoaded, found]
    exact .refl
  | some a =>
    simp only [attachLoaded, found]
    rw [← (w.pool.find?_eq_some_iff.mp found).2]
    exact moves_attach s a

theorem moves_apply (w : s.WellFormed) (change : KeyChange κ) : Moves s (s.apply change) := by
  have added : Moves s (change.added.foldl attachLoaded s) := by
    refine List.foldlRecOn change.added _ .refl ?_
    intro t m k _
    exact m.trans (moves_attachLoaded (w.moves m) k)
  refine List.foldlRecOn change.removed _ added ?_
  intro t m k _
  exact m.trans (moves_detach t k)

theorem moves_follow (w : s.WellFormed) {result : Keyed keyOf × KeyChange κ}
    (wellFormed : result.1.WellFormed) : Moves s (s.follow result).1 := by
  have selected : WellFormed { s with pool := result.1 } := ⟨wellFormed, w.membership⟩
  exact (moves_pool wellFormed).trans (moves_apply selected result.2)

theorem moves_strike (w : s.WellFormed) (k : κ) : Moves s (s.strike k).1 := by
  have uncheck {t : Sync keyOf} (m : Move s t) : Moves s { t with pool := (t.pool.deselect k).1 } :=
    .tail (.single m) (.pool ((w.move m).pool.deselect k))
  cases tagged : s.tag? k with
  | none =>
    simp only [strike, tagged]
    exact .refl
  | some tag =>
    cases tag with
    | created =>
      simp only [strike, tagged]
      exact uncheck (.discard tagged)
    | deleted =>
      simp only [strike, tagged]
      have m : Move s (s.setTag k .kept) := .restore tagged
      exact .tail (.single m) (.pool ((w.move m).pool.select k))
    | kept | updated | statusChanged =>
      simp only [strike, tagged]
      exact uncheck (.mark _ tagged (by decide))

theorem moves_edit (w : s.WellFormed) (e : Edit α κ) : Moves s (s.edit e) := by
  cases e with
  | offer candidates =>
    have loaded : WellFormed { s with pool := s.pool.load candidates } :=
      ⟨w.pool.load candidates, w.membership⟩
    exact moves_pool loaded.checkAttached.pool
  | apply change => exact moves_apply w change
  | check k => exact moves_follow w (w.pool.select k)
  | uncheck k => exact moves_follow w (w.pool.deselect k)
  | toggle k => exact moves_follow w (w.pool.toggle k)
  | toggleAll => exact moves_follow w w.pool.toggleAll
  | strike k => exact moves_strike w k

theorem moves_edits (w : s.WellFormed) (es : List (Edit α κ)) : Moves s (s.edits es) := by
  refine List.foldlRecOn es edit .refl ?_
  intro t m e _
  exact m.trans (moves_edit (w.moves m) e)

theorem WellFormed.act (w : s.WellFormed) (a : Act α κ) : (s.act a).WellFormed := by
  cases a with
  | takeStored links =>
    have loaded : WellFormed { s with
        membership := s.membership.load (links.map fun l => .stored l.target) } :=
      ⟨w.pool, w.membership.load _⟩
    exact loaded.checkAttached
  | takeDraft links =>
    have loaded : WellFormed { s with membership := s.membership.load links } :=
      ⟨w.pool, w.membership.load links⟩
    exact loaded.checkAttached
  | edit e => exact w.moves (moves_edit w e)

/-- Whatever is done to an empty association, its two lists stay well formed. -/
theorem wellFormed_run (acts : List (Act α κ)) : ((empty : Sync keyOf).run acts).WellFormed := by
  refine List.foldlRecOn acts Sync.act wellFormed_empty ?_
  intro t w a _
  exact w.act a

/-! ## The links -/

theorem tag?_eq_some_iff (w : s.WellFormed) {t : Tag} :
    s.tag? k = some t ↔ ∃ l ∈ s.links, l.key keyOf = k ∧ l.tag = t := by
  simp only [tag?, Option.map_eq_some_iff, w.membership.find?_eq_some_iff, links, and_assoc]

theorem tag?_of_mem (w : s.WellFormed) {l : Link α} (h : l ∈ s.links) :
    s.tag? (l.key keyOf) = some l.tag :=
  (tag?_eq_some_iff w).mpr ⟨l, h, rfl, rfl⟩

theorem tag_of_tag? (w : s.WellFormed) {l : Link α} {tag : Tag} (h : l ∈ s.links)
    (same : l.key keyOf = k) (tagged : s.tag? k = some tag) : l.tag = tag := by
  rw [← same, tag?_of_mem w h] at tagged
  exact Option.some.inj tagged

theorem key_ne_of_tag?_none (w : s.WellFormed) (absent : s.tag? k = none) :
    ∀ l ∈ s.links, l.key keyOf ≠ k := by
  intro l hl same
  rw [← same, tag?_of_mem w hl] at absent
  cases absent

omit [DecidableEq κ] in
/-- Nothing is pending exactly if every link is kept. -/
theorem isPending_eq_false_iff : s.isPending = false ↔ ∀ l ∈ s.links, l.tag = .kept := by
  have none (p : Tag → Bool) : (s.links.filter fun l => p l.tag).length = 0 ↔
      ∀ l ∈ s.links, p l.tag = false := by
    simp only [List.length_eq_zero_iff, List.filter_eq_nil_iff, Bool.not_eq_true]
  have total : s.isPending = false ↔ s.counts.total = 0 := by
    rw [isPending, decide_eq_false_iff_not, Nat.not_lt, Nat.le_zero]
  rw [total, Counts.total, Nat.add_eq_zero_iff, Nat.add_eq_zero_iff, counts]
  dsimp only
  rw [none (· == .created), none (· == .deleted),
    none (fun t => t == .updated || t == .statusChanged), ← forall₂_and, ← forall₂_and]
  refine forall₂_congr fun l _ => ?_
  cases l.tag <;> decide

/-- A candidate that is no member becomes the last one. -/
theorem links_append (w : s.WellFormed) {a : α} {tag : Tag} (absent : s.tag? (keyOf a) = none) :
    ({ s with membership := s.membership.append ⟨a, tag⟩ } : Sync keyOf).links =
      s.links ++ [⟨a, tag⟩] := by
  have others : s.links.filter (·.key keyOf ≠ keyOf a) = s.links :=
    List.filter_eq_self.mpr fun l hl => decide_eq_true (key_ne_of_tag?_none w absent l hl)
  rw [links, Keyed.toList_append w.membership]
  exact congrArg (· ++ _) others

/-- A link with another tag, if it has a certain key. -/
def retag (keyOf : α → κ) (k : κ) (tag : Tag) (l : Link α) : Link α :=
  if l.key keyOf = k then { l with tag } else l

theorem links_setTag (w : s.WellFormed) (k : κ) (tag : Tag) :
    (s.setTag k tag).links = s.links.map (retag keyOf k tag) := by
  cases found : s.membership.find? k with
  | none =>
    rw [Sync.setTag, found]
    have others : s.links.map (retag keyOf k tag) = s.links.map id := by
      refine List.map_congr_left fun l hl => if_neg fun same => ?_
      rw [w.membership.find?_eq_some_iff.mpr ⟨hl, same⟩] at found
      cases found
    rw [others, List.map_id]
  | some l =>
    obtain ⟨member, own⟩ := w.membership.find?_eq_some_iff.mp found
    have replaced : Link.key keyOf { l with tag } = k := own
    have present := Keyed.mem_keys_of_find? found
    rw [setTag_of_find? tag found, links]
    refine (Keyed.toList_replace_own_key w.membership present replaced).trans
      (List.map_congr_left fun d hd => ?_)
    rw [retag]
    split
    · next same => rw [w.membership.eq_of_key_eq hd member (same.trans own.symm)]
    · rfl

end Sync

/-- The links are the stored ones in their places, kept or deleted, and then links to be created. -/
def KeepsStored (keyOf : α → κ) (stored links : List (Link α)) : Prop :=
  ∃ olds news, links = olds ++ news ∧
    olds.map (·.target) = (targets keyOf stored).values ∧
    (∀ l ∈ olds, l.tag = .kept ∨ l.tag = .deleted) ∧ ∀ l ∈ news, l.tag = .created

namespace KeepsStored

variable {stored links : List (Link α)} {k : κ}

theorem retag (h : KeepsStored keyOf stored links) {tag : Tag}
    (settled : tag = .kept ∨ tag = .deleted)
    (old : ∀ l ∈ links, l.key keyOf = k → l.tag ≠ .created) :
    KeepsStored keyOf stored (links.map (Sync.retag keyOf k tag)) := by
  obtain ⟨olds, news, rfl, places, tags, created⟩ := h
  have untouched : news.map (Sync.retag keyOf k tag) = news.map id := by
    refine List.map_congr_left fun l hl => if_neg fun same => ?_
    exact old l (List.mem_append_right _ hl) same (created l hl)
  refine ⟨olds.map (Sync.retag keyOf k tag), news, ?_, ?_, ?_, created⟩
  · rw [List.map_append, untouched, List.map_id]
  · rw [← places, List.map_map]
    refine List.map_congr_left fun l _ => ?_
    rw [Function.comp_apply, Sync.retag]
    split <;> rfl
  · intro l hl
    obtain ⟨d, hd, rfl⟩ := List.mem_map.mp hl
    rw [Sync.retag]
    split
    · exact settled
    · exact tags d hd

theorem create (h : KeepsStored keyOf stored links) (a : α) :
    KeepsStored keyOf stored (links ++ [⟨a, .created⟩]) := by
  obtain ⟨olds, news, rfl, places, tags, created⟩ := h
  refine ⟨olds, news ++ [⟨a, .created⟩], List.append_assoc _ _ _, places, tags, ?_⟩
  intro l hl
  rcases List.mem_append.mp hl with old | new
  · exact created l old
  · rw [List.mem_singleton.mp new]

theorem discard (h : KeepsStored keyOf stored links)
    (new : ∀ l ∈ links, l.key keyOf = k → l.tag = .created) :
    KeepsStored keyOf stored (links.filter (·.key keyOf ≠ k)) := by
  obtain ⟨olds, news, rfl, places, tags, created⟩ := h
  have untouched : olds.filter (·.key keyOf ≠ k) = olds := by
    apply List.filter_eq_self.mpr
    intro l hl
    refine decide_eq_true fun same => ?_
    have tag := new l (List.mem_append_left _ hl) same
    rcases tags l hl with h | h <;> rw [h] at tag <;> cases tag
  refine ⟨olds, news.filter (·.key keyOf ≠ k), ?_, places, tags, ?_⟩
  · rw [List.filter_append, untouched]
  · exact fun l hl => created l (List.mem_filter.mp hl).1

end KeepsStored

namespace Sync

variable {s t : Sync keyOf} {stored : List (Link α)}

theorem keepsStored_move (w : s.WellFormed) (h : KeepsStored keyOf stored s.links) (m : Move s t) :
    KeepsStored keyOf stored t.links := by
  cases m with
  | pool _ => exact h
  | @create a absent =>
    rw [links_append w absent]
    exact h.create a
  | @discard k created =>
    rw [links, Keyed.toList_remove w.membership]
    exact h.discard fun l hl same => tag_of_tag? w hl same created
  | @restore k deleted =>
    rw [links_setTag w]
    refine h.retag (.inl rfl) fun l hl same created => ?_
    rw [tag_of_tag? w hl same deleted] at created
    cases created
  | @mark k tag tagged old =>
    rw [links_setTag w]
    refine h.retag (.inr rfl) fun l hl same created => ?_
    exact old ((tag_of_tag? w hl same tagged).symm.trans created)

theorem keepsStored_moves (w : s.WellFormed) (h : KeepsStored keyOf stored s.links)
    (m : Moves s t) : KeepsStored keyOf stored t.links := by
  induction m with
  | refl => exact h
  | tail before last ih => exact keepsStored_move (w.moves before) ih last

theorem links_takeStored (s : Sync keyOf) (stored : List (Link α)) :
    (s.takeStored stored).links = (targets keyOf stored).values.map .stored := by
  have pairs : (stored.map fun l => Link.stored l.target).map (fun l => (l.key keyOf, l)) =
      ((stored.map (·.target)).map fun a => (keyOf a, a)).map fun e => (e.1, Link.stored e.2) := by
    simp only [List.map_map]
    rfl
  have loaded : (s.takeStored stored).links =
      (OrderedMap.ofList ((stored.map fun l => Link.stored l.target).map fun l =>
        (l.key keyOf, l))).values := rfl
  rw [loaded, pairs, OrderedMap.ofList_mapValues, ← targets, OrderedMap.values,
    OrderedMap.mapValues, List.map_map, OrderedMap.values, List.map_map]
  rfl

theorem keepsStored_takeStored (s : Sync keyOf) (stored : List (Link α)) :
    KeepsStored keyOf stored (s.takeStored stored).links := by
  refine ⟨(targets keyOf stored).values.map .stored, [], ?_, ?_, ?_, nofun⟩
  · rw [links_takeStored, List.append_nil]
  · rw [List.map_map]
    exact List.map_id' _
  · intro l hl
    obtain ⟨a, _, rfl⟩ := List.mem_map.mp hl
    exact Or.inl rfl

theorem wellFormed_edited (keyOf : α → κ) (stored : List (Link α)) (h : History α κ) :
    (edited keyOf stored h).WellFormed := by
  have taken : ((empty.run h.before : Sync keyOf).takeStored stored).WellFormed :=
    (wellFormed_run h.before).act (.takeStored stored)
  exact taken.moves (moves_edits taken h.since)

/-- However an association was used before, and however it is edited after links were taken over,
those links keep their places and targets. -/
theorem keepsStored_edited (keyOf : α → κ) (stored : List (Link α)) (h : History α κ) :
    KeepsStored keyOf stored (edited keyOf stored h).links := by
  have taken : ((empty.run h.before : Sync keyOf).takeStored stored).WellFormed :=
    (wellFormed_run h.before).act (.takeStored stored)
  exact keepsStored_moves taken (keepsStored_takeStored _ stored) (moves_edits taken h.since)

end Sync

end BackOffice.Association
