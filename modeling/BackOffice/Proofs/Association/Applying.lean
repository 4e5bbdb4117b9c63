import BackOffice.Proofs.Association.Tagging

/-!
# What a change makes of the links

A change of the pool's selection meets every link on its own. What is left of a link is told by its
tag and by whether the change adds and whether it removes its key; links that are created come after
the ones that were there, and none of those is moved. This holds of changes of every kind, also of
those that name a key twice, that add and remove it, or that name keys which are not loaded.

So a change has done its work when it was applied once: applied again, it changes nothing.
-/
namespace BackOffice

/-- The change that does what one change and then another do. -/
def KeyChange.both {κ : Type} (c d : KeyChange κ) : KeyChange κ :=
  ⟨c.added ++ d.added, c.removed ++ d.removed⟩

/-- Nothing is added any more once something was removed, as in one change. -/
def KeyChange.AddsFirst {κ : Type} (c d : KeyChange κ) : Prop := d.added = [] ∨ c.removed = []

namespace Association

namespace Tag

/-- The tag of a member after a change that adds or removes it, unless it is no member any more. -/
def changed? (adds removes : Bool) (tag : Tag) : Option Tag :=
  let attached := if adds then attaching (some tag) else tag
  if removes then detaching (some attached) else some attached

theorem changed?_of_changed? {adds removes : Bool} {tag t : Tag}
    (h : tag.changed? adds removes = some t) : t.changed? adds removes = some t := by
  cases adds <;> cases removes <;> cases tag <;> cases h <;> rfl

/-- Two changes come to one that does what either does, if the second does not add after the first
removed. -/
theorem changed?_bind (adds removes more fewer : Bool) (order : more = false ∨ removes = false)
    (tag : Tag) : (tag.changed? adds removes).bind (changed? more fewer) =
      tag.changed? (adds || more) (removes || fewer) := by
  rcases order with rfl | rfl
  · cases adds <;> cases removes <;> cases fewer <;> cases tag <;> rfl
  · cases adds <;> cases more <;> cases fewer <;> cases tag <;> rfl

theorem detaching_of_ne_created {tag : Tag} (old : tag ≠ created) :
    detaching (some tag) = some deleted := by
  cases tag with
  | created => exact absurd rfl old
  | kept | updated | deleted | statusChanged => rfl

end Tag

variable {α κ : Type} [DecidableEq κ] {keyOf : α → κ} {c d : KeyChange κ}

namespace Link

variable {l m : Link α} {loaded : List κ}

/-- What is left of a link after a change, where certain candidates are loaded. -/
def changed? (keyOf : α → κ) (loaded : List κ) (c : KeyChange κ) (l : Link α) : Option (Link α) :=
  (l.tag.changed? (l.key keyOf ∈ c.added ∧ l.key keyOf ∈ loaded) (l.key keyOf ∈ c.removed)).map
    fun tag => { l with tag }

theorem changed?_eq_some_iff : l.changed? keyOf loaded c = some m ↔ m.target = l.target ∧
    l.tag.changed? (l.key keyOf ∈ c.added ∧ l.key keyOf ∈ loaded) (l.key keyOf ∈ c.removed) =
      some m.tag := by
  rw [changed?, Option.map_eq_some_iff]
  constructor
  · rintro ⟨tag, changed, rfl⟩
    exact ⟨rfl, changed⟩
  · rintro ⟨same, changed⟩
    exact ⟨m.tag, changed, by rw [← same]⟩

theorem key_of_changed? (h : l.changed? keyOf loaded c = some m) : m.key keyOf = l.key keyOf :=
  congrArg keyOf (changed?_eq_some_iff.mp h).1

/-- What a change has left of a link it leaves as it is. -/
theorem changed?_of_changed? (h : l.changed? keyOf loaded c = some m) :
    m.changed? keyOf loaded c = some m := by
  obtain ⟨_, changed⟩ := changed?_eq_some_iff.mp h
  rw [changed?_eq_some_iff, key_of_changed? h]
  exact ⟨rfl, Tag.changed?_of_changed? changed⟩

theorem changed?_changed? (order : c.AddsFirst d) (l : Link α) :
    (l.changed? keyOf loaded c).bind (changed? keyOf loaded d) =
      l.changed? keyOf loaded (c.both d) := by
  have adds : decide (l.key keyOf ∈ c.added ++ d.added ∧ l.key keyOf ∈ loaded) =
      (decide (l.key keyOf ∈ c.added ∧ l.key keyOf ∈ loaded) ||
        decide (l.key keyOf ∈ d.added ∧ l.key keyOf ∈ loaded)) := by
    rw [← Bool.decide_or]
    exact decide_eq_decide.mpr (by rw [List.mem_append, or_and_right])
  have removes : decide (l.key keyOf ∈ c.removed ++ d.removed) =
      (decide (l.key keyOf ∈ c.removed) || decide (l.key keyOf ∈ d.removed)) := by
    rw [← Bool.decide_or]
    exact decide_eq_decide.mpr List.mem_append
  have tagOrder : decide (l.key keyOf ∈ d.added ∧ l.key keyOf ∈ loaded) = false ∨
      decide (l.key keyOf ∈ c.removed) = false := by
    rcases order with none | none <;> simp [none]
  rw [changed?, changed?, KeyChange.both, adds, removes, ← Tag.changed?_bind _ _ _ _ tagOrder,
    Option.bind_map, Option.map_bind]
  rfl

/-- A link that is to be created is dropped if it is removed, and else stays as it is. -/
theorem changed?_of_created (created : l.tag = .created) :
    l.changed? keyOf loaded c = if l.key keyOf ∈ c.removed then none else some l := by
  have same : ({ l with tag := .created } : Link α) = l := by rw [← created]
  rw [changed?, created]
  by_cases adds : l.key keyOf ∈ c.added ∧ l.key keyOf ∈ loaded <;>
    by_cases removes : l.key keyOf ∈ c.removed <;>
    simp [adds, removes, Tag.changed?, Tag.attaching, Tag.detaching, same]

theorem filterMap_changed?_created {links : List (Link α)} (new : ∀ l ∈ links, l.tag = .created) :
    links.filterMap (changed? keyOf loaded c) = links.filter (·.key keyOf ∉ c.removed) := by
  rw [← List.filterMap_eq_filter]
  refine List.filterMap_congr fun l hl => ?_
  rw [changed?_of_created (new l hl)]
  by_cases removed : l.key keyOf ∈ c.removed <;> simp [removed, Option.guard]

theorem changed?_of_unnamed (added : ¬(l.key keyOf ∈ c.added ∧ l.key keyOf ∈ loaded))
    (removed : l.key keyOf ∉ c.removed) : l.changed? keyOf loaded c = some l := by
  rw [changed?, decide_eq_false added, decide_eq_false removed]
  rfl

/-- A change that leaves each link as it is leaves all of them in their order. -/
theorem filterMap_changed?_same {links : List (Link α)}
    (same : ∀ l ∈ links, l.changed? keyOf loaded c = some l) :
    links.filterMap (changed? keyOf loaded c) = links :=
  (List.filterMap_congr same).trans List.filterMap_some

theorem targets_changed? (links : List (Link α)) :
    ((links.filterMap (changed? keyOf loaded c)).map (·.target)).Sublist
      (links.map (·.target)) := by
  induction links with
  | nil => exact .slnil
  | cons l rest ih =>
    cases left : l.changed? keyOf loaded c with
    | none =>
      rw [List.filterMap_cons_none left]
      exact ih.cons _
    | some m =>
      rw [List.filterMap_cons_some left, List.map_cons, (changed?_eq_some_iff.mp left).1]
      exact ih.cons_cons _

end Link

namespace Sync

variable {s t u : Sync keyOf} {k : κ} {l : Link α}

/-- The link is created by a change: its candidate is loaded and was no member. -/
structure Created (s : Sync keyOf) (c : KeyChange κ) (l : Link α) : Prop where
  tag : l.tag = .created
  added : l.key keyOf ∈ c.added
  loaded : l.key keyOf ∈ s.pool.keys
  kept : l.key keyOf ∉ c.removed
  new : l.key keyOf ∉ s.links.map (Link.key keyOf)

/-- A change leads from one association to another: what is left of each link has its place, and
created links come last. Members that go are no longer selected. -/
structure Follows (s : Sync keyOf) (c : KeyChange κ) (t : Sync keyOf) : Prop where
  pool : t.pool = s.pool
  selected : t.membership.selected =
    s.membership.selected.filter (· ∈ t.links.map (Link.key keyOf))
  links : ∃ created, t.links = s.links.filterMap (Link.changed? keyOf s.pool.keys c) ++ created ∧
    ∀ l ∈ created, s.Created c l

omit [DecidableEq κ] in
theorem WellFormed.selected_loaded (w : s.WellFormed) (selected : k ∈ s.membership.selected) :
    k ∈ s.links.map (Link.key keyOf) := by
  have loaded := w.membership.selected_loaded k selected
  rwa [w.membership.keys_eq] at loaded

theorem WellFormed.selected_of_same (w : t.WellFormed)
    (same : t.membership.selected = s.membership.selected) : t.membership.selected =
      s.membership.selected.filter (· ∈ t.links.map (Link.key keyOf)) := by
  rw [← same]
  exact (List.filter_eq_self.mpr fun k hk => decide_eq_true (w.selected_loaded hk)).symm

/-- A change that leaves each link as it is leads back to the association itself. -/
theorem follows_same (w : s.WellFormed)
    (same : ∀ l ∈ s.links, l.changed? keyOf s.pool.keys c = some l) : s.Follows c s := by
  refine ⟨rfl, w.selected_of_same rfl, [], ?_, List.forall_mem_nil _⟩
  rw [Link.filterMap_changed?_same same, List.append_nil]

theorem follows_nothing (w : s.WellFormed) : s.Follows ⟨[], []⟩ s :=
  follows_same w fun _ _ =>
    Link.changed?_of_unnamed (fun h => List.not_mem_nil h.1) List.not_mem_nil

/-- A change that removes nothing leaves every member. -/
theorem Follows.mem_keys (f : s.Follows c t) (none : c.removed = [])
    (member : k ∈ s.links.map (Link.key keyOf)) : k ∈ t.links.map (Link.key keyOf) := by
  obtain ⟨created, links, _⟩ := f.links
  obtain ⟨l, hl, rfl⟩ := List.mem_map.mp member
  obtain ⟨tag, changed⟩ : ∃ tag, l.tag.changed?
      (l.key keyOf ∈ c.added ∧ l.key keyOf ∈ s.pool.keys) (l.key keyOf ∈ c.removed) = some tag := by
    simp [Tag.changed?, none]
  have left : l.changed? keyOf s.pool.keys c = some { l with tag } :=
    Link.changed?_eq_some_iff.mpr ⟨rfl, changed⟩
  rw [links]
  exact List.mem_map.mpr
    ⟨{ l with tag }, List.mem_append_left _ (List.mem_filterMap.mpr ⟨l, hl, left⟩), rfl⟩

/-- A change that adds nothing makes no new member. -/
theorem Follows.keys_subset (f : s.Follows c t) (none : c.added = []) :
    t.links.map (Link.key keyOf) ⊆ s.links.map (Link.key keyOf) := by
  obtain ⟨created, links, new⟩ := f.links
  have nothing : created = [] := by
    refine List.eq_nil_iff_forall_not_mem.mpr fun l hl => ?_
    have added := (new l hl).added
    rw [none] at added
    cases added
  have left : ((s.links.filterMap (Link.changed? keyOf s.pool.keys c)).map (·.target)).Sublist
      (s.links.map (·.target)) := Link.targets_changed? s.links
  replace left := left.map keyOf
  rw [List.map_map, List.map_map] at left
  rw [links, nothing, List.append_nil]
  exact left.subset

omit [DecidableEq κ] in
/-- A created link that the later change does not remove is created by both. -/
theorem Created.both (first : s.Created c l) (stays : l.key keyOf ∉ d.removed) :
    s.Created (c.both d) l :=
  ⟨first.tag, List.mem_append_left _ first.added, first.loaded,
    fun gone => (List.mem_append.mp gone).elim first.kept stays, first.new⟩

/-- A link that the later change creates is created by both: nothing was removed before it. -/
theorem Follows.created_both (f : s.Follows c t) (order : c.AddsFirst d) (second : t.Created d l) :
    s.Created (c.both d) l := by
  obtain ⟨tag, added, loaded, kept, absent⟩ := second
  have none : c.removed = [] := order.resolve_left fun none => by simp [none] at added
  refine ⟨tag, List.mem_append_right _ added, f.pool ▸ loaded, ?_, ?_⟩
  · simpa [KeyChange.both, none] using kept
  · exact fun member => absent (f.mem_keys none member)

theorem Follows.selected_trans (w : s.WellFormed) (f : s.Follows c t) (g : t.Follows d u)
    (order : c.AddsFirst d) : u.membership.selected =
      s.membership.selected.filter (· ∈ u.links.map (Link.key keyOf)) := by
  rw [g.selected, f.selected, List.filter_filter]
  refine List.filter_congr fun k hk => ?_
  rw [← Bool.decide_and]
  refine decide_eq_decide.mpr (and_iff_left_of_imp fun stays => ?_)
  exact order.elim (fun none => g.keys_subset none stays)
    fun none => f.mem_keys none (w.selected_loaded hk)

/-- One change after another makes of the association what both make of it at once. -/
theorem Follows.trans (w : s.WellFormed) (f : s.Follows c t) (g : t.Follows d u)
    (order : c.AddsFirst d) : s.Follows (c.both d) u := by
  refine ⟨g.pool.trans f.pool, f.selected_trans w g order, ?_⟩
  obtain ⟨first, links, created⟩ := f.links
  obtain ⟨second, links', created'⟩ := g.links
  rw [f.pool] at links'
  refine ⟨first.filter (·.key keyOf ∉ d.removed) ++ second, ?_, ?_⟩
  · rw [links', links, List.filterMap_append, List.filterMap_filterMap,
      Link.filterMap_changed?_created fun l hl => (created l hl).tag, List.append_assoc]
    congr 1
    exact List.filterMap_congr fun l _ => Link.changed?_changed? order l
  · intro l hl
    rcases List.mem_append.mp hl with old | new
    · obtain ⟨member, stays⟩ := List.mem_filter.mp old
      exact (created l member).both (of_decide_eq_true stays)
    · exact f.created_both order (created' l new)

/-- Links whose keys the change does not name stay as they are and in their order. -/
theorem Follows.filter_links (f : s.Follows c t) {p : κ → Bool}
    (unnamed : ∀ k, p k = true → k ∉ c.added ∧ k ∉ c.removed) :
    t.links.filter (fun l => p (l.key keyOf)) = s.links.filter fun l => p (l.key keyOf) := by
  obtain ⟨created, links, new⟩ := f.links
  have none : created.filter (fun l => p (l.key keyOf)) = [] :=
    List.filter_eq_nil_iff.mpr fun l hl spared => (unnamed _ spared).1 (new l hl).added
  rw [links, List.filter_append, none, List.append_nil, List.filter_filterMap,
    ← List.filterMap_eq_filter]
  refine List.filterMap_congr fun l _ => ?_
  by_cases spared : p (l.key keyOf) = true
  · obtain ⟨added, removed⟩ := unnamed _ spared
    rw [Link.changed?_of_unnamed (fun h => added h.1) removed]
    simp [spared, Option.guard]
  · cases left : l.changed? keyOf s.pool.keys c with
    | none => simp [spared, Option.guard]
    | some m => simp [Link.key_of_changed? left, spared, Option.guard]

/-! ## One candidate -/

theorem map_retag_same (w : s.WellFormed) {tag : Tag} (tagged : s.tag? k = some tag) :
    s.links.map (retag keyOf k tag) = s.links := by
  refine (List.map_congr_left fun l hl => ?_).trans (List.map_id' _)
  rw [retag]
  split
  · next same => rw [← tag_of_tag? w hl same tagged]
  · rfl

theorem links_attach (w : s.WellFormed) {a : α} {tag : Tag} (tagged : s.tag? (keyOf a) = some tag) :
    (s.attach (keyOf a) a).links =
      s.links.map (retag keyOf (keyOf a) (Tag.attaching (some tag))) := by
  cases tag with
  | deleted =>
    simp only [attach, tagged]
    exact links_setTag w (keyOf a) .kept
  | kept | created | updated | statusChanged =>
    simp only [attach, tagged]
    exact (map_retag_same w tagged).symm

theorem links_detach (w : s.WellFormed) {tag : Tag} (tagged : s.tag? k = some tag)
    (old : tag ≠ .created) : (s.detach k).links = s.links.map (retag keyOf k .deleted) := by
  cases tag with
  | created => exact absurd rfl old
  | deleted =>
    simp only [detach, tagged]
    exact (map_retag_same w tagged).symm
  | kept | updated | statusChanged =>
    simp only [detach, tagged]
    exact links_setTag w k .deleted

theorem selected_setTag (w : s.WellFormed) (k : κ) (tag : Tag) :
    (s.setTag k tag).membership.selected = s.membership.selected := by
  cases found : s.membership.find? k with
  | none => rw [setTag, found]
  | some l =>
    have own : Link.key keyOf { l with tag } = k := (w.membership.find?_eq_some_iff.mp found).2
    rw [setTag_of_find? tag found, Keyed.replace_own_key (Keyed.mem_keys_of_find? found) own]

theorem selected_attach (w : s.WellFormed) (k : κ) (a : α) :
    (s.attach k a).membership.selected = s.membership.selected := by
  rw [attach]
  split
  · rfl
  · exact selected_setTag w k .kept
  · rfl

theorem selected_detach (w : s.WellFormed) (k : κ) : (s.detach k).membership.selected =
    s.membership.selected.filter (· ∈ (s.detach k).links.map (Link.key keyOf)) := by
  have w' : (s.detach k).WellFormed := w.detach k
  cases tagged : s.tag? k with
  | none =>
    refine w'.selected_of_same ?_
    simp only [detach, tagged]
  | some tag =>
    cases tag with
    | created =>
      have keys : (s.detach k).links.map (Link.key keyOf) = (s.detach k).membership.keys :=
        w'.membership.keys_eq.symm
      rw [keys]
      simp only [detach, tagged]
      refine List.filter_congr fun j hj => decide_eq_decide.mpr ?_
      have loaded := w.membership.selected_loaded j hj
      exact (OrderedMap.mem_keys_erase.trans (and_iff_right loaded)).symm
    | deleted =>
      refine w'.selected_of_same ?_
      simp only [detach, tagged]
    | kept | updated | statusChanged =>
      refine w'.selected_of_same ?_
      simp only [detach, tagged, selected_setTag w]

/-- A change that retags the members with one key, and passes over all others. -/
theorem filterMap_eq_map_retag {tag : Tag}
    (own : ∀ l ∈ s.links, l.key keyOf = k →
      l.changed? keyOf s.pool.keys c = some { l with tag })
    (other : ∀ l ∈ s.links, l.key keyOf ≠ k → l.changed? keyOf s.pool.keys c = some l) :
    s.links.map (retag keyOf k tag) = s.links.filterMap (Link.changed? keyOf s.pool.keys c) := by
  rw [← List.filterMap_eq_map]
  refine List.filterMap_congr fun l hl => ?_
  rw [Function.comp_apply, retag]
  split
  · next same => exact (own l hl same).symm
  · next differs => exact (other l hl differs).symm

theorem follows_attach (w : s.WellFormed) {a : α} (loaded : keyOf a ∈ s.pool.keys) :
    s.Follows ⟨[keyOf a], []⟩ (s.attach (keyOf a) a) := by
  have selected : (s.attach (keyOf a) a).membership.selected =
      s.membership.selected.filter (· ∈ (s.attach (keyOf a) a).links.map (Link.key keyOf)) :=
    WellFormed.selected_of_same (w.moves (moves_attach s a)) (selected_attach w (keyOf a) a)
  refine ⟨pool_attach s (keyOf a) a, selected, ?_⟩
  have other : ∀ l ∈ s.links, l.key keyOf ≠ keyOf a →
      l.changed? keyOf s.pool.keys ⟨[keyOf a], []⟩ = some l := fun l _ differs =>
    Link.changed?_of_unnamed (fun h => differs (List.mem_singleton.mp h.1)) List.not_mem_nil
  cases tagged : s.tag? (keyOf a) with
  | none =>
    have absent := key_ne_of_tag?_none w tagged
    refine ⟨[⟨a, .created⟩], ?_, ?_⟩
    · simp only [attach, tagged]
      rw [links_append w tagged,
        Link.filterMap_changed?_same fun l hl => other l hl (absent l hl)]
    · intro l hl
      rw [List.mem_singleton.mp hl]
      refine ⟨rfl, List.mem_singleton_self _, loaded, List.not_mem_nil, fun member => ?_⟩
      obtain ⟨m, hm, same⟩ := List.mem_map.mp member
      exact absent m hm same
  | some tag =>
    refine ⟨[], ?_, List.forall_mem_nil _⟩
    rw [links_attach w tagged, List.append_nil]
    refine filterMap_eq_map_retag (fun l hl same => ?_) other
    simp [Link.changed?, Tag.changed?, same, loaded, tag_of_tag? w hl same tagged]

theorem follows_detach (w : s.WellFormed) (k : κ) : s.Follows ⟨[], [k]⟩ (s.detach k) := by
  have other : ∀ l ∈ s.links, l.key keyOf ≠ k →
      l.changed? keyOf s.pool.keys ⟨[], [k]⟩ = some l := fun l _ differs =>
    Link.changed?_of_unnamed (fun h => List.not_mem_nil h.1)
      fun h => differs (List.mem_singleton.mp h)
  cases tagged : s.tag? k with
  | none =>
    simp only [detach, tagged]
    exact follows_same w fun l hl => other l hl (key_ne_of_tag?_none w tagged l hl)
  | some tag =>
    refine ⟨pool_detach s k, selected_detach w k, [], ?_, List.forall_mem_nil _⟩
    rw [List.append_nil]
    by_cases created : tag = .created
    · subst created
      simp only [detach, tagged]
      rw [links, Keyed.toList_remove w.membership, ← List.filterMap_eq_filter]
      refine List.filterMap_congr fun l hl => ?_
      by_cases same : l.key keyOf = k
      · rw [Link.changed?_of_created (tag_of_tag? w hl same tagged)]
        simp [same, Option.guard]
      · rw [other l hl same]
        simp [same, Option.guard]
    · rw [links_detach w tagged created]
      refine filterMap_eq_map_retag (fun l hl same => ?_) other
      simp [Link.changed?, Tag.changed?, same, tag_of_tag? w hl same tagged,
        Tag.detaching_of_ne_created created]

/-! ## The keys of a change -/

theorem follows_attachLoaded (w : s.WellFormed) (k : κ) :
    s.Follows ⟨[k], []⟩ (s.attachLoaded k) := by
  cases found : s.pool.find? k with
  | none =>
    have absent : k ∉ s.pool.keys := OrderedMap.get?_eq_none_iff.mp found
    simp only [attachLoaded, found]
    refine follows_same w fun l _ => ?_
    refine Link.changed?_of_unnamed (fun h => absent ?_) List.not_mem_nil
    exact List.mem_singleton.mp h.1 ▸ h.2
  | some a =>
    have loaded : k ∈ s.pool.keys := Keyed.mem_keys_of_find? found
    obtain ⟨_, rfl⟩ := w.pool.find?_eq_some_iff.mp found
    simp only [attachLoaded, found]
    exact follows_attach w loaded

theorem follows_foldl_attachLoaded (w : s.WellFormed) (ks : List κ) :
    s.Follows ⟨ks, []⟩ (ks.foldl attachLoaded s) := by
  induction ks generalizing s with
  | nil => exact follows_nothing w
  | cons k rest ih =>
    exact (follows_attachLoaded w k).trans w (ih (w.attachLoaded k)) (.inr rfl)

theorem follows_foldl_detach (w : s.WellFormed) (ks : List κ) :
    s.Follows ⟨[], ks⟩ (ks.foldl detach s) := by
  induction ks generalizing s with
  | nil => exact follows_nothing w
  | cons k rest ih => exact (follows_detach w k).trans w (ih (w.detach k)) (.inl rfl)

/-- A change of any kind does to each link what its tag and the change say. -/
theorem follows_apply (w : s.WellFormed) (c : KeyChange κ) : s.Follows c (s.apply c) := by
  have added := follows_foldl_attachLoaded w c.added
  have removed := follows_foldl_detach (wellFormed_foldl_attachLoaded w c.added) c.removed
  have follows : s.Follows (.both ⟨c.added, []⟩ ⟨[], c.removed⟩) (s.apply c) :=
    added.trans w removed (.inl rfl)
  rwa [KeyChange.both, List.append_nil, List.nil_append] at follows

/-! ## A change once and again -/

theorem links_apply_apply (w : s.WellFormed) (c : KeyChange κ) :
    ((s.apply c).apply c).links = (s.apply c).links := by
  have w' : (s.apply c).WellFormed := w.moves (moves_apply w c)
  have first := follows_apply w c
  obtain ⟨created, links, new⟩ := first.links
  obtain ⟨again, links', new'⟩ := (follows_apply w' c).links
  rw [first.pool] at links'
  have settled : ∀ l ∈ (s.apply c).links, l.changed? keyOf s.pool.keys c = some l := by
    intro l hl
    rw [links] at hl
    rcases List.mem_append.mp hl with old | added
    · obtain ⟨d, _, left⟩ := List.mem_filterMap.mp old
      exact Link.changed?_of_changed? left
    · rw [Link.changed?_of_created (new l added).tag, if_neg (new l added).kept]
  have nothing : again = [] := by
    refine List.eq_nil_iff_forall_not_mem.mpr fun l hl => ?_
    obtain ⟨_, added, loaded, kept, absent⟩ := new' l hl
    have attached : l.key keyOf ∈ (s.apply c).attached :=
      (mem_attached_apply w c).mpr ⟨Or.inr ⟨added, first.pool ▸ loaded⟩, kept⟩
    exact absent ((List.filter_sublist.map _).subset attached)
  rw [links', nothing, List.append_nil, Link.filterMap_changed?_same settled]

omit [DecidableEq κ] in
/-- Two associations are the same if they show the same pool, links and selected members. -/
theorem eq_of_links (w : s.WellFormed) (w' : t.WellFormed) (pool : s.pool = t.pool)
    (links : s.links = t.links) (selected : s.membership.selected = t.membership.selected) :
    s = t := by
  have entries : s.membership.items.entries = t.membership.items.entries := by
    rw [w.membership.items.entries_eq, w'.membership.items.entries_eq]
    exact congrArg (List.map _) links
  obtain ⟨_, ⟨⟨_⟩, _⟩⟩ := s
  obtain ⟨_, ⟨⟨_⟩, _⟩⟩ := t
  cases pool
  cases entries
  cases selected
  rfl

/-- A change that was applied has done its work, whatever it names and whatever the members are
tagged with: applied again, it leaves every link, its tag and its place as they are. -/
theorem apply_apply (w : s.WellFormed) (c : KeyChange κ) : (s.apply c).apply c = s.apply c := by
  have w' : (s.apply c).WellFormed := w.moves (moves_apply w c)
  have links := links_apply_apply w c
  refine eq_of_links (w'.moves (moves_apply w' c)) w' (pool_apply _ c) links ?_
  have selected := (follows_apply w' c).selected
  rw [links] at selected
  exact selected.trans (w'.selected_of_same rfl).symm

/-- Members with each tag meet a change that names a candidate twice, two that it adds and removes,
and two that are not loaded. -/
theorem apply_apply_overlapping :
    let s : Sync (id : Nat → Nat) := (empty.takeDraft [⟨1, .kept⟩, ⟨2, .updated⟩, ⟨3, .deleted⟩,
      ⟨4, .created⟩, ⟨5, .statusChanged⟩]).offer [6, 3, 1, 7]
    let c : KeyChange Nat := ⟨[6, 3, 9, 6, 7, 2], [7, 4, 5, 3, 4]⟩
    s.WellFormed ∧
      (s.apply c).links = [⟨1, .kept⟩, ⟨2, .updated⟩, ⟨3, .deleted⟩, ⟨5, .deleted⟩, ⟨6, .created⟩] ∧
      (s.apply c).apply c = s.apply c := by
  intro s c
  have w : s.WellFormed := wellFormed_run [.takeDraft [⟨1, .kept⟩, ⟨2, .updated⟩, ⟨3, .deleted⟩,
    ⟨4, .created⟩, ⟨5, .statusChanged⟩], .edit (.offer [6, 3, 1, 7])]
  exact ⟨w, by decide, apply_apply w c⟩

end Sync

end Association

end BackOffice
