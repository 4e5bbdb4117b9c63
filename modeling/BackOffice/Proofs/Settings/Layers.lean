import BackOffice.Proofs.OrderedMap
import BackOffice.Proofs.Reading
import BackOffice.Settings.Bundled
import BackOffice.Settings.Document

/-!
# Settings laid over each other

Settings that are laid over each other come to what their layers list, one layer after the other: the
rules of an entity are all the rules listed for it put into one map, and the associations are all the
associations listed, each in the place of the first of its owner and field. As putting in what a map
holds is the same as putting in what it was made of, layers may be combined in groups first.
-/
namespace BackOffice

/-! ## Rules of entities -/

/-- No entity stands twice, and no field twice under an entity. -/
structure Distinct (rules : OrderedMap String Ruleset) : Prop where
  entities : rules.keys.Nodup
  fields : ∀ e ∈ rules.entries, e.2.keys.Nodup

instance (rules : OrderedMap String Ruleset) : Decidable (Distinct rules) :=
  decidable_of_iff (rules.keys.Nodup ∧ ∀ e ∈ rules.entries, e.2.keys.Nodup)
    ⟨fun h => ⟨h.1, h.2⟩, fun h => ⟨h.entities, h.fields⟩⟩

/-- The rules of entities laid over others, one entity after the other. -/
def layRules (rules : OrderedMap String Ruleset) (layers : List (String × Ruleset)) :
    OrderedMap String Ruleset :=
  layers.foldl (fun rules (entity, others) => Settings.overlayRules rules entity others) rules

/-- The rules that are listed for an entity, in their order. -/
def listedFor (entity : String) (layers : List (String × Ruleset)) : List (String × Rule) :=
  (layers.filter (·.1 = entity)).flatMap (·.2.entries)

variable {rules : OrderedMap String Ruleset}

theorem Distinct.empty : Distinct .empty where
  entities := OrderedMap.nodup_keys_empty
  fields _ he := nomatch he

theorem Distinct.held (h : Distinct rules) (entity : String) :
    ((rules.get? entity).getD .empty).keys.Nodup := by
  cases found : rules.get? entity with
  | none => exact OrderedMap.nodup_keys_empty
  | some own => exact h.fields _ (OrderedMap.mem_of_get? found)

theorem Distinct.overlayRules (h : Distinct rules) (entity : String) (others : Ruleset) :
    Distinct (Settings.overlayRules rules entity others) where
  entities := OrderedMap.nodup_keys_insert h.entities
  fields e he := by
    rcases OrderedMap.mem_of_mem_insert h.entities he with rfl | old
    · exact OrderedMap.nodup_keys_insertAll (h.held entity) others.entries
    · exact h.fields e old

theorem layRules_concat (rules : OrderedMap String Ruleset) (layers : List (String × Ruleset))
    (e : String × Ruleset) : layRules rules (layers ++ [e]) =
      Settings.overlayRules (layRules rules layers) e.1 e.2 :=
  List.foldl_concat ..

theorem Distinct.layRules (h : Distinct rules) (layers : List (String × Ruleset)) :
    Distinct (layRules rules layers) := by
  induction layers using List.reverseRecOn with
  | nil => exact h
  | append_singleton layers e ih =>
    rw [layRules_concat]
    exact ih.overlayRules e.1 e.2

theorem keys_layRules (unique : rules.keys.Nodup) (layers : List (String × Ruleset)) :
    (layRules rules layers).keys = (rules.keys ++ layers.map (·.1)).eraseDups := by
  have inserts : layRules rules layers = layers.foldl (fun rules e =>
      rules.insert e.1 (((rules.get? e.1).getD .empty).overlay e.2)) rules := rfl
  rw [inserts]
  exact OrderedMap.keys_foldl_insert Prod.fst _ unique layers

/-- An entity holds the rules that it held, with all those that are listed for it put in. -/
theorem held_layRules (h : Distinct rules) (layers : List (String × Ruleset)) (entity : String) :
    ((layRules rules layers).get? entity).getD .empty =
      ((rules.get? entity).getD .empty).insertAll (listedFor entity layers) := by
  induction layers using List.reverseRecOn with
  | nil => rfl
  | append_singleton layers e ih =>
    rw [layRules_concat, Settings.overlayRules, OrderedMap.get?_insert (h.layRules layers).entities]
    simp only [listedFor, List.filter_append, List.flatMap_append, OrderedMap.insertAll_append]
      at ih ⊢
    by_cases own : entity = e.1
    · subst own
      simp [ih, Ruleset.overlay]
    · simp [own, Ne.symm own, ih, OrderedMap.insertAll]

theorem listedFor_entries (unique : rules.keys.Nodup) (entity : String) :
    listedFor entity rules.entries = ((rules.get? entity).getD .empty).entries := by
  rw [listedFor, OrderedMap.filter_key unique]
  cases rules.get? entity with
  | none => rfl
  | some own => simp

theorem get?_eq_held (rules : OrderedMap String Ruleset) (entity : String) :
    rules.get? entity =
      if entity ∈ rules.keys then some ((rules.get? entity).getD .empty) else none := by
  split
  · next known =>
    obtain ⟨own, found⟩ := Option.ne_none_iff_exists'.mp fun none =>
      OrderedMap.get?_eq_none_iff.mp none known
    rw [found, Option.getD_some]
  · next unknown => exact OrderedMap.get?_eq_none_iff.mpr unknown

/-- Laying rules over each other first makes no difference. -/
theorem layRules_layRules (h : Distinct rules) (layers : List (String × Ruleset)) :
    layRules rules (layRules .empty layers).entries = layRules rules layers := by
  have keys : (layRules rules (layRules .empty layers).entries).keys =
      (layRules rules layers).keys := by
    have firsts : (layRules .empty layers).entries.map (·.1) = (layers.map (·.1)).eraseDups :=
      keys_layRules OrderedMap.nodup_keys_empty layers
    rw [keys_layRules h.entities, keys_layRules h.entities, firsts,
      OrderedMap.eraseDups_append_eraseDups]
  refine OrderedMap.eq_of_get? (h.layRules _).entities keys fun entity => ?_
  have held : ((layRules .empty layers).get? entity).getD .empty =
      OrderedMap.ofList (listedFor entity layers) := held_layRules .empty layers entity
  rw [get?_eq_held, get?_eq_held (layRules rules layers), keys, held_layRules h, held_layRules h,
    listedFor_entries (Distinct.empty.layRules layers).entities, held,
    OrderedMap.insertAll_ofList (h.held entity)]

/-! ## Associations -/

namespace LinkDefinition

/-- Associations put with others one after the other. -/
def putAll (links more : List LinkDefinition) : List LinkDefinition :=
  more.foldl (fun links d => d.put links) links

/-- The associations as a map of which the keys are their owners and fields. -/
def byPlace (links : List LinkDefinition) : OrderedMap (String × String) LinkDefinition :=
  ⟨links.map fun d => (d.place, d)⟩

variable {links : List LinkDefinition}

theorem keys_byPlace (links : List LinkDefinition) : (byPlace links).keys = links.map (·.place) :=
  List.map_map

theorem get?_byPlace (links : List LinkDefinition) (place : String × String) :
    (byPlace links).get? place = links.find? (·.place = place) :=
  OrderedMap.lookup_map_key LinkDefinition.place links place

theorem values_byPlace (links : List LinkDefinition) : (byPlace links).values = links :=
  List.map_map.trans (List.map_id' links)

theorem byPlace_put (d : LinkDefinition) (links : List LinkDefinition) :
    byPlace (d.put links) = (byPlace links).insert d.place d := by
  refine congrArg OrderedMap.mk ?_
  rw [byPlace]
  induction links with
  | nil => rfl
  | cons e rest ih =>
    by_cases same : e.place = d.place
    · simp only [put, if_pos same, List.map_cons, OrderedMap.put]
    · simp only [put, if_neg same, List.map_cons, OrderedMap.put, ih]

theorem byPlace_putAll (links more : List LinkDefinition) :
    byPlace (putAll links more) = (byPlace links).insertAll (byPlace more).entries := by
  induction more using List.reverseRecOn with
  | nil => rfl
  | append_singleton more d ih =>
    have last : (byPlace (more ++ [d])).entries = (byPlace more).entries ++ [(d.place, d)] :=
      List.map_append
    rw [putAll, List.foldl_concat, byPlace_put, last, OrderedMap.insertAll_concat, ← ih, putAll]

/-- The associations that are put together are made of all that are given. -/
theorem byPlace_putAll_nil (links : List LinkDefinition) :
    byPlace (putAll [] links) = OrderedMap.ofList (byPlace links).entries :=
  byPlace_putAll [] links

/-- Putting associations together first makes no difference. -/
theorem putAll_putAll (unique : (links.map (·.place)).Nodup) (more : List LinkDefinition) :
    putAll links (putAll [] more) = putAll links more := by
  rw [← keys_byPlace] at unique
  rw [← values_byPlace (putAll links (putAll [] more)), byPlace_putAll, byPlace_putAll_nil,
    OrderedMap.insertAll_ofList unique, ← byPlace_putAll, values_byPlace]

theorem nodup_places_putAll (unique : (links.map (·.place)).Nodup) (more : List LinkDefinition) :
    ((putAll links more).map (·.place)).Nodup := by
  rw [← keys_byPlace] at unique ⊢
  rw [byPlace_putAll]
  exact OrderedMap.nodup_keys_insertAll unique (byPlace more).entries

theorem places_putAll_nil (links : List LinkDefinition) :
    (putAll [] links).map (·.place) = (links.map (·.place)).eraseDups := by
  have equality : (instBEqProd : BEq (String × String)) = instBEqOfDecidableEq :=
    lawful_beq_subsingleton _ _
  rw [equality, ← keys_byPlace, ← keys_byPlace links, byPlace_putAll_nil]
  exact OrderedMap.keys_ofList (byPlace links).entries

theorem find?_putAll_nil (links : List LinkDefinition) (place : String × String) :
    (putAll [] links).find? (·.place = place) = links.reverse.find? (·.place = place) := by
  rw [← get?_byPlace, byPlace_putAll_nil, OrderedMap.get?_ofList, byPlace, ← List.map_reverse]
  exact get?_byPlace links.reverse place

end LinkDefinition

/-! ## Layers -/

namespace Settings

open LinkDefinition

theorem ofLayers_concat (all : List Settings) (s : Settings) :
    ofLayers (all ++ [s]) = (ofLayers all).overlay s :=
  List.foldl_concat ..

theorem sizes_ofLayers (all : List Settings) :
    (ofLayers all).defaultPageSize = (all.getLast?.getD empty).defaultPageSize ∧
      (ofLayers all).maxPageSize = (all.getLast?.getD empty).maxPageSize := by
  induction all using List.reverseRecOn with
  | nil => exact ⟨rfl, rfl⟩
  | append_singleton all s _ =>
    rw [ofLayers_concat, List.getLast?_concat]
    exact ⟨rfl, rfl⟩

theorem rules_ofLayers (all : List Settings) :
    (ofLayers all).rules = layRules .empty (all.flatMap (·.rules.entries)) := by
  induction all using List.reverseRecOn with
  | nil => rfl
  | append_singleton all s ih =>
    have step : ((ofLayers all).overlay s).rules = layRules (ofLayers all).rules s.rules.entries :=
      rfl
    rw [ofLayers_concat, step, ih, List.flatMap_append, List.flatMap_singleton, layRules, layRules,
      layRules, List.foldl_append]

theorem links_ofLayers (all : List Settings) :
    (ofLayers all).links = putAll [] (all.flatMap (·.links)) := by
  induction all using List.reverseRecOn with
  | nil => rfl
  | append_singleton all s ih =>
    have step : ((ofLayers all).overlay s).links = putAll (ofLayers all).links s.links := rfl
    rw [ofLayers_concat, step, ih, List.flatMap_append, List.flatMap_singleton, putAll, putAll,
      putAll, List.foldl_append]

/-- A fold over what each group comes to is the fold over all that the groups hold, if one over what
a list comes to is the same as one over the list. -/
theorem foldl_groups {σ β : Type} {step : σ → β → σ} {comesTo : List β → List β} (Good : σ → Prop)
    (keeps : ∀ s (items : List β), Good s → Good (items.foldl step s))
    (same : ∀ s (items : List β), Good s → (comesTo items).foldl step s = items.foldl step s)
    (parts : Settings → List β) (groups : List (List Settings)) {s : σ} (good : Good s) :
    (groups.flatMap fun group => comesTo (group.flatMap parts)).foldl step s =
      (groups.flatten.flatMap parts).foldl step s := by
  induction groups generalizing s with
  | nil => rfl
  | cons group rest ih =>
    rw [List.flatMap_cons, List.flatten_cons, List.flatMap_append, List.foldl_append,
      List.foldl_append, same s _ good, ih (keeps s _ good)]

theorem rules_groups (groups : List (List Settings)) :
    (ofLayers (groups.map ofLayers)).rules = (ofLayers groups.flatten).rules := by
  simp only [rules_ofLayers, List.flatMap_map]
  exact foldl_groups Distinct (fun _ layers h => h.layRules layers)
    (fun _ layers h => layRules_layRules h layers) (·.rules.entries) groups Distinct.empty

theorem links_groups (groups : List (List Settings)) :
    (ofLayers (groups.map ofLayers)).links = (ofLayers groups.flatten).links := by
  simp only [links_ofLayers, List.flatMap_map]
  exact foldl_groups (fun links => (links.map (·.place)).Nodup)
    (fun _ more unique => nodup_places_putAll unique more)
    (fun _ more unique => putAll_putAll unique more) (·.links) groups List.nodup_nil

theorem eq_of_parts {s t : Settings} (defaultPageSize : s.defaultPageSize = t.defaultPageSize)
    (maxPageSize : s.maxPageSize = t.maxPageSize) (rules : s.rules = t.rules)
    (links : s.links = t.links) : s = t := by
  cases s
  cases t
  simp_all

/-- What settings laid over each other come to: the page sizes of the last, and for the rest each
thing in the place of the first that gives it, as the last that gives it has it. -/
structure Layered (all : List Settings) (merged : Settings) : Prop where
  sizes : ∀ s, all.getLast? = some s →
    merged.defaultPageSize = s.defaultPageSize ∧ merged.maxPageSize = s.maxPageSize
  entities : merged.rules.keys = (all.flatMap (·.rules.keys)).eraseDups
  fields : ∀ entity, (merged.rulesOf entity).keys =
    (all.flatMap fun s => (s.rulesOf entity).keys).eraseDups
  rule : ∀ entity field, (merged.rulesOf entity).get? field =
    all.reverse.findSome? fun s => (s.rulesOf entity).get? field
  places : merged.links.map (·.place) = ((all.flatMap (·.links)).map (·.place)).eraseDups
  single : (merged.links.map (·.place)).Nodup
  link : ∀ place, merged.links.find? (·.place = place) =
    (all.flatMap (·.links)).reverse.find? (·.place = place)

/-- An entity has all the rules that settings list for it, one after the other. -/
theorem rulesOf_ofLayers {all : List Settings} (distinct : ∀ s ∈ all, Distinct s.rules)
    (entity : String) : (ofLayers all).rulesOf entity =
      OrderedMap.ofList (all.flatMap fun s => (s.rulesOf entity).entries) := by
  have listed : listedFor entity (all.flatMap (·.rules.entries)) =
      all.flatMap fun s => (s.rulesOf entity).entries := by
    rw [listedFor, List.filter_flatMap, List.flatMap_assoc]
    exact List.flatMap_congr fun s hs => listedFor_entries (distinct s hs).entities entity
  rw [rulesOf, rules_ofLayers, held_layRules .empty, listed]
  rfl

theorem layered_ofLayers {all : List Settings} (distinct : ∀ s ∈ all, Distinct s.rules) :
    Layered all (ofLayers all) where
  sizes s last := by
    have sizes := sizes_ofLayers all
    rwa [last] at sizes
  entities := by
    rw [rules_ofLayers, keys_layRules OrderedMap.nodup_keys_empty, List.map_flatMap]
    rfl
  fields entity := by
    rw [rulesOf_ofLayers distinct, OrderedMap.keys_ofList, List.map_flatMap]
    rfl
  rule entity field := by
    rw [rulesOf_ofLayers distinct]
    exact OrderedMap.get?_ofList_flatMap (fun s hs => (distinct s hs).held entity) field
  places := by rw [links_ofLayers, places_putAll_nil]
  single := by
    have none : (([] : List LinkDefinition).map (·.place)).Nodup := List.nodup_nil
    rw [links_ofLayers]
    exact nodup_places_putAll none _
  link place := by rw [links_ofLayers, find?_putAll_nil]

theorem getLast?_flatten_of_last {groups : List (List Settings)}
    (last : groups.getLast? ≠ some []) :
    groups.flatten.getLast? = (groups.getLast?.getD []).getLast? := by
  rcases List.eq_nil_or_concat' groups with rfl | ⟨before, group, rfl⟩
  · rfl
  · rw [List.getLast?_concat] at last ⊢
    obtain ⟨lower, s, rfl⟩ :=
      (List.eq_nil_or_concat' group).resolve_left fun none => last (congrArg some none)
    simp

/-- Settings may be laid over each other in groups first. -/
theorem ofLayers_groups {groups : List (List Settings)} (last : groups.getLast? ≠ some []) :
    ofLayers (groups.map ofLayers) = ofLayers groups.flatten ∧
      ((∀ s ∈ groups.flatten, Distinct s.rules) →
        Layered groups.flatten (ofLayers groups.flatten)) := by
  refine ⟨?_, layered_ofLayers⟩
  have top : (groups.map ofLayers).getLast?.getD empty = ofLayers (groups.getLast?.getD []) := by
    rw [List.getLast?_map]
    cases groups.getLast? <;> rfl
  have grouped := sizes_ofLayers (groups.map ofLayers)
  have flat := sizes_ofLayers groups.flatten
  have uppermost := sizes_ofLayers (groups.getLast?.getD [])
  rw [top] at grouped
  rw [getLast?_flatten_of_last last] at flat
  exact eq_of_parts (grouped.1.trans (uppermost.1.trans flat.1.symm))
    (grouped.2.trans (uppermost.2.trans flat.2.symm)) (rules_groups groups) (links_groups groups)

/-- Roles have longer names and a code, and say otherwise what their privileges are. -/
def stricterRoles : Settings :=
  { empty with
    defaultPageSize := 10
    rules := ⟨[("role", ⟨[("code", .mandatory), ("name", atLeast 4 .mandatory)]⟩)]⟩
    links := [⟨"role", "privilege", "privileges", some "What a role may do"⟩] }

theorem ofLayers_groups_of_stricterRoles :
    let groups := [[bundled], [], [stricterRoles, stricterRoles]]
    groups.getLast? ≠ some [] ∧ (∀ s ∈ groups.flatten, Distinct s.rules) ∧
      ofLayers (groups.map ofLayers) = ofLayers groups.flatten ∧
      Layered groups.flatten (ofLayers groups.flatten) := by
  intro groups
  have last : groups.getLast? ≠ some [] := nofun
  have distinct : ∀ s ∈ groups.flatten, Distinct s.rules := by decide
  obtain ⟨together, layered⟩ := ofLayers_groups last
  exact ⟨last, distinct, together, layered distinct⟩

/-! ## Where settings come from -/

theorem distinct_ofLayers (all : List Settings) : Distinct (ofLayers all).rules := by
  rw [rules_ofLayers]
  exact Distinct.empty.layRules _

theorem distinct_bundled : Distinct bundled.rules := by decide

end Settings

open BackOffice.Yaml

theorem OrderedMap.of_ofYaml? {α : Type} {read? : Node → Option α} {n : Node}
    {m : OrderedMap String α} (h : OrderedMap.ofYaml? read? n = some m) :
    m.keys.Nodup ∧ ∀ e ∈ m.entries, ∃ value, read? value = some e.2 := by
  simp only [OrderedMap.ofYaml?, Option.bind_eq_bind, Option.bind_eq_some_iff,
    Option.some.injEq] at h
  obtain ⟨entries, _, pairs, each, rfl⟩ := h
  refine ⟨nodup_keys_ofList pairs, fun e he => ?_⟩
  obtain ⟨⟨name, value⟩, _, named⟩ :=
    exists_of_forall₂ (mapM_some_iff.mp each) (mem_of_mem_ofList he)
  obtain ⟨a, read, rfl⟩ := Option.map_eq_some_iff.mp named
  exact ⟨value, read⟩

theorem Ruleset.nodup_of_ofYaml? {n : Node} {rules : Ruleset} (h : Ruleset.ofYaml? n = some rules) :
    rules.keys.Nodup := by
  rw [Ruleset.ofYaml?] at h
  split at h
  · next fields _ =>
    cases fields with
    | none =>
      cases h
      exact OrderedMap.nodup_keys_empty
    | some fields => exact (OrderedMap.of_ofYaml? h).1
  · cases h

/-- Settings that are read from a document list no entity and no field twice. -/
theorem Settings.distinct_of_ofText? {text : String} {s : Settings}
    (h : Settings.ofText? text = some s) : Distinct s.rules := by
  obtain ⟨n, _, read⟩ := Option.bind_eq_some_iff.mp h
  rw [Settings.ofYaml?] at read
  split at read
  · next size most rules links _ =>
    simp only [Option.bind_eq_bind, Option.bind_eq_some_iff, Option.some.injEq] at read
    obtain ⟨_, _, _, _, entities, listed, _, _, rfl⟩ := read
    cases rules with
    | none =>
      cases listed
      exact .empty
    | some rules =>
      obtain ⟨unique, each⟩ := OrderedMap.of_ofYaml? listed
      refine ⟨unique, fun e he => ?_⟩
      obtain ⟨value, read⟩ := each e he
      exact Ruleset.nodup_of_ofYaml? read
  · cases read

end BackOffice
