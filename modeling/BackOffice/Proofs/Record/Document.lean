import BackOffice.Proofs.Field.Order
import BackOffice.Proofs.Json.Text
import BackOffice.Proofs.Uuid
import BackOffice.Record.Bundled
import BackOffice.Record.Document

/-!
# Records read back from their documents

The document of a record is read as that record, however deep its links nest. A reader looks its
members up by name, so neither their order nor members of other names make a difference to it. The
tag of a link is such a member to the reader of its target, as long as no member of the target has
the name of the tag. The text of the document is read back as well, since it has no numbers and its
objects nest no deeper than the schemas do.
-/
namespace BackOffice

open BackOffice.Field BackOffice.Association

namespace FieldKind

/-- Kinds of which a document keeps every value as it is, without a number. -/
def isVerbatim : FieldKind → Bool
  | text | optionalText | optionalUuid | flag => true
  | integer | decimal | optionalInstant => false

theorem read?_toJson {k : FieldKind} {v : Value} (verbatim : k.isVerbatim = true)
    (holds : k.Holds v) : k.read? v.toJson = some v := by
  cases holds with
  | text s | someText s | noText | noUuid | bool b => rfl
  | someUuid u => simp [read?, Value.toJson, Json.str?, Uuid.ofText?_text]
  | int n | float x | someInstant t | noInstant => cases verbatim

theorem within_toJson {k : FieldKind} {v : Value} (verbatim : k.isVerbatim = true)
    (holds : k.Holds v) (n : Nat) : Json.Within n v.toJson := by
  cases holds with
  | text s | someText s | someUuid u => exact .str _
  | noText | noUuid => exact .null
  | bool b => exact .bool b
  | int n | float x | someInstant t | noInstant => cases verbatim

end FieldKind

theorem Association.Tag.ofToken?_token (t : Tag) : Tag.ofToken? t.token = some t := by
  cases t <;> decide

/-! ## Members by name -/

namespace Json

variable {fields gs : List (String × Json)} {names : List String}

/-- A member that is looked up is one of those that have the name. -/
theorem members?_congr
    (same : ∀ name ∈ names, fields.filter (·.1 == name) = gs.filter (·.1 == name)) :
    members? names (obj fields) = members? names (obj gs) := by
  have counts : (∀ name ∈ names, memberCount fields name ≤ 1) ↔
      ∀ name ∈ names, memberCount gs name ≤ 1 := by
    refine forall₂_congr fun name hn => ?_
    simp only [memberCount, same name hn]
  have found : (names.map fun name => (fields.find? (·.1 == name)).map (·.2)) =
      names.map fun name => (gs.find? (·.1 == name)).map (·.2) := by
    refine List.map_congr_left fun name hn => ?_
    simp only [← List.head?_filter, same name hn]
  simp only [members?, List.all_eq_true, decide_eq_true_eq, counts, found]

theorem filter_of_not_mem {name : String} (missing : name ∉ fields.map (·.1)) :
    fields.filter (·.1 == name) = [] := by
  simp only [List.filter_eq_nil_iff, beq_iff_eq]
  intro m hm equal
  exact missing (equal ▸ List.mem_map_of_mem hm)

/-- Among members of distinct names only one has the name of a given one. -/
theorem filter_of_nodup {m : String × Json} (distinct : (fields.map (·.1)).Nodup)
    (hm : m ∈ fields) : fields.filter (·.1 == m.1) = [m] := by
  induction fields with
  | nil => cases hm
  | cons first rest ih =>
    simp only [List.map_cons, List.nodup_cons] at distinct
    rcases List.mem_cons.mp hm with rfl | later
    · simp [filter_of_not_mem distinct.1]
    · have apart : first.1 ≠ m.1 := fun equal => distinct.1 (equal ▸ List.mem_map_of_mem later)
      simp [apart, ih distinct.2 later]

/-- Behind members of distinct names, in any order, further ones of other names do not show. -/
theorem filter_of_perm {extra : List (String × Json)} {name : String}
    (distinct : (gs.map (·.1)).Nodup) (order : fields.Perm (gs ++ extra))
    (other : name ∉ extra.map (·.1)) :
    fields.filter (·.1 == name) = gs.filter (·.1 == name) := by
  have perm : (fields.filter (·.1 == name)).Perm (gs.filter (·.1 == name)) := by
    simpa [filter_of_not_mem other] using order.filter (·.1 == name)
  by_cases known : name ∈ gs.map (·.1)
  · obtain ⟨m, hm, rfl⟩ := List.mem_map.mp known
    simp only [filter_of_nodup distinct hm, List.perm_singleton] at perm ⊢
    exact perm
  · simp only [filter_of_not_mem known, List.perm_nil] at perm ⊢
    exact perm

/-- Members of distinct names are found under them. -/
theorem members?_of_nodup (distinct : (fields.map (·.1)).Nodup) :
    members? (fields.map (·.1)) (obj fields) = some (fields.map fun m => some m.2) := by
  have counts : ∀ name ∈ fields.map (·.1), memberCount fields name ≤ 1 := by
    intro name hn
    obtain ⟨m, hm, rfl⟩ := List.mem_map.mp hn
    simp [memberCount, filter_of_nodup distinct hm]
  have found : (fields.map (·.1)).map (fun name => (fields.find? (·.1 == name)).map (·.2)) =
      fields.map fun m => some m.2 := by
    simp only [List.map_map]
    refine List.map_congr_left fun m hm => ?_
    simp [← List.head?_filter, filter_of_nodup distinct hm]
  simp only [members?, List.all_eq_true, decide_eq_true_eq, found, if_pos counts]

/-- A name in front that no member has is missing, and the others are as before. -/
theorem members?_cons_of_not_mem {name : String} {js : List (Option Json)}
    (missing : name ∉ fields.map (·.1)) (others : members? names (obj fields) = some js) :
    members? (name :: names) (obj fields) = some (none :: js) := by
  simp only [members?, Option.ite_none_right_eq_some, Option.some.injEq, List.all_eq_true,
    decide_eq_true_eq] at others ⊢
  obtain ⟨counts, rfl⟩ := others
  have found := filter_of_not_mem missing
  constructor
  · simpa [memberCount, found] using counts
  · simp [← List.head?_filter, found]

end Json

namespace Record

/-! ## What a document says -/

/-- The members of a record beside those of its links. -/
def ownMembers (r : Record) : List (String × Json) :=
  idMember r.id ++ ("status", .str r.status) :: r.values.map (fun (name, v) => (name, v.toJson))

mutual

/-- Members that say what a record is, in any order, and so do those of the targets of its links. -/
inductive Written : Record → List (String × Json) → Prop
  | mk {r : Record} {linked fields : List (String × Json)} (links : LinksWritten r.links linked)
      (order : fields.Perm (r.ownMembers ++ linked)) : Written r fields

inductive LinksWritten : List (String × List (Link Record)) → List (String × Json) → Prop
  | nil : LinksWritten [] []
  | cons {name : String} {links : List (Link Record)} {items : List Json}
      {rest : List (String × List (Link Record))} {fields : List (String × Json)}
      (first : ItemsWritten links items) (others : LinksWritten rest fields) :
      LinksWritten ((name, links) :: rest) ((name, .arr items) :: fields)

inductive ItemsWritten : List (Link Record) → List Json → Prop
  | nil : ItemsWritten [] []
  | cons {l : Link Record} {inner fields : List (String × Json)} {rest : List (Link Record)}
      {items : List Json} (target : Written l.target inner)
      (order : fields.Perm ((tagMember, .str l.tag.token) :: inner))
      (others : ItemsWritten rest items) : ItemsWritten (l :: rest) (.obj fields :: items)

end

mutual

/-- The document of a record says what the record is. -/
theorem written_membersOf : (r : Record) → Written r r.membersOf
  | ⟨_, _, _, links⟩ => by
    simp only [membersOf]
    exact .mk (linksWritten_linkMembers links) (List.Perm.refl _)

theorem linksWritten_linkMembers :
    (links : List (String × List (Link Record))) → LinksWritten links (linkMembers links)
  | [] => .nil
  | (_, links) :: rest => .cons (itemsWritten_linkItems links) (linksWritten_linkMembers rest)

theorem itemsWritten_linkItems : (links : List (Link Record)) → ItemsWritten links (linkItems links)
  | [] => .nil
  | ⟨target, _⟩ :: rest =>
    .cons (written_membersOf target) List.perm_append_comm (itemsWritten_linkItems rest)

end

/-! ## Reading it back -/

variable {s : Schema} {r : Record} {linked fields extra : List (String × Json)}

theorem keys_linksWritten {ss : List (String × Schema)} {links : List (String × List (Link Record))}
    (fits : LinksFit ss links) (written : LinksWritten links linked) :
    linked.map (·.1) = ss.map (·.1) := by
  induction ss generalizing links linked with
  | nil =>
    cases fits
    cases written
    rfl
  | cons x ss ih =>
    cases fits with
    | cons _ others =>
      cases written with
      | cons _ rest => simp [ih others rest]

theorem keys_ownMembers (r : Record) :
    r.ownMembers.map (·.1) = (idMember r.id).map (·.1) ++ "status" :: r.values.map (·.1) := by
  simp [ownMembers, Function.comp_def]

/-- What stands under the names of a schema in a document of one of its records. -/
theorem members?_written (distinct : (memberNames s).Nodup)
    (names : r.values.map (·.1) = s.fields.map (·.1))
    (linkNames : linked.map (·.1) = s.links.map (·.1))
    (order : fields.Perm (r.ownMembers ++ linked ++ extra))
    (others : ∀ name ∈ memberNames s, name ∉ extra.map (·.1)) :
    Json.members? (memberNames s) (.obj fields) =
      some ((r.id.map fun u => .str u.text) :: some (.str r.status) ::
        (r.values.map (fun p => some p.2.toJson) ++ linked.map fun m => some m.2)) := by
  cases known : r.id with
  | none =>
    have keys : memberNames s = "id" :: (r.ownMembers ++ linked).map (·.1) := by
      simp [keys_ownMembers, names, linkNames, memberNames, known, idMember]
    simp only [keys, List.nodup_cons] at distinct others ⊢
    have found := Json.members?_cons_of_not_mem distinct.1 (Json.members?_of_nodup distinct.2)
    simp only [Json.members?_congr fun name hn =>
      Json.filter_of_perm distinct.2 order (others name hn), found]
    simp [ownMembers, idMember, known]
  | some u =>
    have keys : memberNames s = (r.ownMembers ++ linked).map (·.1) := by
      simp [keys_ownMembers, names, linkNames, memberNames, known, idMember]
    simp only [keys] at distinct others ⊢
    have found := Json.members?_of_nodup distinct
    simp only [Json.members?_congr fun name hn =>
      Json.filter_of_perm distinct order (others name hn), found]
    simp [ownMembers, idMember, known]

theorem readId?_text (id : Option Uuid) : readId? (id.map fun u => .str u.text) = some id := by
  cases id with
  | none => rfl
  | some u => simp [readId?, Json.optional?, Json.str?, Uuid.ofText?_text]

theorem readValues?_toJson {values : List (String × Value)} {fields : List (String × FieldKind)}
    (names : values.map (·.1) = fields.map (·.1))
    (admitted : ∀ p ∈ values.zip fields, p.2.2.admits p.1.2 = true)
    (verbatim : ∀ f ∈ fields, f.2.isVerbatim = true) (more : List (Option Json)) :
    readValues? fields (values.map (fun p => some p.2.toJson) ++ more) = some values := by
  induction values generalizing fields with
  | nil =>
    cases fields with
    | nil => rfl
    | cons field fields => cases names
  | cons value rest ih =>
    cases fields with
    | nil => cases names
    | cons field fields =>
      obtain ⟨same, names⟩ := List.cons.inj names
      simp only [List.zip_cons_cons, List.forall_mem_cons] at admitted verbatim
      have first := FieldKind.read?_toJson verbatim.1 (FieldKind.admits_iff.mp admitted.1)
      have others := ih names admitted.2 verbatim.2
      simp [readValues?, Json.orDefault, first, others, ← same]

theorem readTag?_of_perm {t : Tag} {inner : List (String × Json)}
    (order : fields.Perm ((tagMember, .str t.token) :: inner))
    (other : tagMember ∉ inner.map (·.1)) : readTag? fields = some t := by
  have only : fields.filter (·.1 == tagMember) = [(tagMember, .str t.token)] := by
    have distinct : ([(tagMember, Json.str t.token)].map (·.1)).Nodup := by simp
    simpa using Json.filter_of_perm distinct order other
  simp [readTag?, Json.memberCount, ← List.head?_filter, only, Json.orDefault, Json.unitName?,
    Association.Tag.ofToken?_token]

/-- Whatever says what a record of a schema is reads as that record. -/
def ReadsBack (s : Schema) : Prop :=
  ∀ (r : Record) (inner fields extra : List (String × Json)), Fits s r → Written r inner →
    fields.Perm (inner ++ extra) → (∀ name ∈ memberNames s, name ∉ extra.map (·.1)) →
      ofJson? s (.obj fields) = some r

/-- No member of a record is named otherwise than its schema says. -/
theorem keys_written (fits : Fits s r) (written : Written r fields) :
    ∀ name ∈ fields.map (·.1), name ∈ memberNames s := by
  cases fits with
  | mk values links =>
    cases written with
    | mk linked order =>
      intro name hn
      have owned := (order.map (·.1)).mem_iff.mp hn
      simp only [List.map_append, keys_ownMembers, values.1, keys_linksWritten links linked] at owned
      cases known : r.id <;> simp [known, idMember, memberNames] at owned ⊢ <;> tauto

/-- To the reader of its target, the tag of a link is one member more. -/
theorem readLink?_written {target : Schema} (reads : ReadsBack target)
    (untagged : tagMember ∉ memberNames target) {l : Link Record} {inner : List (String × Json)}
    (fits : Fits target l.target) (written : Written l.target inner)
    (order : fields.Perm ((tagMember, .str l.tag.token) :: inner)) :
    readLink? (ofJson? target) (.obj fields) = some l := by
  have other : tagMember ∉ inner.map (·.1) := fun h => untagged (keys_written fits written _ h)
  have tag : readTag? fields = some l.tag := readTag?_of_perm order other
  have owner : ofJson? target (.obj fields) = some l.target := by
    refine reads l.target inner fields [(tagMember, .str l.tag.token)] fits written
      (order.trans (List.perm_append_singleton _ _).symm) ?_
    intro name hn
    simp only [List.map_cons, List.map_nil, List.mem_singleton]
    rintro rfl
    exact untagged hn
  simp only [readLink?, tag, owner]

theorem readItems_written {target : Schema} (reads : ReadsBack target)
    (untagged : tagMember ∉ memberNames target) {links : List (Link Record)} {items : List Json}
    (fits : ∀ l ∈ links, Fits target l.target) (written : ItemsWritten links items) :
    items.mapM (readLink? (ofJson? target)) = some links := by
  induction links generalizing items with
  | nil =>
    cases written
    rfl
  | cons l rest ih =>
    simp only [List.forall_mem_cons] at fits
    cases written with
    | cons first order others =>
      simp [readLink?_written reads untagged fits.1 first order, ih fits.2 others]

theorem readLinks?_written {ss : List (String × Schema)} {links : List (String × List (Link Record))}
    (reads : ∀ l ∈ ss, ReadsBack l.2 ∧ tagMember ∉ memberNames l.2) (fits : LinksFit ss links)
    (written : LinksWritten links linked) :
    readLinks? ss (linked.map fun m => some m.2) = some links := by
  induction ss generalizing links linked with
  | nil =>
    cases fits
    rfl
  | cons x ss ih =>
    simp only [List.forall_mem_cons] at reads
    cases fits with
    | cons targets others =>
      cases written with
      | cons first rest =>
        have items := readItems_written reads.1.1 reads.1.2 targets first
        simp [readLinks?, Json.orDefault, Json.items?, items, ih reads.2 others rest]

/-! ## How deep a document nests -/

theorem membersOf_eq (r : Record) : r.membersOf = r.ownMembers ++ linkMembers r.links := by
  cases r
  simp only [membersOf, ownMembers, List.append_assoc, List.cons_append]

theorem within_idMember {n : Nat} {id : Option Uuid} {m : String × Json} (h : m ∈ idMember id) :
    Json.Within n m.2 := by
  cases id with
  | none => cases h
  | some u =>
    simp only [idMember, List.mem_singleton] at h
    exact h ▸ .str _

theorem within_values {n : Nat} {values : List (String × Value)}
    {fields : List (String × FieldKind)} (names : values.map (·.1) = fields.map (·.1))
    (admitted : ∀ p ∈ values.zip fields, p.2.2.admits p.1.2 = true)
    (verbatim : ∀ f ∈ fields, f.2.isVerbatim = true) :
    ∀ m ∈ values.map (fun (name, v) => (name, v.toJson)), Json.Within n m.2 := by
  intro m hm
  obtain ⟨value, hvalue, rfl⟩ := List.mem_map.mp hm
  obtain ⟨field, hzip⟩ : ∃ field, (value, field) ∈ values.zip fields := by
    have length : values.length = fields.length := by simpa using congrArg List.length names
    obtain ⟨i, hi, rfl⟩ := List.getElem_of_mem hvalue
    exact ⟨fields[i], List.mem_iff_getElem.mpr ⟨i, by simp [hi, ← length], by simp⟩⟩
  exact FieldKind.within_toJson (verbatim field (List.of_mem_zip hzip).2)
    (FieldKind.admits_iff.mp (admitted _ hzip)) n

theorem within_linkItems {n : Nat} {links : List (Link Record)}
    (targets : ∀ l ∈ links, ∀ m ∈ l.target.membersOf, Json.Within n m.2) :
    ∀ j ∈ linkItems links, Json.Within (n + 1) j := by
  induction links with
  | nil => simp [linkItems]
  | cons l links ih =>
    simp only [List.forall_mem_cons, linkItems] at targets ⊢
    refine ⟨.obj fun m hm => ?_, ih targets.2⟩
    rcases List.mem_append.mp hm with own | tag
    · exact targets.1 m own
    · exact List.mem_singleton.mp tag ▸ .str _

theorem within_linkMembers {n : Nat} {ss : List (String × Schema)}
    {links : List (String × List (Link Record))}
    (targets : ∀ l ∈ ss, ∀ r, Fits l.2 r → ∀ m ∈ r.membersOf, Json.Within n m.2)
    (fits : LinksFit ss links) : ∀ m ∈ linkMembers links, Json.Within (n + 2) m.2 := by
  induction ss generalizing links with
  | nil =>
    cases fits
    simp [linkMembers]
  | cons x ss ih =>
    simp only [List.forall_mem_cons] at targets
    cases fits with
    | cons first others =>
      simp only [linkMembers, List.forall_mem_cons]
      exact ⟨.arr (within_linkItems fun l hl => targets.1 l.target (first l hl)),
        ih targets.2 others⟩

end Record

/-! ## All records of a schema -/

/-- Schemas whose documents keep everything: members have distinct names, none is named like the tag
of a link, and fields are of kinds that are kept, at any of so many levels. -/
inductive Schema.Verbatim : Nat → Schema → Prop
  | mk {n : Nat} {s : Schema} (distinct : (Record.tagMember :: Record.memberNames s).Nodup)
      (kinds : ∀ f ∈ s.fields, f.2.isVerbatim = true)
      (links : ∀ l ∈ s.links, Schema.Verbatim n l.2) : Schema.Verbatim (n + 1) s

namespace Schema

variable {n : Nat}

theorem Verbatim.untagged {s : Schema} (h : Verbatim n s) :
    Record.tagMember ∉ Record.memberNames s := by
  cases h with
  | mk distinct _ _ => exact (List.nodup_cons.mp distinct).1

theorem Verbatim.readsBack {s : Schema} (h : Verbatim n s) : Record.ReadsBack s := by
  induction h with
  | @mk n s distinct kinds links ih =>
    intro r inner fields extra fits written order others
    cases fits with
    | mk values linksFit =>
      cases written with
      | @mk _ linked _ linksWritten inOrder =>
        have found := Record.members?_written (List.nodup_cons.mp distinct).2 values.1
          (Record.keys_linksWritten linksFit linksWritten)
          (order.trans (inOrder.append_right extra)) others
        have vs := Record.readValues?_toJson values.1 values.2 kinds
        have ls := Record.readLinks?_written
          (fun l hl => ⟨ih l hl, (links l hl).untagged⟩) linksFit linksWritten
        have length : s.fields.length = (r.values.map fun p => some p.2.toJson).length := by
          simpa using (congrArg List.length values.1).symm
        obtain ⟨singular, plural, fs, ss⟩ := s
        simp only [Record.ofJson?, found, Record.readId?_text, Json.orDefault, Json.str?, vs, length,
          List.drop_left, ls]
        cases r
        rfl

/-- Each level of a schema is an object, and its links to the next one are an array. -/
theorem Verbatim.within_membersOf {s : Schema} (h : Verbatim n s) {r : Record}
    (fits : Record.Fits s r) : ∀ m ∈ r.membersOf, Json.Within (2 * n) m.2 := by
  induction h generalizing r with
  | @mk n s distinct kinds links ih =>
    cases fits with
    | mk values linksFit =>
      have linked := Record.within_linkMembers (fun l hl r => ih l hl) linksFit
      intro m hm
      simp only [Record.membersOf_eq, Record.ownMembers, List.mem_append, List.mem_cons] at hm
      rcases hm with (hid | rfl | hvalue) | hlink
      · exact Record.within_idMember hid
      · exact .str _
      · exact Record.within_values values.1 values.2 kinds m hvalue
      · exact linked m hlink

theorem verbatim_of_bundled {s : Schema} (bundled : s ∈ bundled) : Verbatim 3 s := by
  have privilegeVerbatim {n : Nat} : Verbatim (n + 1) privilege :=
    .mk (by decide) (by decide) (by nofun)
  have userVerbatim {n : Nat} : Verbatim (n + 1) user := .mk (by decide) (by decide) (by nofun)
  have contactVerbatim {n : Nat} : Verbatim (n + 1) contact :=
    .mk (by decide) (by decide) (by nofun)
  have roleVerbatim {n : Nat} : Verbatim (n + 2) role :=
    .mk (by decide) (by decide) (by simp [role, privilegeVerbatim, userVerbatim])
  have groupVerbatim : Verbatim 3 group :=
    .mk (by decide) (by decide) (by simp [group, roleVerbatim])
  have accountVerbatim : Verbatim 3 account :=
    .mk (by decide) (by decide) (by simp [account, contactVerbatim])
  simp only [Schema.bundled, List.mem_cons, List.not_mem_nil, or_false] at bundled
  rcases bundled with rfl | rfl | rfl | rfl | rfl | rfl
  · exact privilegeVerbatim
  · exact userVerbatim
  · exact roleVerbatim
  · exact groupVerbatim
  · exact contactVerbatim
  · exact accountVerbatim

end Schema

namespace Record

/-- Reading the document of a record of a bundled schema gives an equal record, also from its text,
and reading that of a link to it gives the link with its tag. Neither the order of members, at any
depth, nor further members of other names change what is read. -/
theorem ofJson?_toJson {s : Schema} {r : Record} (bundled : s ∈ Schema.bundled) (fits : Fits s r) :
    ofJson? s r.toJson = some r ∧
    (Json.ofText? r.toJson.text).bind (ofJson? s) = some r ∧
    (∀ t : Tag, linkOfJson? s (linkToJson ⟨r, t⟩) = some ⟨r, t⟩) ∧
    ∀ inner fields extra : List (String × Json), Written r inner → fields.Perm (inner ++ extra) →
      (∀ name ∈ memberNames s, name ∉ extra.map (·.1)) → ofJson? s (.obj fields) = some r := by
  have verbatim := Schema.verbatim_of_bundled bundled
  have reads := verbatim.readsBack
  have document : ofJson? s r.toJson = some r := by
    have bare : r.membersOf.Perm (r.membersOf ++ []) := by simp
    exact reads r r.membersOf r.membersOf [] fits (written_membersOf r) bare (by simp)
  refine ⟨document, ?_, ?_, fun inner fields extra => reads r inner fields extra fits⟩
  · have within : Json.Within 7 r.toJson := .obj (verbatim.within_membersOf fits)
    simp only [Json.ofText?_text (within.mono (by decide)), Option.bind_some, document]
  · intro t
    exact readLink?_written reads verbatim.untagged fits (written_membersOf r)
      (List.perm_append_singleton _ _)

/-- A saved group with a role that is to be created, which holds a privilege that is to be deleted
and a user, one more role, and a name that needs quoting. -/
def team : Record :=
  let read : Record :=
    ⟨some (.ofNat 3), "active", [("name", .text "READ"), ("description", .null)], []⟩
  let ann : Record :=
    ⟨none, "", [("login", .text "ann"), ("name", .text "Ann"), ("email", .text "")], []⟩
  let reader : Record :=
    ⟨none, "active", [("name", .text "reader"), ("description", .text "editAction")],
      [("privileges", [⟨read, .deleted⟩]), ("users", [⟨ann, .statusChanged⟩])]⟩
  let idle : Record :=
    ⟨some (.ofNat 2), "disabled", [("name", .text ""), ("description", .null)],
      [("privileges", []), ("users", [])]⟩
  ⟨some (.ofNat 1), "active", [("name", .text "the \"team\""), ("description", .null)],
    [("roles", [⟨reader, .created⟩, ⟨idle, .kept⟩])]⟩

theorem ofJson?_toJson_team :
    Schema.group ∈ Schema.bundled ∧ Fits Schema.group team ∧
      ofJson? Schema.group team.toJson = some team ∧
      (Json.ofText? team.toJson.text).bind (ofJson? Schema.group) = some team := by
  have bundled : Schema.group ∈ Schema.bundled := by simp [Schema.bundled]
  have fits : Fits Schema.group team := by
    refine .mk (by decide) (.cons ?_ .nil)
    simp only [List.forall_mem_cons, List.not_mem_nil, false_imp_iff, implies_true, and_true]
    refine ⟨.mk (by decide) (.cons ?_ (.cons ?_ .nil)), .mk (by decide) (.cons ?_ (.cons ?_ .nil))⟩
    · simp only [List.forall_mem_singleton]
      exact .mk (by decide) .nil
    · simp only [List.forall_mem_singleton]
      exact .mk (by decide) .nil
    · nofun
    · nofun
  have back := ofJson?_toJson bundled fits
  exact ⟨bundled, fits, back.1, back.2.1⟩

end Record

end BackOffice
