import BackOffice.Record.Basic

/-!
# Records in JSON documents

A record is an object with a member per field and association; the identifier is left out while
there is none. A link is the object of its target with one more member for its tag. Every member may
be missing when a record is read, and takes its initial value then.
-/
namespace BackOffice.Record

open BackOffice.Field BackOffice.Association

/-- The member that holds the tag of a link. -/
def tagMember : String := "editAction"

def idMember (id : Option Uuid) : List (String × Json) :=
  match id with
  | some u => [("id", .str u.text)]
  | none => []

mutual

def membersOf : Record → List (String × Json)
  | ⟨id, status, values, links⟩ =>
    idMember id ++ ("status", .str status) :: values.map (fun (name, v) => (name, v.toJson)) ++
      linkMembers links

def linkMembers : List (String × List (Link Record)) → List (String × Json)
  | [] => []
  | (name, links) :: rest => (name, .arr (linkItems links)) :: linkMembers rest

def linkItems : List (Link Record) → List Json
  | [] => []
  | ⟨target, tag⟩ :: rest =>
    .obj (membersOf target ++ [(tagMember, .str tag.token)]) :: linkItems rest

end

def toJson (r : Record) : Json := .obj r.membersOf

def linkToJson (l : Link Record) : Json :=
  .obj (l.target.membersOf ++ [(tagMember, .str l.tag.token)])

/-! ## Reading -/

def memberNames (s : Schema) : List String :=
  "id" :: "status" :: s.fields.map (·.1) ++ s.links.map (·.1)

def readId? (j : Option Json) : Option (Option Uuid) :=
  Json.optional? (fun j => j.str?.bind Uuid.ofText?) j

def readValues? : List (String × FieldKind) → List (Option Json) → Option (List (String × Value))
  | [], _ => some []
  | (name, kind) :: fields, j :: js => do
    let v ← Json.orDefault kind.read? kind.initial j
    let rest ← readValues? fields js
    some ((name, v) :: rest)
  | _ :: _, [] => none

/-- The tag of a link, which is kept unless it says otherwise. -/
def readTag? (fields : List (String × Json)) : Option Tag :=
  if Json.memberCount fields tagMember ≤ 1 then
    Json.orDefault (fun j => j.unitName?.bind Tag.ofToken?) .kept
      ((fields.find? (·.1 == tagMember)).map (·.2))
  else none

/-- A link, given how its target is read. Only objects can be links. -/
def readLink? {α : Type} (target? : Json → Option α) (j : Json) : Option (Link α) :=
  match j with
  | .obj fields =>
    match readTag? fields, target? j with
    | some tag, some target => some ⟨target, tag⟩
    | _, _ => none
  | _ => none

mutual

def ofJson? : Schema → Json → Option Record
  | ⟨singular, plural, fields, links⟩, j =>
    match j.members? (memberNames ⟨singular, plural, fields, links⟩) with
    | some (id :: status :: rest) =>
      match readId? id, Json.orDefault Json.str? "" status, readValues? fields rest,
        readLinks? links (rest.drop fields.length) with
      | some id, some status, some values, some links => some ⟨id, status, values, links⟩
      | _, _, _, _ => none
    | _ => none

def readLinks? : List (String × Schema) → List (Option Json) →
    Option (List (String × List (Link Record)))
  | [], _ => some []
  | (name, target) :: rest, j :: js =>
    match Json.orDefault (fun j => j.items?.bind fun items => items.mapM (readLink? (ofJson? target)))
        [] j, readLinks? rest js with
    | some links, some others => some ((name, links) :: others)
    | _, _ => none
  | _ :: _, [] => none

end

/-- A link of a record with the given schema for its target. -/
def linkOfJson? (s : Schema) (j : Json) : Option (Link Record) := readLink? (ofJson? s) j

end BackOffice.Record
