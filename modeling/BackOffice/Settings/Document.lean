import BackOffice.Settings.Basic
import BackOffice.Yaml.Reading

/-!
# Settings in documents

Settings and rules are read from YAML and written as JSON. Every member may be missing; members of
other names are ignored. A format is its name, or a mapping from `custom` to a pattern.
-/
namespace BackOffice

open BackOffice.Field BackOffice.Yaml

namespace Field.Format

/-- A format by its name alone, or a pattern under the name `custom`. A tag with a meaning of its own
is refused. -/
def ofYaml? : Node → Option Format
  | .scalar s isPlain tag =>
    match Node.scalarJson? s isPlain tag with
    | some (.str name) => ofName? name
    | _ => none
  | .map [(key, value)] tag =>
    if Node.isLocalTag tag then none
    else
      match key.text? with
      | some "custom" => value.text?.map custom
      | _ => none
  | _ => none

end Field.Format

def Rule.ofYaml? (n : Node) : Option Rule :=
  match n.members? ["required", "min_length", "max_length", "format"] with
  | some [required, least, most, format] => do
    some ⟨← Node.orDefault Node.bool? false required, ← Node.optional? Node.word? least,
      ← Node.optional? Node.word? most, ← Node.optional? Format.ofYaml? format⟩
  | _ => none

/-- A map by name, whose values are read alike; of several under one name the last counts, in the
place of the first. -/
def OrderedMap.ofYaml? {α : Type} (read? : Node → Option α) (n : Node) :
    Option (OrderedMap String α) := do
  let entries ← n.textEntries?
  let pairs ← entries.mapM fun (name, value) => (read? value).map fun a => (name, a)
  some (OrderedMap.ofList pairs)

def Ruleset.ofYaml? (n : Node) : Option Ruleset :=
  match n.members? ["fields"] with
  | some [fields] => Node.orDefault (OrderedMap.ofYaml? Rule.ofYaml?) .empty fields
  | _ => none

/-- The rules in the only document of a text. -/
def Ruleset.ofText? (s : String) : Option Ruleset := (Node.ofText? s).bind ofYaml?

namespace LinkDefinition

def ofYaml? (n : Node) : Option LinkDefinition :=
  match n.members? ["owner", "target", "field", "description"] with
  | some [some owner, some target, some field, description] => do
    some ⟨← owner.text?, ← target.text?, ← field.text?, ← Node.optional? Node.text? description⟩
  | _ => none

def toJson (d : LinkDefinition) : Json :=
  let description :=
    match d.description with
    | some s => [("description", Json.str s)]
    | none => []
  .obj <| [("owner", .str d.owner), ("target", .str d.target), ("field", .str d.field)] ++
    description

end LinkDefinition

namespace Settings

def ofYaml? (n : Node) : Option Settings :=
  match n.members? ["default_page_size", "max_page_size", "entities", "associations"] with
  | some [size, most, rules, links] => do
    some
      { defaultPageSize := ← Node.orDefault Node.word? standardPageSize size
        maxPageSize := ← Node.orDefault Node.word? standardMaxPageSize most
        rules := ← Node.orDefault (OrderedMap.ofYaml? Ruleset.ofYaml?) .empty rules
        links := ← Node.orDefault
          (fun n => n.items?.bind fun items => items.mapM LinkDefinition.ofYaml?) [] links }
  | _ => none

/-- The settings in the only document of a text. -/
def ofText? (s : String) : Option Settings := (Node.ofText? s).bind ofYaml?

def toJson (s : Settings) : Json :=
  .obj [("default_page_size", .nat s.defaultPageSize.toNat),
    ("max_page_size", .nat s.maxPageSize.toNat),
    ("entities", .obj (s.rules.mapValues Ruleset.toJson).entries),
    ("associations", .arr (s.links.map LinkDefinition.toJson))]

end Settings

end BackOffice
