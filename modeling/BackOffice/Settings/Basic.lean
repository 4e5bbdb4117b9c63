import BackOffice.Rules

/-!
# Settings

Page sizes, the rules of each entity, and the associations that are edited on the screen of their
owner. Settings can be laid over each other: page sizes are those of the upper ones, rules are
combined field by field, and an association replaces the one of the same owner and field in its
place.
-/
namespace BackOffice

/-- An association that is edited on the screen of its owner. -/
structure LinkDefinition where
  owner : String
  target : String
  field : String
  description : Option String
deriving DecidableEq

namespace LinkDefinition

/-- What tells an association from the others. -/
def place (d : LinkDefinition) : String × String := (d.owner, d.field)

/-- The definitions with one put in the place of the first that stands in its stead, or at the
end. -/
def put (d : LinkDefinition) : List LinkDefinition → List LinkDefinition
  | [] => [d]
  | e :: rest => if e.place = d.place then d :: rest else e :: put d rest

end LinkDefinition

structure Settings where
  /-- The size of a page for which nothing else is asked. -/
  defaultPageSize : UInt64
  /-- The most records that a page may hold. -/
  maxPageSize : UInt64
  rules : OrderedMap String Ruleset
  links : List LinkDefinition
deriving DecidableEq

namespace Settings

def standardPageSize : UInt64 := 20

def standardMaxPageSize : UInt64 := 100

/-- Settings without any rule or association. -/
def empty : Settings := ⟨standardPageSize, standardMaxPageSize, .empty, []⟩

instance : Inhabited Settings := ⟨empty⟩

/-- The rules of an entity, none if it has no settings. -/
def rulesOf (s : Settings) (entity : String) : Ruleset := (s.rules.get? entity).getD .empty

/-- The associations edited on the screen of an entity. -/
def linksOf (s : Settings) (owner : String) : List LinkDefinition :=
  s.links.filter (·.owner == owner)

/-- The size in which a page is served for which another was asked. -/
def sizeFor (s : Settings) (size : UInt64) : UInt64 :=
  min (max size 1) (max s.maxPageSize 1)

def overlayRules (rules : OrderedMap String Ruleset) (entity : String) (others : Ruleset) :
    OrderedMap String Ruleset :=
  rules.insert entity (((rules.get? entity).getD .empty).overlay others)

/-- Lays other settings over these. -/
def overlay (s upper : Settings) : Settings :=
  { defaultPageSize := upper.defaultPageSize
    maxPageSize := upper.maxPageSize
    rules := upper.rules.entries.foldl (fun rules (entity, others) =>
      overlayRules rules entity others) s.rules
    links := upper.links.foldl (fun links d => d.put links) s.links }

/-- All settings laid over each other, the first at the bottom. -/
def ofLayers (all : List Settings) : Settings := all.foldl overlay empty

end Settings

end BackOffice
