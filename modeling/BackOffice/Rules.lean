import BackOffice.Field.Format
import BackOffice.OrderedMap

/-!
# Rules for fields

A rule says whether a field must be filled in, how long its text may be and what format it has. A
blank field is only checked for being filled in. The rules of an entity are checked in their order,
and each reports the first thing that is wrong.
-/
namespace BackOffice

open BackOffice.Field BackOffice.Pattern

structure Rule where
  required : Bool
  minLength : Option UInt64
  maxLength : Option UInt64
  format : Option Format
deriving DecidableEq

namespace Rule

def free : Rule := ⟨false, none, none, none⟩

def mandatory : Rule := { free with required := true }

end Rule

/-- What is wrong with the value of a field. -/
inductive Flaw where
  | missing
  | tooShort (least actual : Nat)
  | tooLong (most actual : Nat)
  | malformed (format : String)
deriving DecidableEq

structure Violation where
  field : String
  flaw : Flaw
  message : String
deriving DecidableEq

namespace Flaw

/-- The sentence in which a flaw of a field is reported. -/
def sentence (flaw : Flaw) (field : String) : String :=
  "'" ++ field ++ "' " ++
    match flaw with
    | missing => "is required"
    | tooShort least _ => "must have at least " ++ Numeral.text least ++ " characters"
    | tooLong most _ => "must not exceed " ++ Numeral.text most ++ " characters"
    | malformed format => "is not a valid " ++ format

def kind : Flaw → String
  | missing => "required"
  | tooShort .. => "min_length"
  | tooLong .. => "max_length"
  | malformed _ => "format"

/-- The particulars of a flaw, by name. -/
def particulars : Flaw → List (String × Json)
  | missing => []
  | tooShort least actual => [("min", .nat least), ("actual", .nat actual)]
  | tooLong most actual => [("max", .nat most), ("actual", .nat actual)]
  | malformed format => [("format", .str format)]

/-- The flaw of a kind with its particulars, which are taken from an object. -/
def ofJson? (j : Json) : Option Flaw :=
  let number (key : String) : Option Nat := (j.get? key).bind fun n => n.word?.map UInt64.toNat
  match j.get? "kind" with
  | some (.str "required") => some missing
  | some (.str "min_length") => do some (.tooShort (← number "min") (← number "actual"))
  | some (.str "max_length") => do some (.tooLong (← number "max") (← number "actual"))
  | some (.str "format") => ((j.get? "format").bind Json.str?).map malformed
  | _ => none

end Flaw

namespace Violation

def of (field : String) (flaw : Flaw) : Violation := ⟨field, flaw, flaw.sentence field⟩

def toJson (v : Violation) : Json :=
  .obj <| [("field", .str v.field), ("kind", .str v.flaw.kind)] ++ v.flaw.particulars ++
    [("message", .str v.message)]

def ofJson? (j : Json) : Option Violation :=
  match j.get? "field", Flaw.ofJson? j, j.get? "message" with
  | some (.str field), some flaw, some (.str message) => some ⟨field, flaw, message⟩
  | _, _, _ => none

end Violation

namespace Rule

/-- What is wrong with the length of a text, counted in characters. -/
def lengthFlaw (r : Rule) (v : Value) : Option Flaw :=
  match v.text? with
  | none => none
  | some s =>
    let short := r.minLength.filter fun least => s.length < least.toNat
    let long := r.maxLength.filter fun most => most.toNat < s.length
    match short, long with
    | some least, _ => some (.tooShort least.toNat s.length)
    | none, some most => some (.tooLong most.toNat s.length)
    | none, none => none

def formatFlaw [Recognizer] (r : Rule) (v : Value) : Option Flaw :=
  match r.format with
  | some f => if f.fits v then none else some (.malformed f.name)
  | none => none

/-- The first thing that is wrong with a value. -/
def flaw [Recognizer] (r : Rule) (v : Value) : Option Flaw :=
  if v.isBlank then if r.required then some .missing else none
  else (r.lengthFlaw v).or (r.formatFlaw v)

def check [Recognizer] (r : Rule) (field : String) (v : Value) : Option Violation :=
  (r.flaw v).map (Violation.of field)

def toJson (r : Rule) : Json :=
  let length (name : String) (n : Option UInt64) : List (String × Json) :=
    match n with
    | some n => [(name, .nat n.toNat)]
    | none => []
  let format :=
    match r.format with
    | some f => [("format", f.toJson)]
    | none => []
  .obj <| ("required", .bool r.required) :: length "min_length" r.minLength ++
    length "max_length" r.maxLength ++ format

def ofJson? (j : Json) : Option Rule :=
  match j.members? ["required", "min_length", "max_length", "format"] with
  | some [required, least, most, format] => do
    some ⟨← Json.orDefault Json.bool? false required, ← Json.optional? Json.word? least,
      ← Json.optional? Json.word? most, ← Json.optional? Format.ofPlainJson? format⟩
  | _ => none

end Rule

/-- The rules of one entity by field, in the order in which they are checked. -/
abbrev Ruleset := OrderedMap String Rule

namespace Ruleset

/-- Lays other rules over these; for a field that both have, the other one wins. -/
def overlay (rules others : Ruleset) : Ruleset := rules.insertAll others.entries

/-- The violations of a record, given by its fields. A field that it lacks counts as nothing. -/
def check [Recognizer] (rules : Ruleset) (field : String → Option Value) : List Violation :=
  rules.entries.filterMap fun (name, rule) => rule.check name ((field name).getD .null)

def toJson (rules : Ruleset) : Json :=
  .obj [("fields", .obj (rules.mapValues Rule.toJson).entries)]

/-- The rules of a document; of several for one field the last counts, in the place of the first. -/
def ofJson? (j : Json) : Option Ruleset :=
  match j.members? ["fields"] with
  | some [none] => some .empty
  | some [some (.obj fields)] =>
    (fields.mapM fun p => (Rule.ofJson? p.2).map fun r => (p.1, r)).map OrderedMap.ofList
  | _ => none

end Ruleset

end BackOffice
