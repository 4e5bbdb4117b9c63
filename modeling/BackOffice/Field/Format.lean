import BackOffice.Field.Value
import BackOffice.Internet.Email
import BackOffice.Internet.WebAddress
import BackOffice.Pattern.Reader

/-!
# Formats of fields

What the text of a field may be required to look like. Only text has a format, except that an
identifier fits the format of identifiers. A pattern fits where it occurs; it has to carry its own
anchors to speak about the whole text. One that is malformed, or that the engine refuses, fits
nothing.
-/
namespace BackOffice.Field

open BackOffice.Pattern

/-- What recognizes formats: an engine for patterns, and the conversion of names to ASCII. -/
class Recognizer extends Engine, Internet.DomainName.Conversion

instance Recognizer.plain : Recognizer where

inductive Format where
  | email
  | uuid
  | url
  | phone
  | custom (pattern : String)
deriving DecidableEq

namespace Format

def name : Format → String
  | email => "email"
  | uuid => "uuid"
  | url => "url"
  | phone => "phone"
  | custom _ => "custom"

/-- A digit of any script. -/
def isDigit (c : Char) : Bool := Text.Category.decimalNumber.has c

/-- A digit from one to nine, then seven to fourteen digits; a plus sign may stand in front. -/
def isPhone (s : String) : Bool :=
  let number (cs : List Char) : Bool :=
    match cs with
    | c :: ds => '1' ≤ c && c ≤ '9' && 7 ≤ ds.length && ds.length ≤ 14 && ds.all isDigit
    | [] => false
  match s.toList with
  | '+' :: cs => number cs
  | cs => number cs

def occurs [Engine] (pattern s : String) : Bool :=
  match Pattern.ofText? pattern with
  | some e => Engine.compiles pattern && e.occursIn s
  | none => false

def fitsText [Recognizer] (f : Format) (s : String) : Bool :=
  match f with
  | email => Internet.Email.isValid s
  | uuid => (Uuid.ofText? s).isSome
  | url => Internet.WebAddress.isValid s
  | phone => isPhone s
  | custom pattern => occurs pattern s

def fits [Recognizer] (f : Format) (v : Value) : Bool :=
  match f, v with
  | uuid, .uuid _ => true
  | f, .text s => f.fitsText s
  | _, _ => false

/-- The formats without a pattern, by name. -/
def ofName? (name : String) : Option Format :=
  match name with
  | "email" => some email
  | "uuid" => some uuid
  | "url" => some url
  | "phone" => some phone
  | _ => none

/-- A format by its name alone, or a pattern under the name `custom`. -/
def ofPlainJson? : Json → Option Format
  | .obj [("custom", .str pattern)] => some (custom pattern)
  | j => j.str?.bind ofName?

/-- A format in either form; a name may also be the only key of an object that holds null. -/
def ofJson? (j : Json) : Option Format := (ofPlainJson? j).or (j.unitName?.bind ofName?)

def toJson : Format → Json
  | custom pattern => .obj [("custom", .str pattern)]
  | f => .str f.name

end Format

end BackOffice.Field
