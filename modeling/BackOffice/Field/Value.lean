import BackOffice.Instant
import BackOffice.Uuid
import BackOffice.Json.Members
import BackOffice.Text.Blank

/-!
# Values of fields

A field of a record holds one of a few kinds of scalar, or nothing. This module has the kinds, the
text in which a value travels as a parameter, and the form it takes in a JSON document.
-/
namespace BackOffice.Field

inductive Value where
  | text (s : String)
  | int (n : Int64)
  | float (x : Binary64)
  | bool (b : Bool)
  | uuid (u : Uuid)
  | instant (t : Instant)
  | null
deriving DecidableEq

namespace Value

def text? : Value → Option String
  | text s => some s
  | _ => none

def int? : Value → Option Int64
  | int n => some n
  | _ => none

def uuid? : Value → Option Uuid
  | uuid u => some u
  | _ => none

def isNull (v : Value) : Bool := v == null

/-- Nothing, or text of nothing but white space. -/
def isBlank : Value → Bool
  | null => true
  | text s => Text.isBlank s
  | _ => false

def ofOption {α : Type} (make : α → Value) : Option α → Value
  | some a => make a
  | none => null

def boolText (b : Bool) : String := if b then "true" else "false"

/-- The text in which a value travels; what kind of value it was is not part of it. -/
def wire : Value → String
  | text s => s
  | int n => Numeral.signedText n.toInt
  | float x => x.text
  | bool b => boolText b
  | uuid u => u.text
  | instant t => t.text
  | null => "null"

def toJson : Value → Json
  | text s => .str s
  | int n => .int n.toInt
  | float x => .ofFloat x
  | bool b => .bool b
  | uuid u => .str u.text
  | instant t => .str t.documentText
  | null => .null

/-- A scalar of a document. Every string is text, and a whole number beyond the signed words becomes
one in double precision. -/
def ofJson? : Json → Option Value
  | .str s => some (text s)
  | .int n =>
    match Json.signedWord? (.int n) with
    | some n => some (int n)
    | none => some (float (Binary64.ofInt n))
  | .float x => some (float x)
  | .bool b => some (bool b)
  | .null => some null
  | _ => none

end Value

end BackOffice.Field
