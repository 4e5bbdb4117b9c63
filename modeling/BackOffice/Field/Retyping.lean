import BackOffice.Field.Value

/-!
# Giving text its kind back

Parameters carry text only. To compare such a value with a field, the text is read as the kind of
that field; text that cannot be read so stays text, and a value that is not text stays as it is.
-/
namespace BackOffice.Field.Value

def bool? (s : String) : Option Bool :=
  if s = "true" then some true else if s = "false" then some false else none

/-- Text read as the kind of `model`. -/
def ofWire? (s : String) (model : Value) : Option Value :=
  match model with
  | int _ => (Numeral.signedWord? s).map int
  | float _ => (Binary64.ofText? s).map float
  | bool _ => (bool? s).map bool
  | uuid _ => (Uuid.ofText? s).map uuid
  | instant _ => (Instant.ofText? s).map instant
  | null => if s = "null" then some null else none
  | text _ => none

def retyped (v model : Value) : Value :=
  match v with
  | text s => (ofWire? s model).getD v
  | _ => v

end BackOffice.Field.Value
