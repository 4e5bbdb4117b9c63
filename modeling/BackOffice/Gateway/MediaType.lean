import BackOffice.Number.Numeral

/-!
# Media types

Whether the media type of a request says that its body is JSON: `application/json`, or a type of
`application` whose suffix is `json`. Upper and lower case are the same, and parameters must be well
formed but mean nothing.
-/
namespace BackOffice.Gateway.MediaType

def isTokenChar (c : Char) : Bool := c.isAlphanum || "!#$%&'*+-.^_\x60|~".toList.contains c

def isQuotable (c : Char) : Bool := 0x20 ≤ c.toNat && c.toNat ≤ 0x7E

/-- What follows a quoted value and the blanks behind it. The first character belongs to the value,
whatever it is. -/
def afterQuoted? (cs : List Char) : Option (List Char) :=
  match cs with
  | c :: cs =>
    let rest := cs.dropWhile fun d => isQuotable d && d != '"'
    if isQuotable c ∧ rest.head? = some '"' then some ((rest.drop 1).dropWhile (· == ' ')) else none
  | [] => none

/-- What follows the value of a parameter. -/
def afterValue? (cs : List Char) : Option (List Char) :=
  match cs with
  | '"' :: quoted => afterQuoted? quoted
  | _ =>
    let rest := cs.dropWhile isTokenChar
    if rest.length < cs.length || rest.isEmpty then some rest else none

/-- Whether a text is a row of parameters, parted by semicolons. -/
def areParameters : Nat → List Char → Bool
  | 0, _ => false
  | _ + 1, [] => true
  | fuel + 1, ' ' :: cs => areParameters fuel cs
  | fuel + 1, cs =>
    let (name, rest) := cs.span isTokenChar
    match name.isEmpty, rest with
    | false, '=' :: value =>
      match afterValue? value with
      | some [] => true
      | some (';' :: rest) => areParameters fuel rest
      | _ => false
    | _, _ => false

/-- A subtype without its suffix, and the suffix after the last plus sign. -/
def splitSuffix (subtype : List Char) : List Char × Option (List Char) :=
  let suffix := (subtype.reverse.takeWhile (· != '+')).reverse
  let name := subtype.take (subtype.length - suffix.length - 1)
  if name.isEmpty then (subtype, none) else (name, some suffix)

def isWord (word : String) (cs : List Char) : Bool := cs.map Char.toLower == word.toList

def isJsonSubtype (subtype : List Char) : Bool :=
  let (name, suffix) := splitSuffix subtype
  isWord "json" name || suffix.any (isWord "json")

def isJson (s : String) : Bool :=
  let (kind, rest) := s.toList.span isTokenChar
  match rest with
  | '/' :: rest =>
    let (subtype, rest) := rest.span isTokenChar
    let closed :=
      match rest with
      | [] => true
      | ';' :: parameters => areParameters (parameters.length + 1) parameters
      | _ => false
    isWord "application" kind && isJsonSubtype subtype && closed
  | _ => false

end BackOffice.Gateway.MediaType
