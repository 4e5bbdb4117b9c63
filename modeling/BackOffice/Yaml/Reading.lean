import BackOffice.Json.Reader
import BackOffice.Yaml.Node

/-!
# Reading values from YAML

What a node may be read as. Any scalar is text, however it is written; numbers, truth values and null
must be plain. A mapping or a sequence may be left out altogether. A node without an expected type
becomes a JSON value: a plain scalar is null, a truth value, a number or text, in this order. Whole
numbers that take 64 to 128 bits are refused, and longer ones are rounded.
-/
namespace BackOffice.Yaml

attribute [local instance (high)] instPowNat

def isNullText (s : String) : Bool := s == "null" || s == "Null" || s == "NULL" || s == "~"

def boolOfText? (s : String) : Option Bool :=
  if s = "true" ∨ s = "True" ∨ s = "TRUE" then some true
  else if s = "false" ∨ s = "False" ∨ s = "FALSE" then some false
  else none

/-- The value of a digit in a base of at most sixteen. -/
def digitIn? (base : Nat) (c : Char) : Option Nat :=
  (Numeral.hexDigit? c).bind fun d => if d < base then some d else none

def digitsIn? (base : Nat) (cs : List Char) : Option Nat :=
  if cs.isEmpty then none else Numeral.continued? base (digitIn? base) 0 cs

/-- Digits behind a superfluous zero make a text, not a number. -/
def hasIdleZero (cs : List Char) : Bool :=
  match cs with
  | '0' :: rest => !rest.isEmpty && rest.all Numeral.isDigit
  | _ => false

/-- A whole number without sign, in base two, eight, ten or sixteen. -/
def magnitude? (cs : List Char) : Option Nat :=
  match cs with
  | '0' :: 'x' :: ds => digitsIn? 16 ds
  | '0' :: 'o' :: ds => digitsIn? 8 ds
  | '0' :: 'b' :: ds => digitsIn? 2 ds
  | _ => if hasIdleZero cs then none else digitsIn? 10 cs

/-- A whole number of at most 128 bits; a longer one is not taken for a whole number. -/
def intOfText? (s : String) : Option Int :=
  let within (n : Int) : Option Int :=
    if -2 ^ (127 : Nat) ≤ n ∧ n < 2 ^ (128 : Nat) then some n else none
  match s.toList with
  | '-' :: cs => (magnitude? cs).bind fun n => within (-n)
  | '+' :: cs => (magnitude? cs).bind fun n => within n
  | cs => (magnitude? cs).bind fun n => within n

def infinityWords : List String := [".inf", ".Inf", ".INF"]

/-- A finite number, or one of the words for infinity and NaN. -/
def floatOfText? (s : String) : Option Binary64 :=
  let (sign, body) :=
    match s.toList with
    | '+' :: cs => (some '+', String.ofList cs)
    | '-' :: cs => (some '-', String.ofList cs)
    | _ => (none, s)
  if infinityWords.contains body then
    some (if sign = some '-' then Binary64.infinity.neg else .infinity)
  else if s = ".nan" ∨ s = ".NaN" ∨ s = ".NAN" then some .nan
  else if sign = some '+' ∧ (body.toList.head? = some '+' ∨ body.toList.head? = some '-') then none
  else (Binary64.ofText? s).bind fun x => if x.isFinite then some x else none

namespace Node

/-- A tag of the core of the language. -/
def coreTag (name : String) : Option String := some ("tag:yaml.org,2002:" ++ name)

/-- A tag with a meaning of the text's own. -/
def isLocalTag (tag : Option String) : Bool := tag.any fun t => t.toList.head? == some '!'

/-- Null, or nothing at all. -/
def isNull : Node → Bool
  | scalar s isPlain tag =>
    isPlain && (s.isEmpty || isNullText s) && (tag.isNone || tag == coreTag "null")
  | void => true
  | _ => false

def text? : Node → Option String
  | scalar s _ _ => some s
  | _ => none

def bool? : Node → Option Bool
  | scalar s true _ => boolOfText? s
  | _ => none

/-- An unsigned 64-bit word. -/
def word? : Node → Option UInt64
  | scalar s true _ =>
    match intOfText? s with
    | some n =>
      if 0 ≤ n ∧ n < 2 ^ (64 : Nat) ∧ s.toList.head? ≠ some '-' then
        some (UInt64.ofNat n.toNat)
      else none
    | none => none
  | _ => none

def isLeftOut : Node → Bool
  | scalar s isPlain _ => isPlain && s.isEmpty
  | void => true
  | _ => false

def items? : Node → Option (List Node)
  | seq items _ => some items
  | n => if n.isLeftOut then some [] else none

def entries? : Node → Option (List (Node × Node))
  | map entries _ => some entries
  | n => if n.isLeftOut then some [] else none

/-- The entries of a mapping whose keys are texts. -/
def textEntries? (n : Node) : Option (List (String × Node)) :=
  n.entries?.bind fun entries => entries.mapM fun (k, v) => k.text?.map fun k => (k, v)

/-- The members of the given names, in that order. Others are ignored, and none may stand twice. -/
def members? (names : List String) (n : Node) : Option (List (Option Node)) :=
  n.textEntries?.bind fun entries =>
    if names.all fun name => (entries.filter (·.1 == name)).length ≤ 1 then
      some (names.map fun name => (entries.find? (·.1 == name)).map (·.2))
    else none

def orDefault {α : Type} (read? : Node → Option α) (default : α) : Option Node → Option α
  | some n => read? n
  | none => some default

def optional? {α : Type} (read? : Node → Option α) : Option Node → Option (Option α)
  | none => some none
  | some n => if n.isNull then some none else (read? n).map some

/-- A plain scalar without an expected type. -/
def plainJson? (s : String) : Option Json :=
  if s.isEmpty || isNullText s then some .null
  else
    match boolOfText? s, intOfText? s, floatOfText? s with
    | some b, _, _ => some (.bool b)
    | none, some n, _ =>
      if -2 ^ (63 : Nat) ≤ n ∧ n < 2 ^ (64 : Nat) then some (.int n)
      else none
    | none, none, some x =>
      let digits :=
        match s.toList with
        | '-' :: cs | '+' :: cs => cs
        | cs => cs
      if hasIdleZero digits then some (.str s) else some (.ofFloat x)
    | none, none, none => some (.str s)

/-- A scalar as a JSON value. A tag of the core of the language fixes its type. -/
def scalarJson? (s : String) (isPlain : Bool) (tag : Option String) : Option Json :=
  if isLocalTag tag then none
  else if tag = coreTag "bool" then (boolOfText? s).map .bool
  else if tag = coreTag "int" then
    (intOfText? s).bind fun n =>
      if -2 ^ (63 : Nat) ≤ n ∧ n < 2 ^ (64 : Nat) then some (.int n) else none
  else if tag = coreTag "float" then (floatOfText? s).map .ofFloat
  else if tag = coreTag "null" then if s.isEmpty || isNullText s then some .null else none
  else if tag.isNone && isPlain then plainJson? s
  else some (.str s)

mutual

/-- The JSON value of a node. Keys must be scalars; of several entries under one key the last counts. -/
def toJson? : Node → Option Json
  | scalar s isPlain tag => scalarJson? s isPlain tag
  | seq items tag => if isLocalTag tag then none else (itemsToJson? items).map .arr
  | map entries tag => if isLocalTag tag then none else (entriesToJson? entries).map .obj
  | void => some .null
  | cycle => none

def itemsToJson? : List Node → Option (List Json)
  | [] => some []
  | n :: rest =>
    match toJson? n, itemsToJson? rest with
    | some j, some js => some (j :: js)
    | _, _ => none

def entriesToJson? : List (Node × Node) → Option (List (String × Json))
  | [] => some []
  | (k, v) :: rest =>
    match k.text?, toJson? v, entriesToJson? rest with
    | some k, some j, some js => some (if js.any (·.1 == k) then js else (k, j) :: js)
    | _, _, _ => none

end

end Node

end BackOffice.Yaml
