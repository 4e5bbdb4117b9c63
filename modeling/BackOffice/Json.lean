import BackOffice.Number.Binary64

/-!
# JSON documents

A document tree, its written form, and the equality by which two documents say the same. Whole
numbers and numbers with a point or an exponent are different values; only the latter are rounded.
-/
namespace BackOffice

inductive Json where
  | null
  | bool (value : Bool)
  | int (value : Int)
  | float (value : Binary64)
  | str (value : String)
  | arr (items : List Json)
  | obj (fields : List (String × Json))

namespace Json

instance : Inhabited Json := ⟨null⟩

/-- A number that JSON cannot write is null. -/
def ofFloat (x : Binary64) : Json := if x.isFinite then float x else null

def ofOption {α : Type} (write : α → Json) : Option α → Json
  | some a => write a
  | none => null

def nat (n : Nat) : Json := int n

def ofStrings (xs : List String) : Json := arr (xs.map str)

/-- The value under a key; of several the last. -/
def get? (j : Json) (key : String) : Option Json :=
  match j with
  | obj fields => (fields.reverse.find? (·.1 == key)).map (·.2)
  | _ => none

/-! ## Equality -/

mutual

/-- Equality of documents, with numbers compared arithmetically. -/
def agrees : Json → Json → Bool
  | null, null => true
  | bool a, bool b => a == b
  | int a, int b => a == b
  | float a, float b => a.agrees b
  | str a, str b => a == b
  | arr as, arr bs => itemsAgree as bs
  | obj as, obj bs => fieldsAgree as bs
  | _, _ => false

def itemsAgree : List Json → List Json → Bool
  | [], [] => true
  | a :: as, b :: bs => agrees a b && itemsAgree as bs
  | _, _ => false

/-- Fields are compared in the order in which they stand. -/
def fieldsAgree : List (String × Json) → List (String × Json) → Bool
  | [], [] => true
  | (k, a) :: as, (l, b) :: bs => k == l && agrees a b && fieldsAgree as bs
  | _, _ => false

end

/-! ## Writing -/

/-- The letter that is written behind a backslash for a character, if there is one. -/
def escapeLetter? (c : Char) : Option Char :=
  match c with
  | '"' => some '"'
  | '\\' => some '\\'
  | '\x08' => some 'b'
  | '\x0c' => some 'f'
  | '\n' => some 'n'
  | '\r' => some 'r'
  | '\t' => some 't'
  | _ => none

def escaped (c : Char) : List Char :=
  match escapeLetter? c with
  | some letter => ['\\', letter]
  | none => if c.toNat < 0x20 then '\\' :: 'u' :: Numeral.hexPadded 4 c.toNat else [c]

def quoted (s : String) : String :=
  String.ofList ('"' :: s.toList.flatMap escaped ++ ['"'])

mutual

/-- The written form, without blanks. -/
def text : Json → String
  | null => "null"
  | bool b => if b then "true" else "false"
  | int n => Numeral.signedText n
  | float x => x.compactText
  | str s => quoted s
  | arr items => "[" ++ ",".intercalate (itemTexts items) ++ "]"
  | obj fields => "\x7b" ++ ",".intercalate (fieldTexts fields) ++ "\x7d"

def itemTexts : List Json → List String
  | [] => []
  | j :: rest => j.text :: itemTexts rest

def fieldTexts : List (String × Json) → List String
  | [] => []
  | (k, j) :: rest => (quoted k ++ ":" ++ j.text) :: fieldTexts rest

end

end Json

end BackOffice
