import BackOffice.Json

/-!
# Writing JSON values as YAML

A map of values is written with one explicit key and one value on lines of their own, the values in
flow form. Strings are quoted, and every character that a YAML text may not hold or would fold is
written as an escape, so that any value can be read back.
-/
namespace BackOffice.Yaml

def escaped (c : Char) : List Char :=
  if c = '"' ∨ c = '\\' then ['\\', c]
  else if 0x20 ≤ c.toNat ∧ c.toNat ≤ 0x7E then [c]
  else '\\' :: 'U' :: Numeral.hexPadded 8 c.toNat

def quoted (s : String) : String :=
  String.ofList ('"' :: s.toList.flatMap escaped ++ ['"'])

mutual

/-- The flow form of a value. -/
def flow : Json → String
  | .null => "null"
  | .bool b => if b then "true" else "false"
  | .int n => Numeral.signedText n
  | .float x => x.compactText
  | .str s => quoted s
  | .arr items => "[" ++ ", ".intercalate (flowItems items) ++ "]"
  | .obj fields => "\x7b" ++ ", ".intercalate (flowFields fields) ++ "\x7d"

def flowItems : List Json → List String
  | [] => []
  | j :: rest => flow j :: flowItems rest

def flowFields : List (String × Json) → List String
  | [] => []
  | (k, j) :: rest => ("? " ++ quoted k ++ " : " ++ flow j) :: flowFields rest

end

/-- A map as a document. -/
def writeMap (entries : List (String × Json)) : String :=
  if entries.isEmpty then "\x7b\x7d\n"
  else
    String.join (entries.map fun (k, j) => "? " ++ quoted k ++ "\n: " ++ flow j ++ "\n")

end BackOffice.Yaml
