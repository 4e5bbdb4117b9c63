import BackOffice.Query.Criteria

/-!
# Criteria as parameters

Criteria travel as an ordered list of keys and texts, in which a key may stand more than once. The
parts of a clause stand under keys such as `whereClauses[2].name`; clauses come in the order of
their indices, whatever the order of the parameters and with gaps allowed. Values travel as text, so
they come back as text. Keys of no meaning are passed over.
-/
namespace BackOffice.Query

open BackOffice.Field

attribute [local instance (high)] instPowNat

structure Params where
  pairs : List (String × String)
deriving DecidableEq

namespace Params

def push (p : Params) (key value : String) : Params := ⟨p.pairs ++ [(key, value)]⟩

/-- The first value of a key. -/
def get? (p : Params) (key : String) : Option String := (p.pairs.find? (·.1 == key)).map (·.2)

def valuesOf (p : Params) (key : String) : List String :=
  (p.pairs.filter (·.1 == key)).map (·.2)

def contains (p : Params) (key : String) : Bool := p.pairs.any (·.1 == key)

end Params

/-! ## Writing -/

def clauseKey (index : Nat) : String := "whereClauses[" ++ Numeral.text index ++ "]"

def sortKey (index : Nat) : String := "sortByClauses[" ++ Numeral.text index ++ "]"

def clausePairs (index : Nat) (c : Clause) : List (String × String) :=
  (clauseKey index ++ ".name", c.name) :: (clauseKey index ++ ".oper", c.operator.token) ::
    c.values.map fun v => (clauseKey index ++ ".values", v.wire)

def sortPairs (index : Nat) (s : Sorting) : List (String × String) :=
  [(sortKey index ++ ".name", s.name), (sortKey index ++ ".type", s.direction.token)]

/-- The pairs of a list of parts, which are numbered from `start`. -/
def numbered {α : Type} (pairs : Nat → α → List (String × String)) (start : Nat) :
    List α → List (String × String)
  | [] => []
  | a :: rest => pairs start a ++ numbered pairs (start + 1) rest

def Criteria.toParams (c : Criteria) : Params :=
  ⟨[("pageIndex", Numeral.text c.page.toNat), ("pageSize", Numeral.text c.size.toNat),
    ("whereClauseJoinOp", c.join.token)] ++
    numbered clausePairs 0 c.clauses ++ numbered sortPairs 0 c.sorts ++
    [("calculateStatTotal", Value.boolText c.counted)]⟩

/-! ## Reading -/

/-- The parts of a clause or sort that have come so far. -/
structure Partial where
  name : Option String
  token : Option String
  values : List String
deriving DecidableEq

def Partial.empty : Partial := ⟨none, none, []⟩

/-- What a parameter sets in a clause or sort. -/
inductive Part where
  | name
  | token
  | value
deriving DecidableEq

def Partial.set (p : Partial) (part : Part) (value : String) : Partial :=
  match part with
  | .name => { p with name := some value }
  | .token => { p with token := some value }
  | .value => { p with values := p.values ++ [value] }

/-- Partial clauses by index, in increasing order. -/
abbrev Slots := List (Nat × Partial)

def Slots.set (index : Nat) (part : Part) (value : String) : Slots → Slots
  | [] => [(index, Partial.empty.set part value)]
  | (i, p) :: rest =>
    if index < i then (index, Partial.empty.set part value) :: (i, p) :: rest
    else if index = i then (i, p.set part value) :: rest
    else (i, p) :: Slots.set index part value rest

/-- Where a key puts its value. -/
inductive Slot where
  | clause (index : Nat) (part : Part)
  | sort (index : Nat) (part : Part)
deriving DecidableEq

/-- The rest of a text after its expected beginning. -/
def afterLead? (lead : String) (cs : List Char) : Option (List Char) :=
  if lead.toList.isPrefixOf cs then some (cs.drop lead.length) else none

/-- An index and the attribute behind it: digits, `].`, a word. -/
def indexed? (cs : List Char) : Option (Nat × String) :=
  let (ds, rest) := cs.span Numeral.isDigit
  match Numeral.ofDigits? ds, rest with
  | some n, ']' :: '.' :: word => if n < 2 ^ (64 : Nat) then some (n, String.ofList word) else none
  | _, _ => none

def clausePart? (word : String) : Option Part :=
  if word = "name" then some .name
  else if word = "oper" then some .token
  else if word = "values" then some .value
  else none

def sortPart? (word : String) : Option Part :=
  if word = "name" then some .name else if word = "type" then some .token else none

/-- The slot that a key names, if it names one. -/
def slot? (key : String) : Option Slot :=
  match afterLead? "whereClauses[" key.toList, afterLead? "sortByClauses[" key.toList with
  | some rest, _ => (indexed? rest).bind fun (n, word) => (clausePart? word).map (.clause n)
  | none, some rest => (indexed? rest).bind fun (n, word) => (sortPart? word).map (.sort n)
  | none, none => none

/-- What has been read of the parameters. -/
structure Draft where
  page : UInt64
  size : UInt64
  join : Join
  counted : Bool
  clauses : Slots
  sorts : Slots

def number? (key value : String) : Except Fault UInt64 :=
  match Numeral.word? value with
  | some n => .ok n
  | none => .error (.badValue key value)

/-- Takes one parameter in; later ones override earlier ones of the same meaning. -/
def Draft.take (d : Draft) (pair : String × String) : Except Fault Draft :=
  let (key, value) := pair
  if key = "pageIndex" then do
    let page ← number? key value
    return { d with page }
  else if key = "pageSize" then do
    let size ← number? key value
    if size = 0 then throw .emptyPage
    return { d with size }
  else if key = "whereClauseJoinOp" then
    match Join.ofToken? value with
    | some join => .ok { d with join }
    | none => .error (.unknownJoin value)
  else if key = "calculateStatTotal" then
    match Value.bool? value with
    | some counted => .ok { d with counted }
    | none => .error (.badValue key value)
  else
    match slot? key with
    | some (.clause n part) => .ok { d with clauses := d.clauses.set n part value }
    | some (.sort n part) => .ok { d with sorts := d.sorts.set n part value }
    | none => .ok d

def Partial.toClause (key : String) (p : Partial) : Except Fault Clause :=
  match p.name, p.token with
  | some name, some token =>
    match Operator.ofToken? token with
    | some op => Clause.make name op (p.values.map Value.text)
    | none => .error (.unknownOperator token)
  | _, _ => .error (.incompleteClause key)

def Partial.toSort (key : String) (p : Partial) : Except Fault Sorting :=
  match p.name, p.token with
  | some name, some token =>
    match Direction.ofToken? token with
    | some direction => .ok ⟨name, direction⟩
    | none => .error (.unknownDirection token)
  | _, _ => .error (.incompleteClause key)

/-- The criteria of a draft, if its page lies in range and its parts are complete. -/
def Draft.finish (d : Draft) : Except Fault Criteria := do
  if maxWord < d.page.toNat * d.size.toNat then throw (.pageOutOfRange d.page d.size)
  let clauses ← d.clauses.mapM fun (n, p) => p.toClause (clauseKey n)
  let sorts ← d.sorts.mapM fun (n, p) => p.toSort (sortKey n)
  return ⟨clauses, d.join, sorts, d.page, d.size, d.counted⟩

def Draft.start (defaultSize : UInt64) : Draft :=
  ⟨0, Criteria.atLeastOne defaultSize, .all, false, [], []⟩

/-- Reads criteria from parameters. Of several faults the first in the order of the parameters is
reported, then the range of the page, then the clauses and the sorts in their order. -/
def Criteria.ofParams (p : Params) (defaultSize : UInt64) : Except Fault Criteria := do
  let d ← p.pairs.foldlM Draft.take (Draft.start defaultSize)
  d.finish

end BackOffice.Query
