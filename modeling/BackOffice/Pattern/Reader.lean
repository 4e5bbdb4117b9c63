import BackOffice.Pattern.Expr

/-!
# The written form of patterns

Literals, `.` and bracketed sets with set operations, anchors and word boundaries, groups with or
without names, alternatives, greedy and lazy repetition (which fit the same texts), and flags. There
is no look-around and no reference back to a group: a pattern that uses them does not read, and
neither does an escape without meaning, a span that runs backwards, a count whose bounds are
crossed, or a repetition of nothing. What reads may still be too large for the engine that searches
texts for it.
-/
namespace BackOffice.Pattern

open BackOffice.Text

attribute [local instance (high)] instPowNat

structure Flags where
  ignoreCase : Bool
  multiLine : Bool
  dotAll : Bool
  allScripts : Bool
  anyLineEnd : Bool
  extended : Bool

def Flags.initial : Flags := ⟨false, false, false, true, false, false⟩

/-- What the flags say at a place, and the names of the groups before it. -/
structure Context where
  flags : Flags
  names : List String

/-- One place of a pattern. -/
inductive Atom where
  | char (c : Char)
  | set (s : CharSet)
  | look (l : Look)

namespace Reader

/-- Skips blanks and comments where the extended form allows them. -/
def skipBlanks (extended : Bool) : List Char → List Char
  | [] => []
  | c :: cs =>
    if !extended then c :: cs
    else if isBlankChar c then skipBlanks extended cs
    else if c = '#' then skipComment extended cs
    else c :: cs
where
  skipComment (extended : Bool) : List Char → List Char
    | [] => []
    | c :: cs => if c = '\n' then skipBlanks extended cs else skipComment extended cs

def isMeta (c : Char) : Bool := "\\.+*?()|[]\x7b\x7d^$#&-~".toList.contains c

/-- Characters that stand for themselves after a backslash. -/
def isEscapable (c : Char) : Bool :=
  isMeta c || (c.toNat < 0x80 && !c.isAlphanum && c != '<' && c != '>')

def validChar? (n : Nat) : Option Char :=
  if n.isValidChar then some (Char.ofNat n) else none

/-- Hexadecimal digits: a fixed number of them, or any number in braces. -/
def readHex? (fl : Flags) (count : Nat) (cs : List Char) : Option (Char × List Char) :=
  match skipBlanks fl.extended cs with
  | '\x7b' :: cs =>
    let (ds, rest) := cs.span (· != '\x7d')
    match rest with
    | [] => none
    | _ :: rest => do
      let n ← Numeral.ofHex? (ds.filter fun c => !(fl.extended && isBlankChar c))
      let c ← validChar? n
      some (c, rest)
  | cs => do
    let ds := cs.take count
    if ds.length < count then none
    let c ← validChar? (← Numeral.ofHex? ds)
    some (c, cs.drop count)

def foldIf (fl : Flags) (s : CharSet) : CharSet := if fl.ignoreCase then .upToCase s else s

/-- The complement of a set, which needs the characters of all scripts. -/
def negateIf? (fl : Flags) (negated : Bool) (s : CharSet) : Option CharSet :=
  if !negated then some s else if fl.allScripts then some (.compl s) else none

/-- A property after `\p` or `\P`: one letter, or a name in braces, perhaps with a value. -/
def readProperty? (fl : Flags) (negated : Bool) (cs : List Char) : Option (CharSet × List Char) :=
  match skipBlanks fl.extended cs with
  | '\x7b' :: cs =>
    let (name, rest) := cs.span (· != '\x7d')
    match rest with
    | [] => none
    | _ :: rest =>
      let (left, right) := name.span fun c => c != '=' && c != ':'
      if right.isEmpty then do
        let s ← CharSet.ofName? (Property.normalName name)
        let s ← negateIf? fl negated (foldIf fl s)
        some (s, rest)
      else do
        let differs := left.getLast? == some '!' && right.head? == some '='
        let property := if differs then left.dropLast else left
        let s ← Property.ofValue? (Property.normalName property) (Property.normalName (right.drop 1))
        let s ← negateIf? fl (negated != differs) (foldIf fl (.spans s))
        some (s, rest)
  | '\\' :: _ => none
  | c :: rest => do
    let s ← CharSet.ofName? (Property.normalName [c])
    let s ← negateIf? fl negated (foldIf fl s)
    some (s, rest)
  | [] => none

/-- The special boundaries `\b{start}`, `\b{end}`, `\b{start-half}` and `\b{end-half}`. What follows
the brace decides whether it opens one of them or counts repetitions. -/
def readBoundary? (fl : Flags) (cs : List Char) : Option (Look × List Char) :=
  let ofAscii := !fl.allScripts
  let isName (c : Char) : Bool := c.isAlpha || c == '-'
  match cs with
  | '\x7b' :: rest =>
    let inner := skipBlanks fl.extended rest
    match inner with
    | [] => none
    | c :: _ =>
      if !isName c then some (.boundary ofAscii, cs)
      else
        let (name, rest) := inner.span isName
        match rest, String.ofList name with
        | '\x7d' :: rest, "start" => some (.wordStart ofAscii, rest)
        | '\x7d' :: rest, "end" => some (.wordEnd ofAscii, rest)
        | '\x7d' :: rest, "start-half" => some (.wordStartHalf ofAscii, rest)
        | '\x7d' :: rest, "end-half" => some (.wordEndHalf ofAscii, rest)
        | _, _ => none
  | _ => some (.boundary ofAscii, cs)

/-- What a backslash and the characters after it stand for. -/
def readEscape? (fl : Flags) (cs : List Char) : Option (Atom × List Char) :=
  let ofAscii := !fl.allScripts
  let class? (negated : Bool) (all ascii : CharSet) (rest : List Char) :=
    (negateIf? fl negated (if fl.allScripts then all else ascii)).map fun s => (Atom.set s, rest)
  match cs with
  | [] => none
  | c :: rest =>
    if isEscapable c then some (.char c, rest)
    else
      match c with
      | 'x' => (readHex? fl 2 rest).map fun (c, rest) => (.char c, rest)
      | 'u' => (readHex? fl 4 rest).map fun (c, rest) => (.char c, rest)
      | 'U' => (readHex? fl 8 rest).map fun (c, rest) => (.char c, rest)
      | 'p' => (readProperty? fl false rest).map fun (s, rest) => (.set s, rest)
      | 'P' => (readProperty? fl true rest).map fun (s, rest) => (.set s, rest)
      | 'd' => class? false .digit .asciiDigit rest
      | 'D' => class? true .digit .asciiDigit rest
      | 's' => class? false .blank .asciiBlank rest
      | 'S' => class? true .blank .asciiBlank rest
      | 'w' => class? false .word .asciiWord rest
      | 'W' => class? true .word .asciiWord rest
      | 'a' => some (.char '\x07', rest)
      | 'f' => some (.char '\x0c', rest)
      | 't' => some (.char '\t', rest)
      | 'n' => some (.char '\n', rest)
      | 'r' => some (.char '\r', rest)
      | 'v' => some (.char '\x0b', rest)
      | 'A' => some (.look .textStart, rest)
      | 'z' => some (.look .textEnd, rest)
      | 'b' => (readBoundary? fl rest).map fun (l, rest) => (.look l, rest)
      | 'B' => some (.look (.notBoundary ofAscii), rest)
      | '<' => some (.look (.wordStart ofAscii), rest)
      | '>' => some (.look (.wordEnd ofAscii), rest)
      | _ => none

/-! ## Bracketed sets -/

inductive SetOp where
  | inter
  | diff
  | symDiff

/-- A set under construction: what stands before the last operator, and the union after it. -/
structure PartialSet where
  before : Option (SetOp × CharSet)
  current : CharSet

def PartialSet.add (p : PartialSet) (s : CharSet) : PartialSet :=
  { p with current := .union p.current s }

def PartialSet.close (fl : Flags) (p : PartialSet) : CharSet :=
  match p.before with
  | none => p.current
  | some (op, left) =>
    let a := foldIf fl left
    let b := foldIf fl p.current
    match op with
    | .inter => .inter a b
    | .diff => .diff a b
    | .symDiff => .symDiff a b

def PartialSet.operator (fl : Flags) (op : SetOp) (p : PartialSet) : PartialSet :=
  ⟨some (op, p.close fl), .empty⟩

/-- A named set such as `[:alpha:]`, after its opening bracket. -/
def asciiClass? (fl : Flags) (cs : List Char) : Option (CharSet × List Char) :=
  match cs with
  | ':' :: cs =>
    let (negated, cs) :=
      match cs with
      | '^' :: cs => (true, cs)
      | cs => (false, cs)
    let (name, rest) := cs.span (· != ':')
    match rest with
    | ':' :: ']' :: rest => do
      let s ← CharSet.ofAsciiName? (String.ofList name)
      let s ← negateIf? fl negated (foldIf fl s)
      some (s, rest)
    | _ => none
  | _ => none

/-- One item of a bracketed set, which may turn out to begin a span. -/
def readSetItem? (fl : Flags) (cs : List Char) : Option (Atom × List Char) :=
  match cs with
  | [] => none
  | '\\' :: rest => readEscape? fl rest
  | c :: rest => some (.char c, rest)

def setOfAtom? : Atom → Option CharSet
  | .char c => some (.single c)
  | .set s => some s
  | .look _ => none

/-- Whether a hyphen makes a span of the item before it. -/
def startsSpan (fl : Flags) (cs : List Char) : Option (List Char) :=
  match cs with
  | '-' :: rest =>
    match skipBlanks fl.extended rest with
    | ']' :: _ | '-' :: _ | [] => none
    | rest => some rest
  | _ => none

def readSetRange? (fl : Flags) (cs : List Char) : Option (CharSet × List Char) := do
  let (first, rest) ← readSetItem? fl cs
  let rest := skipBlanks fl.extended rest
  match startsSpan fl rest with
  | none =>
    let s ← setOfAtom? first
    some (s, rest)
  | some rest =>
    let (last, rest) ← readSetItem? fl rest
    match first, last with
    | .char a, .char b => if a ≤ b then some (.between a b, rest) else none
    | _, _ => none

/-- The start of a bracketed set: a negation, hyphens, and a closing bracket that is meant as itself. -/
def openSet (fl : Flags) (cs : List Char) : Bool × PartialSet × List Char :=
  let cs := skipBlanks fl.extended cs
  let (negated, cs) :=
    match cs with
    | '^' :: cs => (true, skipBlanks fl.extended cs)
    | cs => (false, cs)
  let hyphens := cs.takeWhile (· == '-')
  let cs := skipBlanks fl.extended (cs.drop hyphens.length)
  if !hyphens.isEmpty then (negated, ⟨none, .single '-'⟩, cs)
  else
    match cs with
    | ']' :: cs => (negated, ⟨none, .single ']'⟩, cs)
    | cs => (negated, ⟨none, .empty⟩, cs)

mutual

/-- A bracketed set after its opening bracket. -/
def readSet? : Nat → Flags → List Char → Option (CharSet × List Char)
  | 0, _, _ => none
  | fuel + 1, fl, cs => do
    let (negated, start, cs) := openSet fl cs
    let (s, rest) ← readSetItems? fuel fl start cs
    let s ← negateIf? fl negated (foldIf fl s)
    some (s, rest)

def readSetItems? : Nat → Flags → PartialSet → List Char → Option (CharSet × List Char)
  | 0, _, _, _ => none
  | fuel + 1, fl, p, cs =>
    match skipBlanks fl.extended cs with
    | [] => none
    | ']' :: rest => some (p.close fl, rest)
    | '[' :: rest =>
      match asciiClass? fl rest with
      | some (s, rest) => readSetItems? fuel fl (p.add s) rest
      | none =>
        match readSet? fuel fl rest with
        | some (s, rest) => readSetItems? fuel fl (p.add s) rest
        | none => none
    | '&' :: '&' :: rest => readSetItems? fuel fl (p.operator fl .inter) rest
    | '-' :: '-' :: rest => readSetItems? fuel fl (p.operator fl .diff) rest
    | '~' :: '~' :: rest => readSetItems? fuel fl (p.operator fl .symDiff) rest
    | cs =>
      match readSetRange? fl cs with
      | some (s, rest) => readSetItems? fuel fl (p.add s) rest
      | none => none

end

/-! ## Repetition -/

def atLeast (e : Expr) (n : Nat) : Expr :=
  if n = 0 then .star e else .seq (.times e n 0) (.star e)

/-- A count, with blanks around it. -/
def readCount? (cs : List Char) : Option (Nat × List Char) :=
  let (ds, rest) := (dropBlanks cs).span Numeral.isDigit
  match Numeral.ofDigits? ds with
  | some n => if n < 2 ^ (32 : Nat) then some (n, dropBlanks rest) else none
  | none => none

/-- The bounds between braces, after the opening one. -/
def readBounds? (fl : Flags) (e : Expr) (cs : List Char) : Option (Expr × List Char) := do
  let (least, rest) ← readCount? (skipBlanks fl.extended cs)
  match rest with
  | '\x7d' :: rest => some (.times e least 0, rest)
  | ',' :: rest =>
    match skipBlanks fl.extended rest with
    | '\x7d' :: rest => some (atLeast e least, rest)
    | rest =>
      let (most, rest) ← readCount? rest
      match rest with
      | '\x7d' :: rest =>
        if least ≤ most then some (.times e least (most - least), rest) else none
      | _ => none
  | _ => none

/-- A question mark after a repetition makes it lazy, which does not change what fits. -/
def skipLazy (fl : Flags) (cs : List Char) : List Char :=
  match skipBlanks fl.extended cs with
  | '?' :: rest => rest
  | _ => cs

def readRepetition? (fl : Flags) (e : Expr) (op : Char) (cs : List Char) :
    Option (Expr × List Char) :=
  if op = '*' then some (.star e, skipLazy fl cs)
  else if op = '+' then some (atLeast e 1, skipLazy fl cs)
  else if op = '?' then some (.times e 0 1, skipLazy fl cs)
  else (readBounds? fl e cs).map fun (e, rest) => (e, skipLazy fl rest)

/-! ## Groups -/

def Flags.set? (fl : Flags) (on : Bool) (c : Char) : Option Flags :=
  match c with
  | 'i' => some { fl with ignoreCase := on }
  | 'm' => some { fl with multiLine := on }
  | 's' => some { fl with dotAll := on }
  | 'u' => some { fl with allScripts := on }
  | 'R' => some { fl with anyLineEnd := on }
  | 'x' => some { fl with extended := on }
  | 'U' => some fl
  | _ => none

/-- Flags up to a colon or a closing parenthesis, which is the character returned. No flag may
stand twice, and a minus must be followed by one. -/
def readFlags? (fl : Flags) (on : Bool) (seen : List Char) :
    List Char → Option (Flags × List Char × Char × List Char)
  | [] => none
  | c :: cs =>
    if c = ':' ∨ c = ')' then
      if seen.head? = some '-' then none else some (fl, seen, c, cs)
    else if seen.contains c then none
    else if c = '-' then readFlags? fl false (c :: seen) cs
    else
      match Flags.set? fl on c with
      | some fl => readFlags? fl on (c :: seen) cs
      | none => none

def isNameStart (c : Char) : Bool := c == '_' || Span.anyHas Property.alphabetic c.toNat

def isNameChar (c : Char) : Bool :=
  isNameStart c || c == '.' || c == '[' || c == ']' ||
    Span.anyHas (Property.ofCategories [.decimalNumber, .letterNumber, .otherNumber]) c.toNat

/-- The name of a group, up to its closing bracket. -/
def readName? (names : List String) (cs : List Char) : Option (String × List Char) :=
  let (name, rest) := cs.span (· != '>')
  match name, rest with
  | c :: others, _ :: rest =>
    let text := String.ofList name
    if isNameStart c && others.all isNameChar && !names.contains text then some (text, rest)
    else none
  | _, _ => none

/-- How a parenthesis opens. -/
inductive Opening where
  | group (context : Context) (rest : List Char)
  | flags (context : Context) (rest : List Char)

def readOpening? (ctx : Context) (cs : List Char) : Option Opening :=
  match skipBlanks ctx.flags.extended cs with
  | '?' :: '=' :: _ | '?' :: '!' :: _ | '?' :: '<' :: '=' :: _ | '?' :: '<' :: '!' :: _ => none
  | '?' :: 'P' :: '<' :: rest | '?' :: '<' :: rest =>
    (readName? ctx.names rest).map fun (name, rest) =>
      .group { ctx with names := name :: ctx.names } rest
  | '?' :: rest =>
    match readFlags? ctx.flags true [] rest with
    | some (fl, seen, last, rest) =>
      if last = ':' then some (.group { ctx with flags := fl } rest)
      else if seen.isEmpty then none
      else some (.flags { ctx with flags := fl } rest)
    | none => none
  | rest => some (.group ctx rest)

/-! ## Patterns -/

def dot? (fl : Flags) : Option CharSet :=
  if !fl.allScripts then none
  else if fl.dotAll then some .any
  else if fl.anyLineEnd then some (.compl (.union (.single '\n') (.single '\r')))
  else some (.compl (.single '\n'))

def lineStart (fl : Flags) : Look :=
  if !fl.multiLine then .textStart else if fl.anyLineEnd then .lineStartAny else .lineStart

def lineEnd (fl : Flags) : Look :=
  if !fl.multiLine then .textEnd else if fl.anyLineEnd then .lineEndAny else .lineEnd

def exprOfAtom (fl : Flags) : Atom → Expr
  | .char c => .set (foldIf fl (.single c))
  | .set s => .set s
  | .look l => .look l

def isRepetition (c : Char) : Bool := c == '*' || c == '+' || c == '?' || c == '\x7b'

/-- A single place that is neither a group nor a bracketed set. -/
def readPrimitive? (fl : Flags) (c : Char) (rest : List Char) : Option (Expr × List Char) :=
  if c = '\\' then (readEscape? fl rest).map fun (a, rest) => (exprOfAtom fl a, rest)
  else if c = '.' then (dot? fl).map fun s => (.set s, rest)
  else if c = '^' then some (.look (lineStart fl), rest)
  else if c = '$' then some (.look (lineEnd fl), rest)
  else some (exprOfAtom fl (.char c), rest)

/-- The alternatives up to a closing parenthesis or the end. `others` holds the earlier
alternatives and `row` the places of the present one, both in reverse; a place that is none stands
for flags, which cannot be repeated. -/
def readBranches? : Nat → Context → List Expr → List (Option Expr) → List Char →
    Option (Expr × Context × List Char)
  | 0, _, _, _, _ => none
  | fuel + 1, ctx, others, row, cs =>
    let fl := ctx.flags
    let branch := Expr.sequence (row.reverse.filterMap id)
    let whole := others.foldl (fun e a => Expr.alt a e) branch
    match skipBlanks fl.extended cs with
    | [] => some (whole, ctx, [])
    | c :: rest =>
      if c = ')' then some (whole, ctx, c :: rest)
      else if c = '|' then readBranches? fuel ctx (branch :: others) [] rest
      else if c = '(' then
        match readOpening? ctx rest with
        | none => none
        | some (.flags inner rest) => readBranches? fuel inner others (none :: row) rest
        | some (.group inner rest) =>
          match readBranches? fuel inner [] [] rest with
          | some (e, inner, ')' :: rest) =>
            readBranches? fuel { ctx with names := inner.names } others (some e :: row) rest
          | _ => none
      else if c = '[' then
        match readSet? (rest.length + 1) fl rest with
        | some (s, rest) => readBranches? fuel ctx others (some (.set s) :: row) rest
        | none => none
      else if isRepetition c then
        match row with
        | some e :: row =>
          match readRepetition? fl e c rest with
          | some (e, rest) => readBranches? fuel ctx others (some e :: row) rest
          | none => none
        | _ => none
      else
        match readPrimitive? fl c rest with
        | some (e, rest) => readBranches? fuel ctx others (some e :: row) rest
        | none => none

end Reader

/-- Reads a pattern; none if it is malformed. -/
def ofText? (s : String) : Option Expr :=
  match Reader.readBranches? (s.length + 1) ⟨.initial, []⟩ [] [] s.toList with
  | some (e, _, []) => some e
  | _ => none

/-- What runs patterns. It refuses those that would grow too large once they are compiled, which
their text decides. -/
class Engine where
  compiles : String → Bool

/-- Where no engine is given, there is room for every pattern. -/
instance Engine.boundless : Engine := ⟨fun _ => true⟩

end BackOffice.Pattern
