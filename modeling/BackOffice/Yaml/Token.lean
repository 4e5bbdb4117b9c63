import BackOffice.Yaml.Scalar

/-!
# Tokens of YAML

The marks, names and scalars of a text, with the starts and ends of block collections made explicit
where the indentation changes. A colon may make a key of what stands before it on the same line; the
tokens for that key are then put in front of it.
-/
namespace BackOffice.Yaml

inductive Token where
  | documentStart
  | documentEnd
  | version
  | tagHandle (handle lead : String)
  | blockSeqStart
  | blockMapStart
  | blockEnd
  | flowSeqStart
  | flowSeqEnd
  | flowMapStart
  | flowMapEnd
  | blockEntry
  | flowEntry
  | key
  | value
  | alias (name : String)
  | anchor (name : String)
  | tag (handle suffix : String)
  | scalar (text : String) (isPlain : Bool)
  | streamEnd
deriving DecidableEq

/-- A place that a colon may turn into a key. -/
structure PossibleKey where
  place : Nat
  required : Bool
  index : Nat
  line : Nat
  column : Nat

structure Scanner where
  cursor : Cursor
  indent : Int
  outer : List Int
  /-- How deep in flow collections. -/
  flow : Nat
  keyAllowed : Bool
  /-- The possible key of each flow level, the innermost first. -/
  keys : List (Option PossibleKey)
  tokens : Array Token

namespace Scanner

def start (cs : List Char) : Scanner := ⟨.ofText cs, -1, [], 0, true, [none], #[]⟩

def emit (s : Scanner) (t : Token) : Scanner := { s with tokens := s.tokens.push t }

def inFlow (s : Scanner) : Bool := 0 < s.flow

/-- Closes the block collections that are indented deeper than a column. -/
def unroll (column : Int) : Nat → Scanner → Scanner
  | 0, s => s
  | fuel + 1, s =>
    if s.inFlow || s.indent ≤ column then s
    else
      unroll column fuel
        { s.emit .blockEnd with indent := s.outer.headD (-1), outer := s.outer.drop 1 }

def unrollTo (s : Scanner) (column : Int) : Scanner := unroll column (s.outer.length + 1) s

/-- Opens a block collection if a column is indented deeper than the present one. The token goes to
the given place. -/
def roll (s : Scanner) (column : Nat) (place : Nat) (t : Token) : Scanner :=
  if s.inFlow || (column : Int) ≤ s.indent then s
  else
    { s with
      indent := column
      outer := s.indent :: s.outer
      tokens := s.tokens.insertIdxIfInBounds place t }

/-- Gives up the possible key of the present level, unless it had to become one. -/
def dropKey? (s : Scanner) : Option Scanner :=
  match s.keys with
  | some k :: rest => if k.required then none else some { s with keys := none :: rest }
  | _ => some s

/-- Notes that what comes next may turn out to be a key. -/
def noteKey? (s : Scanner) : Option Scanner :=
  if !s.keyAllowed then some s
  else do
    let required := !s.inFlow && s.indent == (s.cursor.column : Int)
    let s ← s.dropKey?
    let k : PossibleKey :=
      ⟨s.tokens.size, required, s.cursor.index, s.cursor.line, s.cursor.column⟩
    some { s with keys := some k :: s.keys.drop 1 }

/-- A key stands on one line and has at most 1024 characters. -/
def isStale (s : Scanner) (k : PossibleKey) : Bool :=
  k.line < s.cursor.line || k.index + 1024 < s.cursor.index

def dropStaleKeys? (s : Scanner) : Option Scanner :=
  let stale (k : Option PossibleKey) : Bool := k.any s.isStale
  if s.keys.any fun k => stale k && k.any (·.required) then none
  else some { s with keys := s.keys.map fun k => if stale k then none else k }

/-- Passes blanks, comments and line ends before a token. A tab may not stand where a key may. -/
def skipGap : Nat → Scanner → Scanner
  | 0, s => s
  | fuel + 1, s =>
    let p := if s.cursor.column = 0 ∧ s.cursor.headIs '\uFEFF' then s.cursor.skip 1 else s.cursor
    let p := p.skipSpaces (s.inFlow || !s.keyAllowed)
    let p := if p.headIs '#' then p.skipToBreak else p
    if p.head?.any isBreak then
      skipGap fuel { s with cursor := p.skipLine, keyAllowed := s.keyAllowed || !s.inFlow }
    else { s with cursor := p }

/-- A mark of `n` characters, after which a key may or may not stand. -/
def mark (s : Scanner) (n : Nat) (keyAllowed : Bool) (t : Token) : Scanner :=
  { s.emit t with cursor := s.cursor.skip n, keyAllowed }

/-! ## Kinds of tokens -/

def fetchDocumentMark? (s : Scanner) (t : Token) : Option Scanner := do
  let s ← (s.unrollTo (-1)).dropKey?
  some (s.mark 3 false t)

def fetchFlowStart? (s : Scanner) (t : Token) : Option Scanner := do
  let s ← s.noteKey?
  some { s.mark 1 true t with keys := none :: s.keys, flow := s.flow + 1 }

def fetchFlowEnd? (s : Scanner) (t : Token) : Option Scanner := do
  let s ← s.dropKey?
  let s := if s.inFlow then { s with keys := s.keys.drop 1, flow := s.flow - 1 } else s
  some (s.mark 1 false t)

def fetchFlowEntry? (s : Scanner) : Option Scanner := do
  let s ← s.dropKey?
  some (s.mark 1 true .flowEntry)

def fetchBlockEntry? (s : Scanner) : Option Scanner := do
  if !s.inFlow && !s.keyAllowed then none
  let s := s.roll s.cursor.column s.tokens.size .blockSeqStart
  let s ← s.dropKey?
  some (s.mark 1 true .blockEntry)

def fetchKey? (s : Scanner) : Option Scanner := do
  if !s.inFlow && !s.keyAllowed then none
  let s := s.roll s.cursor.column s.tokens.size .blockMapStart
  let s ← s.dropKey?
  some (s.mark 1 (!s.inFlow) .key)

def fetchValue? (s : Scanner) : Option Scanner :=
  match s.keys with
  | some k :: rest =>
    let s := { s with tokens := s.tokens.insertIdxIfInBounds k.place .key, keys := none :: rest }
    let s := s.roll k.column k.place .blockMapStart
    some (s.mark 1 false .value)
  | _ =>
    if !s.inFlow && !s.keyAllowed then none
    else
      let s := s.roll s.cursor.column s.tokens.size .blockMapStart
      some (s.mark 1 (!s.inFlow) .value)

def isNameChar (c : Char) : Bool := c.isAlphanum || c == '_' || c == '-'

/-- What may follow a name directly. -/
def endsName (cs : List Char) : Bool :=
  startsGap cs || cs.head?.any fun c => "?:,]\x7d%@\x60".toList.contains c

def fetchName? (s : Scanner) (make : String → Token) : Option Scanner := do
  let s ← s.noteKey?
  let name := (s.cursor.rest.drop 1).takeWhile isNameChar
  if name.isEmpty || !endsName (s.cursor.rest.drop (name.length + 1)) then none
  some (s.mark (name.length + 1) false (make (String.ofList name)))

def isTagChar (c : Char) : Bool :=
  isNameChar c || ";/?:@&=+$.!~*'()%,[]".toList.contains c

/-- The handle, the suffix and the length of a tag. -/
def readTag? (cs : List Char) : Option (String × String × Nat) :=
  match cs with
  | '!' :: '<' :: rest =>
    let name := rest.takeWhile isTagChar
    if !name.isEmpty ∧ (rest.drop name.length).head? = some '>' then
      some ("", String.ofList name, name.length + 3)
    else none
  | '!' :: rest =>
    let word := rest.takeWhile isNameChar
    if (rest.drop word.length).head? = some '!' then
      let suffix := (rest.drop (word.length + 1)).takeWhile fun c =>
        isTagChar c && !isFlowMark c && c != '!'
      if suffix.isEmpty then none
      else
        some (String.ofList ('!' :: word ++ ['!']), String.ofList suffix,
          word.length + 2 + suffix.length)
    else
      let suffix := rest.takeWhile fun c => isTagChar c && !isFlowMark c && c != '!'
      some ("!", String.ofList suffix, suffix.length + 1)
  | _ => none

def fetchTag? (s : Scanner) : Option Scanner := do
  let s ← s.noteKey?
  let (handle, suffix, n) ← readTag? s.cursor.rest
  let rest := s.cursor.rest.drop n
  if !startsGap rest && !(s.inFlow && rest.head? == some ',') then none
  some (s.mark n false (.tag handle suffix))

def fetchBlock? (s : Scanner) (isLiteral : Bool) : Option Scanner := do
  let s ← s.dropKey?
  let (text, p) ← readBlock? isLiteral s.indent (s.cursor.skip 1)
  some { s.emit (.scalar text false) with cursor := p, keyAllowed := true }

def fetchQuoted? (s : Scanner) (quote : Char) : Option Scanner := do
  let s ← s.noteKey?
  let p := s.cursor.skip 1
  let (p, f) ← readQuoted quote (p.rest.length + 1) false p .empty
  some { s.emit (.scalar f.result false) with cursor := p, keyAllowed := false }

def fetchPlain? (s : Scanner) : Option Scanner := do
  let s ← s.noteKey?
  let (p, f) ←
    readPlain s.inFlow (s.indent + 1) (s.cursor.rest.length + 1) false s.cursor .empty
  some { s.emit (.scalar f.result true) with cursor := p, keyAllowed := f.isFresh }

/-- A line that begins with a percent sign: the version of the language, or a handle for tags. -/
def fetchDirective? (s : Scanner) : Option Scanner := do
  let s ← (s.unrollTo (-1)).dropKey?
  let line := (s.cursor.rest.drop 1).takeWhile (!isBreak ·)
  let plain := line.takeWhile (· != '#')
  let words := (plain.splitBy fun a b => isSpace a == isSpace b).filter fun w => !w.any isSpace
  let t ←
    match words.map String.ofList with
    | ["YAML", version] => if version = "1.1" ∨ version = "1.2" then some Token.version else none
    | ["TAG", handle, lead] => some (.tagHandle handle lead)
    | _ => none
  some { s.emit t with cursor := s.cursor.skipToBreak, keyAllowed := false }

def indicators : List Char := "-?:,[]\x7b\x7d#&*!|>'\"%@\x60".toList

/-- Whether a plain scalar begins here. A tab that is still there stands where a key may, and none
may begin with it. -/
def startsPlain (s : Scanner) (c : Char) (rest : List Char) : Bool :=
  (!indicators.contains c && !isSpace c) || (c == '-' && !rest.head?.any isSpace) ||
    (!s.inFlow && (c == '?' || c == ':') && !startsGap rest)

/-- The next token. -/
def fetch? (s : Scanner) (c : Char) (rest : List Char) : Option Scanner :=
  if s.cursor.column = 0 ∧ c = '%' then s.fetchDirective?
  else if s.cursor.atDocumentMark then
    s.fetchDocumentMark? (if c = '-' then .documentStart else .documentEnd)
  else if c = '[' then s.fetchFlowStart? .flowSeqStart
  else if c = '\x7b' then s.fetchFlowStart? .flowMapStart
  else if c = ']' then s.fetchFlowEnd? .flowSeqEnd
  else if c = '\x7d' then s.fetchFlowEnd? .flowMapEnd
  else if c = ',' then s.fetchFlowEntry?
  else if c = '-' ∧ startsGap rest then s.fetchBlockEntry?
  else if c = '?' ∧ (s.inFlow ∨ startsGap rest) then s.fetchKey?
  else if c = ':' ∧ (s.inFlow ∨ startsGap rest) then s.fetchValue?
  else if c = '*' then s.fetchName? .alias
  else if c = '&' then s.fetchName? .anchor
  else if c = '!' then s.fetchTag?
  else if c = '|' ∧ !s.inFlow then s.fetchBlock? true
  else if c = '>' ∧ !s.inFlow then s.fetchBlock? false
  else if c = '\'' ∨ c = '"' then s.fetchQuoted? c
  else if s.startsPlain c rest then s.fetchPlain?
  else none

def finish? (s : Scanner) : Option (List Token) := do
  let s ← (s.unrollTo (-1)).dropKey?
  some (s.emit .streamEnd).tokens.toList

/-- All tokens from here on. -/
def run? : Nat → Scanner → Option (List Token)
  | 0, _ => none
  | fuel + 1, s =>
    match (skipGap (s.cursor.rest.length + 1) s).dropStaleKeys? with
    | none => none
    | some s =>
      let s := s.unrollTo s.cursor.column
      match s.cursor.rest with
      | [] => s.finish?
      | c :: rest =>
        match s.fetch? c rest with
        | some s => run? fuel s
        | none => none

end Scanner

/-- The tokens of a text, if it is well formed so far. -/
def Token.ofText? (s : String) : Option (List Token) :=
  let cs := s.toList
  let body := if cs.head? = some '\uFEFF' then cs.drop 1 else cs
  if body.all isPrintable then Scanner.run? (body.length + 2) (.start body) else none

end BackOffice.Yaml
