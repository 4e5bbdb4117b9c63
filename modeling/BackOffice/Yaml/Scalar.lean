import BackOffice.Yaml.Cursor

/-!
# Scalars as they are written

The three ways to write a scalar: plain, quoted, and as a block of lines. Line ends inside plain and
quoted scalars are folded: a single one becomes a space, and of several the first is dropped.
-/
namespace BackOffice.Yaml

/-- Text collected so far, in reverse, and the gap after it that may still belong to it. -/
structure Folding where
  text : List Char
  spaces : List Char
  firstBreak : List Char
  moreBreaks : List Char
  /-- A line end has been passed since the last character. -/
  isFresh : Bool

namespace Folding

def empty : Folding := ⟨[], [], [], [], false⟩

/-- Takes the gap into the text, folding its line ends. -/
def close (f : Folding) : Folding :=
  let gap :=
    if f.isFresh then
      if f.firstBreak = ['\n'] then if f.moreBreaks.isEmpty then [' '] else f.moreBreaks
      else f.firstBreak ++ f.moreBreaks
    else f.spaces
  { empty with text := gap.reverse ++ f.text }

def push (f : Folding) (c : Char) : Folding := { f with text := c :: f.text }

def space (f : Folding) (c : Char) : Folding :=
  if f.isFresh then f else { f with spaces := f.spaces ++ [c] }

def lineEnd (f : Folding) (mark : List Char) : Folding :=
  if f.isFresh then { f with moreBreaks := f.moreBreaks ++ mark }
  else { f with spaces := [], firstBreak := mark, isFresh := true }

def result (f : Folding) : String := String.ofList f.text.reverse

end Folding

/-! ## Plain scalars -/

def isFlowMark (c : Char) : Bool :=
  c == ',' || c == '[' || c == ']' || c == '\x7b' || c == '\x7d'

/-- Whether a plain scalar ends before the given characters, which are no gap. -/
def endsPlain (inFlow : Bool) (cs : List Char) : Bool :=
  match cs with
  | c :: rest => (c == ':' && startsGap rest) || (inFlow && isFlowMark c)
  | [] => true

/-- A colon before a mark of a flow collection, which no plain scalar may hold in one. -/
def isBadColon (inFlow : Bool) (cs : List Char) : Bool :=
  match cs with
  | ':' :: d :: _ => inFlow && (isFlowMark d || d == '?')
  | _ => false

/-- Reads on in a plain scalar. `atWord` tells that a gap has just been passed. Lines that continue
it must be indented to `indent` outside flow collections. -/
def readPlain (inFlow : Bool) (indent : Int) : Nat → Bool → Cursor → Folding →
    Option (Cursor × Folding)
  | 0, _, _, _ => none
  | fuel + 1, atWord, p, f =>
    match p.rest with
    | [] => some (p, f)
    | c :: _ =>
      if isSpace c then
        if f.isFresh && p.column < indent && c == '\t' then none
        else readPlain inFlow indent fuel true (p.skip 1) (f.space c)
      else if isBreak c then
        readPlain inFlow indent fuel true p.skipLine (f.lineEnd (Cursor.breakText p.rest))
      else if atWord && (p.atDocumentMark || c == '#' || (f.isFresh && !inFlow && p.column < indent))
      then some (p, f)
      else if isBadColon inFlow p.rest then none
      else if endsPlain inFlow p.rest then some (p, f)
      else readPlain inFlow indent fuel false (p.skip 1) (f.close.push c)

/-! ## Quoted scalars -/

def plainEscape? (c : Char) : Option (List Char) :=
  match c with
  | '0' => some ['\x00']
  | 'a' => some ['\x07']
  | 'b' => some ['\x08']
  | 't' | '\t' => some ['\t']
  | 'n' => some ['\n']
  | 'v' => some ['\x0b']
  | 'f' => some ['\x0c']
  | 'r' => some ['\r']
  | 'e' => some ['\x1b']
  | ' ' => some [' ']
  | '"' => some ['"']
  | '/' => some ['/']
  | '\\' => some ['\\']
  | 'N' => some ['\u0085']
  | '_' => some ['\u00A0']
  | 'L' => some ['\u2028']
  | 'P' => some ['\u2029']
  | _ => none

/-- The number of digits of an escape by code point. -/
def escapeWidth? (c : Char) : Option Nat :=
  if c = 'x' then some 2 else if c = 'u' then some 4 else if c = 'U' then some 8 else none

/-- The character of an escape after its backslash, and the number of characters it takes. -/
def readEscape? (cs : List Char) : Option (Char × Nat) :=
  match cs with
  | [] => none
  | c :: rest =>
    match plainEscape? c, escapeWidth? c with
    | some [d], _ => some (d, 1)
    | _, some width =>
      match (if width ≤ rest.length then Numeral.ofHex? (rest.take width) else none) with
      | some n => if n.isValidChar then some (Char.ofNat n, width + 1) else none
      | none => none
    | _, none => none

/-- Reads on in a quoted scalar, up to its closing quote. `inGap` tells that a gap is being passed. -/
def readQuoted (quote : Char) : Nat → Bool → Cursor → Folding → Option (Cursor × Folding)
  | 0, _, _, _ => none
  | fuel + 1, inGap, p, f =>
    match p.rest with
    | [] => none
    | c :: rest =>
      if isSpace c then readQuoted quote fuel true (p.skip 1) (f.space c)
      else if isBreak c then
        readQuoted quote fuel true p.skipLine (f.lineEnd (Cursor.breakText p.rest))
      else if inGap && p.atDocumentMark then none
      else
        let f := f.close
        if c = quote then
          if quote = '\'' ∧ rest.head? = some '\'' then
            readQuoted quote fuel false (p.skip 2) (f.push '\'')
          else some (p.skip 1, f)
        else if c = '\\' ∧ quote = '"' then
          match rest with
          | d :: _ =>
            if isBreak d then
              readQuoted quote fuel true (p.skip 1).skipLine { f with isFresh := true }
            else
              match readEscape? rest with
              | some (e, n) => readQuoted quote fuel false (p.skip (n + 1)) (f.push e)
              | none => none
          | [] => none
        else readQuoted quote fuel false (p.skip 1) (f.push c)

/-! ## Block scalars -/

inductive Chomping where
  | strip
  | clip
  | keep
deriving DecidableEq

/-- The signs after `|` or `>`: how line ends at the close are treated, and an indentation. -/
structure BlockHeader where
  chomping : Chomping
  increment : Option Nat

def readChomping (p : Cursor) : Option Chomping × Cursor :=
  match p.head? with
  | some '+' => (some .keep, p.skip 1)
  | some '-' => (some .strip, p.skip 1)
  | _ => (none, p)

/-- A digit from one to nine; zero is no indentation. -/
def readIncrement? (p : Cursor) : Option (Option Nat × Cursor) :=
  match p.head?.bind Numeral.digit? with
  | some 0 => none
  | some n => some (some n, p.skip 1)
  | none => some (none, p)

def readBlockHeader? (p : Cursor) : Option (BlockHeader × Cursor) := do
  let (first, p) := readChomping p
  let (increment, p) ← readIncrement? p
  let (second, p) := if first.isSome then (first, p) else readChomping p
  let p := p.skipSpaces true
  let p := if p.headIs '#' then p.skipToBreak else p
  let header : BlockHeader := ⟨second.getD .clip, increment⟩
  match p.head? with
  | none => some (header, p)
  | some c => if isBreak c then some (header, p.skipLine) else none

/-- Passes indentation and empty lines. Without a known indentation (zero) the deepest one counts,
which is returned in `widest`. -/
def readEmptyLines : Nat → Nat → Nat → List Char → Cursor → Option (Nat × List Char × Cursor)
  | 0, _, _, _, _ => none
  | fuel + 1, indent, widest, breaks, p =>
    let room (p : Cursor) : Bool := indent == 0 || p.column < indent
    let n := (p.rest.takeWhile (· == ' ')).length
    let p := p.skip (if indent = 0 then n else min n (indent - p.column))
    let widest := max widest p.column
    if room p && p.headIs '\t' then none
    else if p.rest.head?.any isBreak then
      readEmptyLines fuel indent widest (breaks ++ Cursor.breakText p.rest) p.skipLine
    else some (widest, breaks, p)

/-- The lines of a block at the given indentation. `lead` is the line end before the present line,
`breaks` the empty lines between, and `wasBlank` tells that the line before began with a space. -/
def readBlockLines (isLiteral : Bool) (indent : Nat) : Nat → List Char → List Char → List Char →
    Bool → Cursor → Option (List Char × List Char × List Char × Cursor)
  | 0, _, _, _, _, _ => none
  | fuel + 1, text, lead, breaks, wasBlank, p =>
    if p.column = indent ∧ !p.rest.isEmpty then
      let isBlank := p.rest.head?.any isSpace
      let joined :=
        if !isLiteral ∧ lead = ['\n'] ∧ !wasBlank ∧ !isBlank then
          if breaks.isEmpty then text ++ [' '] else text ++ breaks
        else text ++ lead ++ breaks
      let line := p.rest.takeWhile (!isBreak ·)
      let q := p.skip line.length
      let lead := Cursor.breakText q.rest
      match readEmptyLines (q.rest.length + 1) indent 0 [] q.skipLine with
      | some (_, breaks, q) =>
        readBlockLines isLiteral indent fuel (joined ++ line) lead breaks isBlank q
      | none => none
    else some (text, lead, breaks, p)

/-- A block scalar after its `|` or `>`, inside a collection of the given indentation. -/
def readBlock? (isLiteral : Bool) (parent : Int) (p : Cursor) : Option (String × Cursor) := do
  let (header, p) ← readBlockHeader? p
  let fixed : Nat :=
    match header.increment with
    | some n => if 0 ≤ parent then parent.toNat + n else n
    | none => 0
  let (widest, breaks, p) ← readEmptyLines (p.rest.length + 1) fixed 0 [] p
  let indent := if fixed = 0 then max (max widest (parent + 1).toNat) 1 else fixed
  let (text, lead, breaks, p) ←
    readBlockLines isLiteral indent (p.rest.length + 1) [] [] breaks false p
  let close :=
    match header.chomping with
    | .strip => []
    | .clip => lead
    | .keep => lead ++ breaks
  some (String.ofList (text ++ close), p)

end BackOffice.Yaml
