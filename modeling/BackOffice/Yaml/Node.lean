import BackOffice.Yaml.Token

/-!
# YAML documents

The tree that a row of tokens describes. An alias stands for the node that its anchor marks, which
must come before it; an alias inside its own anchor gives a node that nothing can be read from. A
text holds at most one document, and an empty one is void.
-/
namespace BackOffice.Yaml

inductive Node where
  | scalar (text : String) (isPlain : Bool) (tag : Option String)
  | seq (items : List Node) (tag : Option String)
  | map (entries : List (Node × Node)) (tag : Option String)
  | void
  | cycle

namespace Node

instance : Inhabited Node := ⟨void⟩

/-- A scalar that was left out. -/
def missing : Node := scalar "" true none

/-- What remains of the tokens, the nodes that anchors mark, and the handles of tags. -/
structure Parser where
  tokens : List Token
  anchors : List (String × Node)
  handles : List (String × String)

namespace Parser

def peek (p : Parser) : Token := p.tokens.headD .streamEnd

def next (p : Parser) : Parser := { p with tokens := p.tokens.drop 1 }

/-- Whether the next token is one of the given. -/
def isAt (p : Parser) (ts : List Token) : Bool := ts.contains p.peek

def standardHandles : List (String × String) :=
  [("!!", "tag:yaml.org,2002:"), ("!", "!"), ("", "")]

def resolveTag? (p : Parser) (handle suffix : String) : Option String :=
  ((p.handles ++ standardHandles).lookup handle).map (· ++ suffix)

/-- Marks a node that is only beginning. -/
def begin (p : Parser) (anchor : Option String) : Parser :=
  match anchor with
  | some name => { p with anchors := (name, cycle) :: p.anchors }
  | none => p

/-- Marks a node that is complete, unless its anchor has been given to another one meanwhile. -/
def complete (p : Parser) (anchor : Option String) (n : Node) : Parser :=
  match anchor with
  | some name =>
    match p.anchors.lookup name with
    | some cycle => { p with anchors := (name, n) :: p.anchors }
    | _ => p
  | none => p

end Parser

/-- The anchor and the tag in front of a node, in either order. -/
structure Properties where
  anchor : Option String
  tag : Option String

def readAnchor (p : Parser) : Option String × Parser :=
  match p.peek with
  | .anchor name => (some name, p.next)
  | _ => (none, p)

def readTag? (p : Parser) : Option (Option String × Parser) :=
  match p.peek with
  | .tag handle suffix => (p.resolveTag? handle suffix).map fun t => (some t, p.next)
  | _ => some (none, p)

def readProperties? (p : Parser) : Option (Properties × Parser) := do
  let (first, p) := readAnchor p
  let (tag, p) ← readTag? p
  let (second, p) := if first.isSome then (first, p) else readAnchor p
  some (⟨second, tag⟩, p)

mutual

/-- A node. In a block it may be a block collection, and after a key its entries may stand without
indentation. -/
def read? : Nat → Bool → Bool → Parser → Option (Node × Parser)
  | 0, _, _, _ => none
  | fuel + 1, inBlock, bare, p =>
    match p.peek with
    | .alias name => (p.anchors.lookup name).map fun n => (n, p.next)
    | _ =>
      match readProperties? p with
      | none => none
      | some (props, p) =>
        let q := p.begin props.anchor
        let close (n : Node) (r : Parser) := some (n, r.complete props.anchor n)
        let leftOut :=
          if props.anchor.isSome || props.tag.isSome then close (scalar "" true props.tag) q
          else none
        match p.peek with
        | .scalar text isPlain => close (scalar text isPlain props.tag) q.next
        | .flowSeqStart =>
          match readFlowItems? fuel true [] q.next with
          | some (items, r) => close (seq items props.tag) r
          | none => none
        | .flowMapStart =>
          match readFlowEntries? fuel true [] q.next with
          | some (entries, r) => close (map entries props.tag) r
          | none => none
        | .blockSeqStart =>
          if !inBlock then leftOut
          else
            match readItems? fuel [] q.next with
            | some (items, r) => close (seq items props.tag) r
            | none => none
        | .blockMapStart =>
          if !inBlock then leftOut
          else
            match readEntries? fuel [] q.next with
            | some (entries, r) => close (map entries props.tag) r
            | none => none
        | .blockEntry =>
          if !bare then leftOut
          else
            match readBareItems? fuel [] q with
            | some (items, r) => close (seq items props.tag) r
            | none => none
        | _ => leftOut

/-- The items of a block sequence, in reverse, up to its end. -/
def readItems? : Nat → List Node → Parser → Option (List Node × Parser)
  | 0, _, _ => none
  | fuel + 1, acc, p =>
    match p.peek with
    | .blockEntry =>
      let p := p.next
      if p.isAt [.blockEntry, .blockEnd] then readItems? fuel (missing :: acc) p
      else
        match read? fuel true false p with
        | some (n, p) => readItems? fuel (n :: acc) p
        | none => none
    | .blockEnd => some (acc.reverse, p.next)
    | _ => none

/-- The items of a block sequence without indentation. -/
def readBareItems? : Nat → List Node → Parser → Option (List Node × Parser)
  | 0, _, _ => none
  | fuel + 1, acc, p =>
    match p.peek with
    | .blockEntry =>
      let p := p.next
      if p.isAt [.blockEntry, .key, .value, .blockEnd] then readBareItems? fuel (missing :: acc) p
      else
        match read? fuel true false p with
        | some (n, p) => readBareItems? fuel (n :: acc) p
        | none => none
    | _ => some (acc.reverse, p)

/-- The entries of a block mapping. -/
def readEntries? : Nat → List (Node × Node) → Parser → Option (List (Node × Node) × Parser)
  | 0, _, _ => none
  | fuel + 1, acc, p =>
    match p.peek with
    | .key =>
      match readOrMissing? fuel true [.key, .value, .blockEnd] p.next with
      | none => none
      | some (k, p) =>
        match p.peek with
        | .value =>
          match readOrMissing? fuel true [.key, .value, .blockEnd] p.next with
          | some (v, p) => readEntries? fuel ((k, v) :: acc) p
          | none => none
        | _ => readEntries? fuel ((k, missing) :: acc) p
    | .blockEnd => some (acc.reverse, p.next)
    | _ => none

/-- A node, unless one of the given tokens shows that it was left out. -/
def readOrMissing? : Nat → Bool → List Token → Parser → Option (Node × Parser)
  | 0, _, _, _ => none
  | fuel + 1, inBlock, ends, p =>
    if p.isAt ends then some (missing, p) else read? fuel inBlock inBlock p

/-- The items of a flow sequence. A pair among them is a mapping of its own. -/
def readFlowItems? : Nat → Bool → List Node → Parser → Option (List Node × Parser)
  | 0, _, _, _ => none
  | fuel + 1, isFirst, acc, p =>
    if p.peek = .flowSeqEnd then some (acc.reverse, p.next)
    else if !isFirst ∧ p.peek ≠ .flowEntry then none
    else
      let p := if isFirst then p else p.next
      match p.peek with
      | .flowSeqEnd => some (acc.reverse, p.next)
      | .key =>
        match readOrMissing? fuel false [.value, .flowEntry, .flowSeqEnd] p.next with
        | none => none
        | some (k, p) =>
          match p.peek with
          | .value =>
            match readOrMissing? fuel false [.flowEntry, .flowSeqEnd] p.next with
            | some (v, p) => readFlowItems? fuel false (map [(k, v)] none :: acc) p
            | none => none
          | _ => readFlowItems? fuel false (map [(k, missing)] none :: acc) p
      | _ =>
        match read? fuel false false p with
        | some (n, p) => readFlowItems? fuel false (n :: acc) p
        | none => none

/-- The entries of a flow mapping. -/
def readFlowEntries? : Nat → Bool → List (Node × Node) → Parser →
    Option (List (Node × Node) × Parser)
  | 0, _, _, _ => none
  | fuel + 1, isFirst, acc, p =>
    if p.peek = .flowMapEnd then some (acc.reverse, p.next)
    else if !isFirst ∧ p.peek ≠ .flowEntry then none
    else
      let p := if isFirst then p else p.next
      match p.peek with
      | .flowMapEnd => some (acc.reverse, p.next)
      | .key =>
        match readOrMissing? fuel false [.value, .flowEntry, .flowMapEnd] p.next with
        | none => none
        | some (k, p) =>
          match p.peek with
          | .value =>
            match readOrMissing? fuel false [.flowEntry, .flowMapEnd] p.next with
            | some (v, p) => readFlowEntries? fuel false ((k, v) :: acc) p
            | none => none
          | _ => readFlowEntries? fuel false ((k, missing) :: acc) p
      | _ =>
        match read? fuel false false p with
        | some (n, p) => readFlowEntries? fuel false ((n, missing) :: acc) p
        | none => none

end

/-- Handles and version in front of a document. -/
def readDirectives (p : Parser) : Nat → Parser
  | 0 => p
  | fuel + 1 =>
    match p.peek with
    | .version => readDirectives p.next fuel
    | .tagHandle handle lead =>
      readDirectives { p.next with handles := (handle, lead) :: p.handles } fuel
    | _ => p

/-- The only document of a text. -/
def document? (p : Parser) : Option Node := do
  let fuel := 4 * p.tokens.length + 4
  if p.peek = .streamEnd then some void
  else
    let q := readDirectives p p.tokens.length
    let hasDirectives := q.tokens.length < p.tokens.length
    let (n, q) ←
      if q.peek = .documentStart then
        readOrMissing? fuel true [.documentStart, .documentEnd, .streamEnd, .version] q.next
      else if hasDirectives then none
      else read? fuel true false q
    let after := q.tokens.dropWhile (· == .documentEnd)
    if after.head? = some .streamEnd then some n else none

/-- The document of a text; none if the text is malformed or holds several. -/
def ofText? (s : String) : Option Node :=
  (Token.ofText? s).bind fun tokens => document? ⟨tokens, [], []⟩

end Node

end BackOffice.Yaml
