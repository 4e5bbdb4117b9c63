import BackOffice.Internet.Address
import BackOffice.Text.Percent

/-!
# Absolute web addresses

A scheme and what belongs to it. For the schemes of the web a host must follow, whatever slashes
stand before it; `file` may have one; other schemes have a host only after two slashes and allow it
to be empty. Nothing is demanded of paths, queries and fragments.
-/
namespace BackOffice.Internet.WebAddress

open BackOffice.Text

inductive SchemeKind where
  | web
  | file
  | other
deriving DecidableEq

def kindOf (scheme : List Char) : SchemeKind :=
  match String.ofList (scheme.map Char.toLower) with
  | "http" | "https" | "ws" | "wss" | "ftp" => .web
  | "file" => .file
  | _ => .other

/-- Without control characters and spaces at the ends, nor tabs and line ends anywhere. -/
def cleaned (s : String) : List Char :=
  let atEdge (c : Char) : Bool := c.toNat ≤ 0x20
  let cs := ((s.toList.dropWhile atEdge).reverse.dropWhile atEdge).reverse
  cs.filter fun c => c != '\t' && c != '\n' && c != '\r'

/-- A letter, then letters, digits, `+`, `-` and `.`, up to a colon. -/
def scheme? (cs : List Char) : Option (List Char × List Char) :=
  let (name, rest) := cs.span fun c => c.isAlphanum || c == '+' || c == '-' || c == '.'
  match name, rest with
  | c :: _, ':' :: rest => if c.isAlpha then some (name, rest) else none
  | _, _ => none

def isSlash (kind : SchemeKind) (c : Char) : Bool :=
  c == '/' || (kind != .other && c == '\\')

/-- Characters at which the authority ends. -/
def endsAuthority (kind : SchemeKind) (c : Char) : Bool :=
  isSlash kind c || c == '?' || c == '#'

def forbiddenInHost : List Char := "\x00\t\n\r #/:<>?@[\\]^|".toList

def isForbiddenInDomain (c : Char) : Bool :=
  forbiddenInHost.contains c || c.toNat < 0x20 || c == '%' || c == '\x7f'

def isBracketed (cs : List Char) : Bool :=
  cs.getLast? == some ']' && Address.isGrouped ((cs.drop 1).dropLast)

/-- A host of the web: an address in brackets, or a name in any script that may be an address in
numbers. -/
def isWebHost [DomainName.Conversion] (cs : List Char) : Bool :=
  if cs.head? = some '[' then isBracketed cs
  else
    let decoded := Percent.decodeText? (String.ofList cs)
    match decoded.bind fun s => DomainName.Conversion.toAscii? s.toList with
    | some name =>
      !name.isEmpty && !name.any isForbiddenInDomain &&
        (!Address.endsInNumber name || Address.isLooseDotted name)
    | none => false

/-- A host of another scheme is taken as it stands. -/
def isOpaqueHost (cs : List Char) : Bool :=
  if cs.head? = some '[' then isBracketed cs else !cs.any forbiddenInHost.contains

/-- The host up to the colon before a socket number; colons in brackets do not count. -/
def splitHost (inBrackets : Bool) : List Char → List Char × List Char
  | [] => ([], [])
  | c :: cs =>
    if c = ':' ∧ !inBrackets then ([], c :: cs)
    else
      let (host, rest) := splitHost (if c = '[' then true else if c = ']' then false else inBrackets) cs
      (c :: host, rest)

/-- Nothing, or a colon and digits of at most 65535. -/
def isSocketNumber (cs : List Char) : Bool :=
  match cs with
  | [] => true
  | _ :: ds => ds.isEmpty || (Numeral.ofDigits? ds).any (· < 65536)

/-- User, host and socket number. A user needs a host, and so does a socket number. -/
def isAuthority [DomainName.Conversion] (kind : SchemeKind) (cs : List Char) : Bool :=
  let behind := (cs.reverse.takeWhile (· != '@')).reverse
  let (host, socket) := splitHost false behind
  let hasUser := cs.contains '@'
  if host.isEmpty then kind == .other && !hasUser && socket.isEmpty
  else (if kind = .web then isWebHost host else isOpaqueHost host) && isSocketNumber socket

def isDriveLetter (cs : List Char) : Bool :=
  match cs with
  | [c, d] => c.isAlpha && (d == ':' || d == '|')
  | _ => false

def isFileHost [DomainName.Conversion] (cs : List Char) : Bool :=
  cs.isEmpty || isDriveLetter cs || isWebHost cs

def isAfterScheme [DomainName.Conversion] (kind : SchemeKind) (cs : List Char) : Bool :=
  match kind with
  | .web =>
    isAuthority .web ((cs.dropWhile (isSlash .web)).takeWhile fun c => !endsAuthority .web c)
  | .file =>
    match cs with
    | a :: b :: rest =>
      !(isSlash .file a && isSlash .file b) ||
        isFileHost (rest.takeWhile fun c => !endsAuthority .file c)
    | _ => true
  | .other =>
    match cs with
    | '/' :: '/' :: rest => isAuthority .other (rest.takeWhile fun c => !endsAuthority .other c)
    | _ => true

def isValid [DomainName.Conversion] (s : String) : Bool :=
  match scheme? (cleaned s) with
  | some (scheme, rest) => isAfterScheme (kindOf scheme) rest
  | none => false

end BackOffice.Internet.WebAddress
