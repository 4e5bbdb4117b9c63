import BackOffice.Gateway.MediaType
import BackOffice.Gateway.Request
import BackOffice.Json.Reader
import BackOffice.Record.Document

/-!
# Records in the bodies of requests

A body is read as it comes, if it is declared to be JSON and not too long. A value of the wrong kind
is reported as such when it stands before the place where the text breaks off or goes wrong; in
every other case the text itself is at fault.
-/
namespace BackOffice.Gateway

/-- Why a body holds no record. -/
inductive BodyFault where
  /-- The body is not declared to be JSON. -/
  | mediaType
  /-- The body has more bytes than are taken. -/
  | tooLong
  /-- The text is not JSON. -/
  | malformed
  /-- The JSON is no record of the kind. -/
  | mistyped
deriving DecidableEq

def BodyFault.status : BodyFault → Nat
  | mediaType => 415
  | tooLong => 413
  | malformed => 400
  | mistyped => 422

/-- An array cut to the members of a record, and whether anything was cut off. -/
def cutToMembers (s : Schema) (j : Json) : Json × Bool :=
  let n := (Record.memberNames s).length
  match j with
  | .arr items => (.arr (items.take n), n < items.length)
  | j => (j, false)

/-- The record that a text is, if it is nothing else. -/
def readRecord (s : Schema) (text : String) : Except BodyFault Record :=
  match Json.readOne text with
  | .broken none => .error .malformed
  | .broken (some before) =>
    match Record.ofJson? s (cutToMembers s before).1 with
    | some _ => .error .malformed
    | none => .error .mistyped
  | .done j rest =>
    let (members, isLonger) := cutToMembers s j
    match Record.ofJson? s members with
    | none => .error .mistyped
    | some record =>
      if isLonger || !(Json.skipSpace rest).isEmpty then .error .malformed else .ok record

/-- The number of bytes that a body may have. -/
def bodyLimit : Nat := 2097152

/-- The record in the body of a request. The media type is looked at first. -/
def Request.record (r : Request) (s : Schema) : Except BodyFault Record :=
  if !r.contentType.any MediaType.isJson then .error .mediaType
  else if bodyLimit < r.body.utf8ByteSize then .error .tooLong
  else readRecord s r.body

end BackOffice.Gateway
