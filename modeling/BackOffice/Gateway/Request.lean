import BackOffice.Query.Params
import BackOffice.Text.Percent

/-!
# Requests

What a client sends: a verb, a path whose parts are percent-encoded, parameters, and a body with its
media type.
-/
namespace BackOffice.Gateway

open BackOffice.Query

inductive Verb where
  | get
  | head
  | post
  | delete
  | options
  | other
deriving DecidableEq

/-- The verb of a name in capital letters. -/
def Verb.ofName (name : String) : Verb :=
  match name with
  | "GET" => get
  | "HEAD" => head
  | "POST" => post
  | "DELETE" => delete
  | "OPTIONS" => options
  | _ => other

structure Request where
  verb : Verb
  /-- The path, as it is encoded. -/
  path : List Char
  params : Params
  contentType : Option String
  body : String

/-- The parts of a text between the places of a character. -/
def splitAt (mark : Char) : List Char → List (List Char)
  | [] => [[]]
  | c :: cs =>
    match splitAt mark cs with
    | part :: parts => if c = mark then [] :: part :: parts else (c :: part) :: parts
    | [] => [[c]]

/-! ## Parameters -/

def decodeFormText (cs : List Char) : String :=
  Text.Percent.decodeLenient (String.ofList (cs.map fun c => if c = '+' then ' ' else c))

/-- The key and the value of a parameter. Without an equals sign the value is empty. -/
def formPair (cs : List Char) : String × String :=
  let (key, rest) := cs.span (· != '=')
  (decodeFormText key, decodeFormText (rest.drop 1))

/-- The parameters of a query, parted by ampersands; empty ones are passed over. -/
def formPairs (cs : List Char) : List (String × String) :=
  ((splitAt '&' cs).filter (!·.isEmpty)).map formPair

namespace Request

/-- A request for a target: a path, and parameters after a question mark. A fragment is dropped. -/
def ofTarget (verb : Verb) (target : String) (contentType : Option String) (body : String) :
    Request :=
  let cs := target.toList.takeWhile (· != '#')
  let (path, rest) := cs.span (· != '?')
  ⟨verb, path, ⟨formPairs (rest.drop 1)⟩, contentType, body⟩

/-- The parts of the path between its slashes. -/
def segments (r : Request) : List String := (splitAt '/' r.path).map String.ofList

end Request

end BackOffice.Gateway
