import BackOffice.Gateway.Body
import BackOffice.Gateway.Handler
import BackOffice.Settings.Bundled
import BackOffice.Settings.Document

/-!
# The gateway

All backends behind one address. Every record has its own paths under the plural of
its name: the plural itself for saving, `search` and `associations` below it for reading, and an
identifier below it for reading and deleting. Other pages answer fixed documents. A request to find
out what is allowed is granted everywhere, and one for the head of an answer gets it without a body.
-/
namespace BackOffice

open BackOffice.Field (Recognizer)

structure Gateway where
  settings : Settings
  /-- The backends by the singular of their records' name. -/
  resources : OrderedMap String Backend
  /-- Documents by their path. -/
  pages : List (String × Json)

namespace Gateway

structure Response where
  status : Nat
  body : Option Json

namespace Response

def ofStatus (status : Nat) : Response := ⟨status, none⟩

def ok (body : Json) : Response := ⟨200, some body⟩

def ofProblem (p : Problem) : Response := ⟨p.status, some p.toJson⟩

def ofResult {α : Type} (answer : α → Response) : Except Problem α → Response
  | .ok a => answer a
  | .error p => ofProblem p

def withoutBody (r : Response) : Response := { r with body := none }

end Response

/-- The pages from which anyone may read answers. -/
def allowedOrigin : String := "*"

def health : Json := .obj [("status", .str "ok"), ("service", .str "admin-console")]

/-- A gateway without resources. Where no settings are given, the bundled ones hold. -/
def ofSettings (all : List Settings) : Gateway :=
  ⟨if all.isEmpty then .bundled else .ofLayers all, .empty,
    [("/health", health), ("/healthz", health)]⟩

def withPage (g : Gateway) (path : String) (body : Json) : Gateway :=
  { g with pages := g.pages ++ [(path, body)] }

/-- Opens the paths of a backend. One for the same records gives up its place to it. -/
def register (g : Gateway) (b : Backend) : Gateway :=
  { g with resources := g.resources.insert b.repository.schema.singular b }

def names (g : Gateway) : List String := g.resources.keys

def plurals (g : Gateway) : List String := g.resources.values.map (·.repository.schema.plural)

/-- The gateway with all its backends up or down. -/
def withReachable (g : Gateway) (reachable : Bool) : Gateway :=
  { g with resources := g.resources.mapValues fun b => { b with reachable } }

/-- What a path leads to. -/
inductive Place where
  | page (body : Json)
  | records (b : Backend)
  | search (b : Backend)
  | associations (b : Backend)
  | record (b : Backend) (id : String)

def resource? (g : Gateway) (plural : String) : Option Backend :=
  g.resources.values.find? (·.repository.schema.plural == plural)

/-- What a path of a resource leads to, given its last part. -/
def placeIn (b : Backend) (last : String) : Place :=
  if last = "search" then .search b
  else if last = "associations" then .associations b
  else .record b last

def place? (g : Gateway) (r : Request) : Option Place :=
  match g.pages.lookup (String.ofList r.path), r.segments with
  | some body, _ => some (.page body)
  | none, ["", plural] => (g.resource? plural).map .records
  | none, ["", plural, last] =>
    if last.isEmpty then none else (g.resource? plural).map fun b => placeIn b last
  | none, _ => none

/-- The identifier that the last part of a path is. -/
def readId? (part : String) : Option Uuid := (Text.Percent.decodeText? part).bind Uuid.ofText?

/-- Answers with a backend that may have changed. -/
def answer (g : Gateway) (served : Backend × Response) : Gateway × Response :=
  (g.register served.1, served.2)

def saveIn [Recognizer] (g : Gateway) (fresh : Uuid) (b : Backend) (r : Request) :
    Backend × Response :=
  match r.record b.repository.schema with
  | .error fault => (b, .ofStatus fault.status)
  | .ok record =>
    let (b, saved) := save g.settings b fresh record
    (b, .ofResult (fun saved => ⟨if record.isSaved then 200 else 201, some saved.toJson⟩) saved)

def deleteIn (b : Backend) (id : Uuid) : Backend × Response :=
  let (b, deleted) := b.delete id
  (b, .ofResult (fun _ => .ofStatus 204) deleted)

/-- The answer of a place to a verb, if the place knows the verb. -/
def serve [Recognizer] (g : Gateway) (fresh : Uuid) (place : Place) (verb : Verb) (r : Request) :
    Gateway × Response :=
  match place, verb with
  | .page body, .get => (g, .ok body)
  | .records b, .post => g.answer (g.saveIn fresh b r)
  | .search b, .get =>
    (g, .ofResult (fun page => .ok (page.toJson Record.toJson)) (search g.settings b r.params))
  | .associations b, .get =>
    (g, .ok (.arr ((g.settings.linksOf b.repository.schema.singular).map LinkDefinition.toJson)))
  | .record b part, .get =>
    match readId? part with
    | some id => (g, .ofResult (fun record => .ok record.toJson) (fetch b id))
    | none => (g, .ofStatus 400)
  | .record b part, .delete =>
    match readId? part with
    | some id => g.answer (deleteIn b id)
    | none => (g, .ofStatus 400)
  | _, _ => (g, .ofStatus 405)

/-- Answers a request. A record that is created gets the fresh identifier. -/
def handle [Recognizer] (g : Gateway) (fresh : Uuid) (r : Request) : Gateway × Response :=
  match r.verb, g.place? r with
  | .options, _ => (g, .ofStatus 200)
  | _, none => (g, .ofStatus 404)
  | .head, some place =>
    let (g, response) := g.serve fresh place .get r
    (g, response.withoutBody)
  | verb, some place => g.serve fresh place verb r

end Gateway

end BackOffice
