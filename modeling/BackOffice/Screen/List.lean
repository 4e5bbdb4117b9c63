import BackOffice.Keyed
import BackOffice.Problem
import BackOffice.Query.Page
import BackOffice.Record.Basic

/-!
# List screens

A screen that shows one page of records. Searches and deletions are calls that may be under way at
the same time and may be answered in any order; each call has a number, and each search a sequence
number of its own. Only the answer to the latest search changes what is shown. A call may also crash,
which does not tell whose call it was. Once closed, a screen takes no answer any more.
-/
namespace BackOffice.Screen

open BackOffice.Query

/-- A call to the backend that has not been answered. -/
inductive Call (κ : Type) where
  | search (sequence : Nat) (criteria : Criteria)
  | delete (key : κ) (id : Uuid)

/-- How a call ended. -/
inductive Reply where
  | searched (result : Except Problem (Page Record))
  | deleted (result : Except Problem Unit)
  | crashed

/-- What an answer did to the screen. -/
inductive Event (κ : Type) where
  | applied (sequence count : Nat)
  | stale (sequence : Nat)
  | searchFailed (sequence : Nat) (cause : Problem)
  | deleted (key : κ)
  | deleteFailed (key : κ) (cause : Problem)
  | aborted

structure ListScreen {κ : Type} (keyOf : Record → κ) where
  resource : String
  defaultSize : UInt64
  criteria : Criteria
  rows : Keyed keyOf
  info : Option Meta
  message : Option String
  /-- The number of the latest search. -/
  sequence : Nat
  searching : List Nat
  deleting : List κ
  /-- How many calls were made. -/
  issued : Nat
  inFlight : List (Nat × Call κ)
  isClosed : Bool

namespace ListScreen

variable {κ : Type} {keyOf : Record → κ}

def openWith (resource : String) (size : UInt64) : ListScreen keyOf :=
  let size := Criteria.atLeastOne size
  ⟨resource, size, .ofSize size, .empty, none, none, 0, [], [], 0, [], false⟩

def isBusy (s : ListScreen keyOf) : Bool := !s.searching.isEmpty || !s.deleting.isEmpty

/-- The screen with one more call under way. -/
def issue (s : ListScreen keyOf) (call : Call κ) : ListScreen keyOf :=
  { s with issued := s.issued + 1, inFlight := s.inFlight ++ [(s.issued + 1, call)] }

/-- Searches by new criteria and tells the sequence number of the search. -/
def search (s : ListScreen keyOf) (criteria : Criteria) :
    Except Problem (ListScreen keyOf × Nat) :=
  if s.isClosed then .error .closed
  else
    let sequence := s.sequence + 1
    let next := { s with criteria, sequence, searching := s.searching ++ [sequence] }
    .ok (next.issue (.search sequence criteria), sequence)

def refresh (s : ListScreen keyOf) : Except Problem (ListScreen keyOf × Nat) :=
  s.search s.criteria

/-- Searches for everything again, in pages of the size the screen began with. -/
def reset (s : ListScreen keyOf) : Except Problem (ListScreen keyOf × Nat) :=
  s.search (.ofSize s.defaultSize)

/-- A click on a column header: sorts and goes back to the first page. -/
def sortBy (s : ListScreen keyOf) (field : String) : Except Problem (ListScreen keyOf × Nat) :=
  s.search { s.criteria.sortBy field with page := 0 }

def turnTo (s : ListScreen keyOf) (page : UInt64) : Except Problem (ListScreen keyOf × Nat) :=
  s.search { s.criteria with page }

variable [DecidableEq κ]

def isDeleting (s : ListScreen keyOf) (k : κ) : Bool := s.deleting.contains k

/-- Deletes a record, unless it was never saved or its deletion is under way already. -/
def delete (s : ListScreen keyOf) (record : Record) : Except Problem (ListScreen keyOf) :=
  if s.isClosed then .error .closed
  else
    match record.id with
    | none => .error (.unsaved s.resource "delete")
    | some id =>
      let k := keyOf record
      if s.isDeleting k then .error (.busy ("delete " ++ s.resource))
      else .ok ({ s with deleting := s.deleting ++ [k] }.issue (.delete k id))

/-- The message left by a call that crashed. -/
def abortedMessage : String := "<aborted>"

def applySearch (s : ListScreen keyOf) (sequence : Nat) (result : Except Problem (Page Record)) :
    ListScreen keyOf × Event κ :=
  let s := { s with searching := s.searching.filter (· ≠ sequence) }
  if sequence ≠ s.sequence then (s, .stale sequence)
  else
    match result with
    | .ok page =>
      ({ s with rows := s.rows.load page.items, info := some page.info, message := none },
        .applied sequence page.items.length)
    | .error p => ({ s with message := some p.message }, .searchFailed sequence p)

def applyDelete (s : ListScreen keyOf) (k : κ) (result : Except Problem Unit) :
    ListScreen keyOf × Event κ :=
  let s := { s with deleting := s.deleting.filter (· ≠ k) }
  match result with
  | .ok _ => ({ s with rows := s.rows.remove k, message := none }, .deleted k)
  | .error p => ({ s with message := some p.message }, .deleteFailed k p)

/-- A crash is reported; what is under way is only known to be over once nothing is left. -/
def applyCrash (s : ListScreen keyOf) : ListScreen keyOf × Event κ :=
  let s := { s with message := some abortedMessage }
  (if s.inFlight.isEmpty then { s with searching := [], deleting := [] } else s, .aborted)

/-- Takes the answer to a call that is no longer under way. A reply of another kind than its call
counts as a crash. -/
def applyReply (s : ListScreen keyOf) (call : Call κ) (reply : Reply) :
    ListScreen keyOf × Event κ :=
  match call, reply with
  | .search sequence _, .searched result => s.applySearch sequence result
  | .delete k _, .deleted result => s.applyDelete k result
  | _, _ => s.applyCrash

def callNumbered? (s : ListScreen keyOf) (number : Nat) : Option (Call κ) :=
  s.inFlight.lookup number

/-- Takes the answer to the call of a number; nothing happens if there is no such call under way. -/
def deliver (s : ListScreen keyOf) (number : Nat) (reply : Reply) :
    ListScreen keyOf × Option (Event κ) :=
  match s.callNumbered? number with
  | none => (s, none)
  | some call =>
    let rest := s.inFlight.filter (·.1 ≠ number)
    let (next, event) := { s with inFlight := rest }.applyReply call reply
    (next, some event)

/-- Gives up all calls; no answer is taken any more. -/
def close (s : ListScreen keyOf) : ListScreen keyOf :=
  if s.isClosed then s
  else { s with isClosed := true, searching := [], deleting := [], inFlight := [] }

end ListScreen

end BackOffice.Screen
