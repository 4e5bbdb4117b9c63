import BackOffice.Proofs.Query.Paging
import BackOffice.Proofs.Screen.Edit.Session
import BackOffice.Proofs.Screen.List.Shown

/-!
# Rows that return after their deletion

A list screen together with the backend that it calls. The backend serves each call once, at any
time while it is in flight, and the answer is delivered at any time after that, so answers overtake
each other. Others may delete records meanwhile, but nobody saves any.

A row that was deleted stays away unless, by then, the answer to the latest search was on its way
and has the row. Such an answer is still taken, and the row is back.
-/
namespace BackOffice.Screen

open BackOffice.Query
open BackOffice.Pattern (Engine)

structure ListSession {κ : Type} (keyOf : Record → κ) where
  screen : ListScreen keyOf
  backend : Backend
  /-- The answers that are on their way, by the numbers of their calls. -/
  replies : OrderedMap Nat Reply

namespace ListSession

open ListScreen (Step)

variable {κ : Type} {keyOf : Record → κ}

def openOn (resource : String) (size : UInt64) (backend : Backend) : ListSession keyOf :=
  ⟨.openWith resource size, backend, .empty⟩

/-- What the backend does for a call, and its reply. -/
def answer [Engine] (b : Backend) : Call κ → Backend × Reply
  | .search _ criteria => (b, .searched (b.search criteria))
  | .delete _ id => ((b.delete id).1, .deleted (b.delete id).2)

/-- The backend serves a call that is in flight and was not served before. -/
def serve [Engine] (t : ListSession keyOf) (number : Nat) : ListSession keyOf :=
  match t.screen.callNumbered? number with
  | none => t
  | some call =>
    if t.replies.contains number then t
    else
      { t with
        backend := (answer t.backend call).1
        replies := t.replies.insert number (answer t.backend call).2 }

inductive Act (κ : Type) where
  | use (act : ListScreen.Act κ) (own : ∀ number reply, act ≠ .deliver number reply)
  | connection (reachable : Bool)
  /-- Somebody else deletes a record. -/
  | withdraw (id : Uuid)
  | serve (number : Nat)
  | deliver (number : Nat)
  | crash (number : Nat)

variable [DecidableEq κ]

def withdraw (t : ListSession keyOf) (id : Uuid) : ListSession keyOf :=
  let repository := t.backend.repository
  { t with backend.repository := { repository with records := repository.records.erase id } }

/-- The call of a number completes with a reply, and no other answer to it is to come. -/
def complete (t : ListSession keyOf) (number : Nat) (reply : Reply) :
    ListSession keyOf × Option (Event κ) :=
  let (screen, event) := t.screen.deliver number reply
  ({ t with screen, replies := t.replies.erase number }, event)

def step [Engine] (t : ListSession keyOf) : Act κ → ListSession keyOf × Option (Event κ)
  | .use act _ => ({ t with screen := (t.screen.step act).1 }, (t.screen.step act).2)
  | .connection reachable => ({ t with backend := { t.backend with reachable } }, none)
  | .withdraw id => (t.withdraw id, none)
  | .serve number => (t.serve number, none)
  | .deliver number =>
    match t.replies.get? number with
    | none => (t, none)
    | some reply => t.complete number reply
  | .crash number => t.complete number .crashed

def run [Engine] (t : ListSession keyOf) (acts : List (Act κ)) : ListSession keyOf :=
  acts.foldl (fun t act => (t.step act).1) t

/-- The answer to the latest search is on its way and has a row of the key. -/
def Expects (t : ListSession keyOf) (k : κ) : Prop :=
  ∃ number criteria page, (number, .search t.screen.sequence criteria) ∈ t.screen.inFlight ∧
    t.replies.get? number = some (.searched (.ok page)) ∧ k ∈ page.items.map keyOf

variable {t : ListSession keyOf} {k : κ}

/-! ## What a step can do -/

/-- A row was there before, or comes with the answer to the latest search. -/
theorem key_of_step {s s' : ListScreen keyOf} {act : ListScreen.Act κ} {event : Option (Event κ)}
    (made : Step s act s' event) (h : k ∈ s'.rows.keys) :
    k ∈ s.rows.keys ∨ ∃ number criteria page, act = .deliver number (.searched (.ok page)) ∧
      (number, .search s.sequence criteria) ∈ s.inFlight ∧ k ∈ page.items.map keyOf := by
  cases made with
  | picked p =>
    left
    rwa [Keyed.keys, p.apply_items] at h
  | @applied number criteria page found =>
    exact .inr ⟨number, criteria, page, rfl, ListScreen.mem_of_callNumbered? found,
      Keyed.mem_keys_load.mp h⟩
  | deleted => exact .inl (OrderedMap.mem_keys_erase.mp h).1
  | idle | asked | deletion | searchFailed | stale | deleteFailed | crashed | crashedLast
  | closed => exact .inl h

/-- What is on its way after a step of the screen was on its way before. -/
theorem get?_of_fewer {before after : OrderedMap Nat Reply}
    (fewer : after = before ∨ ∃ number, after = before.erase number) {number : Nat} {reply : Reply}
    (h : after.get? number = some reply) : before.get? number = some reply := by
  obtain rfl | ⟨done, rfl⟩ := fewer
  · exact h
  · rw [OrderedMap.get?_erase] at h
    split at h
    · cases h
    · exact h

/-- Everything a step can do: something happens to the screen, where answers that are delivered were
on their way; records are withdrawn; or the backend serves a call. -/
inductive Move [Engine] (t : ListSession keyOf) : ListSession keyOf → Option (Event κ) → Prop
  | screen {act : ListScreen.Act κ} {screen : ListScreen keyOf} {event : Option (Event κ)}
      {replies : OrderedMap Nat Reply} (made : Step t.screen act screen event)
      (fewer : replies = t.replies ∨ ∃ number, replies = t.replies.erase number)
      (sent : ∀ number reply, act = .deliver number reply →
        reply = .crashed ∨ t.replies.get? number = some reply) :
      Move t { t with screen, replies } event
  | backend {backend : Backend} (fewer : backend.repository.records.entries.Sublist
      t.backend.repository.records.entries) : Move t { t with backend } none
  | served {number : Nat} {call : Call κ} (found : t.screen.callNumbered? number = some call)
      (unserved : number ∉ t.replies.keys) :
      Move t { t with
        backend := (answer t.backend call).1
        replies := t.replies.insert number (answer t.backend call).2 } none

section Steps

variable [Engine]

theorem move_complete (t : ListSession keyOf) (number : Nat) {reply : Reply}
    (sent : reply = .crashed ∨ t.replies.get? number = some reply) :
    Move t (t.complete number reply).1 (t.complete number reply).2 := by
  refine .screen (t.screen.step_deliver number reply) (.inr ⟨number, rfl⟩) ?_
  intro _ _ same
  cases same
  exact sent

theorem move_step (t : ListSession keyOf) (act : Act κ) :
    Move t (t.step act).1 (t.step act).2 := by
  cases act with
  | use act own =>
    exact .screen (t.screen.step_cases act) (.inl rfl) fun _ _ same => absurd same (own _ _)
  | connection reachable => exact .backend (List.Sublist.refl _)
  | withdraw id => exact .backend List.filter_sublist
  | serve number =>
    rw [step, serve]
    split
    · exact .backend (List.Sublist.refl _)
    · next call found =>
      split
      · exact .backend (List.Sublist.refl _)
      · next unserved => exact .served found (unserved ∘ OrderedMap.contains_iff.mpr)
  | deliver number =>
    rw [step]
    split
    · exact .backend (List.Sublist.refl _)
    · next reply sent => exact t.move_complete number (.inr sent)
  | crash number => exact t.move_complete number (.inl rfl)

/-! ## Calls and their answers -/

omit [DecidableEq κ] in
theorem answer_records (b : Backend) (call : Call κ) :
    (answer b call).1.repository.records.entries.Sublist b.repository.records.entries := by
  cases call with
  | search => exact List.Sublist.refl _
  | delete k id =>
    rw [answer]
    obtain ⟨p, failed⟩ | done := Session.backend_delete_cases b id
    · rw [failed]
    · rw [done]
      exact List.filter_sublist

omit [DecidableEq κ] in
theorem answer_deleted {b : Backend} {k : κ} {id : Uuid}
    (done : (answer b (.delete k id)).2 = .deleted (.ok ())) :
    id ∉ (answer b (.delete k id)).1.repository.records.keys := by
  rw [answer] at done ⊢
  obtain ⟨p, failed⟩ | erased := Session.backend_delete_cases b id
  · rw [failed] at done
    cases done
  · rw [erased]
    exact fun h => (OrderedMap.mem_keys_erase.mp h).2 rfl

omit [DecidableEq κ] in
theorem answer_searched {b : Backend} {call : Call κ} {page : Page Record}
    (done : (answer b call).2 = .searched (.ok page)) : page.items ⊆ b.repository.toList := by
  cases call with
  | delete => cases done
  | search sequence criteria =>
    rw [answer, Backend.search, Backend.ensure] at done
    split at done
    · cases done
      intro r hr
      have matched : r ∈ b.repository.matching criteria :=
        List.mem_of_mem_drop (List.mem_of_mem_take hr)
      exact (List.mem_filter.mp (List.mem_mergeSort.mp matched)).1
    · cases done

/-! ## Runs -/

/-- What holds as long as nobody saves records, if keys tell records apart. -/
structure Sound (t : ListSession keyOf) : Prop where
  screen : t.screen.WellFormed
  latest : ∀ number q criteria, (number, .search q criteria) ∈ t.screen.inFlight →
    q ≤ t.screen.sequence
  named : ∀ number k id, (number, .delete k id) ∈ t.screen.inFlight →
    ∀ r : Record, keyOf r = k → r.key = id
  stored : t.backend.repository.records.KeyedBy Record.key
  sent : ∀ number reply, t.replies.get? number = some reply → number ≤ t.screen.issued
  single : t.replies.keys.Nodup
  deleted : ∀ number k id, (number, .delete k id) ∈ t.screen.inFlight →
    t.replies.get? number = some (.deleted (.ok ())) → id ∉ t.backend.repository.records.keys

/-- The key has left the screen and the backend, and no answer brings it back. -/
structure Gone (t : ListSession keyOf) (k : κ) : Prop where
  row : k ∉ t.screen.rows.keys
  stored : ∀ r ∈ t.backend.repository.toList, keyOf r ≠ k
  unexpected : ¬ t.Expects k

theorem Sound.move (tells : ∀ a b : Record, keyOf a = keyOf b → a.key = b.key) (sound : t.Sound)
    {t' : ListSession keyOf} {event : Option (Event κ)} (move : Move t t' event) : t'.Sound := by
  cases move with
  | @screen act screen event replies made fewer sent =>
    have kept {number : Nat} {reply : Reply} (h : replies.get? number = some reply) :=
      get?_of_fewer fewer h
    refine ⟨sound.screen.step made, ?latest, ?named, sound.stored, ?sent, ?single, ?deleted⟩
    case latest =>
      intro number q criteria inFlight
      rcases made.inFlight_cases inFlight with old | ⟨_, ⟨_, same⟩ | ⟨_, _, _, same⟩⟩
      · exact Nat.le_trans (sound.latest number q criteria old) made.sequence_le
      · cases same
        exact Nat.le_refl _
      · cases same
    case named =>
      intro number k id inFlight r same
      rcases made.inFlight_cases inFlight with old | ⟨_, ⟨_, call⟩ | ⟨record, _, saved, call⟩⟩
      · exact sound.named number k id old r same
      · cases call
      · cases call
        rw [tells r record same, Record.key_of_id saved]
    case sent =>
      intro number reply h
      exact Nat.le_trans (sound.sent number reply (kept h)) made.issued_le
    case single =>
      obtain rfl | ⟨done, rfl⟩ := fewer
      · exact sound.single
      · exact OrderedMap.nodup_keys_erase sound.single
    case deleted =>
      intro number k id inFlight h
      rcases made.inFlight_cases inFlight with old | ⟨new, _⟩
      · exact sound.deleted number k id old (kept h)
      · have := sound.sent number _ (kept h)
        omega
  | @backend backend fewer =>
    refine ⟨sound.screen, sound.latest, sound.named, sound.stored.of_sublist fewer,
      sound.sent, sound.single, ?_⟩
    intro number k id inFlight h present
    exact sound.deleted number k id inFlight h ((fewer.map _).subset present)
  | @served number call found unserved =>
    have fewer := answer_records t.backend call
    refine ⟨sound.screen, sound.latest, sound.named, sound.stored.of_sublist fewer, ?sent,
      OrderedMap.nodup_keys_insert sound.single, ?deleted⟩
    case sent =>
      intro other reply h
      rw [OrderedMap.get?_insert sound.single] at h
      split at h
      · next same =>
        have inFlight := ListScreen.mem_of_callNumbered? found
        exact sound.screen.issued other (List.mem_map.mpr ⟨_, inFlight, same.symm⟩)
      · exact sound.sent other reply h
    case deleted =>
      intro other k id inFlight h
      rw [OrderedMap.get?_insert sound.single] at h
      split at h
      · next same =>
        subst same
        have known := sound.screen.callNumbered?_eq_some_iff.mpr inFlight
        cases Option.some.inj (found.symm.trans known)
        exact answer_deleted (Option.some.inj h)
      · exact fun present => sound.deleted other k id inFlight h ((fewer.map _).subset present)

/-- The only way back would be an answer that was expected. -/
theorem Gone.move (sound : t.Sound) (gone : t.Gone k) {t' : ListSession keyOf}
    {event : Option (Event κ)} (move : Move t t' event) : t'.Gone k := by
  cases move with
  | @screen act screen event replies made fewer sent =>
    refine ⟨?row, gone.stored, ?unexpected⟩
    case row =>
      intro present
      rcases key_of_step made present with old | ⟨number, criteria, page, rfl, inFlight, shown⟩
      · exact gone.row old
      · rcases sent number _ rfl with crash | answered
        · cases crash
        · exact gone.unexpected ⟨number, criteria, page, inFlight, answered, shown⟩
    case unexpected =>
      rintro ⟨number, criteria, page, inFlight, answered, shown⟩
      have before := get?_of_fewer fewer answered
      rcases made.inFlight_cases inFlight with old | ⟨new, _⟩
      · -- numbers only grow, so the latest search is the one that was the latest before
        have same : screen.sequence = t.screen.sequence :=
          Nat.le_antisymm (sound.latest number _ criteria old) made.sequence_le
        exact gone.unexpected ⟨number, criteria, page, same ▸ old, before, shown⟩
      · have := sound.sent number _ before
        omega
  | @backend backend fewer =>
    exact ⟨gone.row, fun r hr => gone.stored r ((fewer.map _).subset hr), gone.unexpected⟩
  | @served number call found unserved =>
    have fewer := answer_records t.backend call
    refine ⟨gone.row, fun r hr => gone.stored r ((fewer.map _).subset hr), ?_⟩
    rintro ⟨other, criteria, page, inFlight, answered, shown⟩
    rw [OrderedMap.get?_insert sound.single] at answered
    split at answered
    · obtain ⟨r, hr, same⟩ := List.mem_map.mp shown
      exact gone.stored r (answer_searched (Option.some.inj answered) hr) same
    · exact gone.unexpected ⟨other, criteria, page, inFlight, answered, shown⟩

theorem Sound.run (tells : ∀ a b : Record, keyOf a = keyOf b → a.key = b.key) (sound : t.Sound)
    (acts : List (Act κ)) : (t.run acts).Sound := by
  induction acts generalizing t with
  | nil => exact sound
  | cons act rest ih => exact ih (sound.move tells (t.move_step act))

theorem Gone.run (tells : ∀ a b : Record, keyOf a = keyOf b → a.key = b.key) (sound : t.Sound)
    (gone : t.Gone k) (acts : List (Act κ)) : (t.run acts).Gone k := by
  induction acts generalizing t with
  | nil => exact gone
  | cons act rest ih =>
    have made := t.move_step act
    exact ih (sound.move tells made) (gone.move sound made)

/-- A deletion takes the key off the screen after the backend has lost it. -/
theorem Move.deleted (sound : t.Sound) {t' : ListSession keyOf}
    (move : Move t t' (some (.deleted k))) :
    k ∉ t'.screen.rows.keys ∧ ∀ r ∈ t'.backend.repository.toList, keyOf r ≠ k := by
  cases move with
  | @screen act screen event replies made fewer sent =>
    cases made with
    | @deleted number k id found =>
      refine ⟨fun present => (OrderedMap.mem_keys_erase.mp present).2 rfl, ?_⟩
      intro r hr same
      have inFlight := ListScreen.mem_of_callNumbered? found
      rcases sent number _ rfl with crash | answered
      · cases crash
      · refine sound.deleted number k id inFlight answered ?_
        rw [sound.stored.keys_eq, ← sound.named number k id inFlight r same]
        exact List.mem_map.mpr ⟨r, hr, rfl⟩

/-- An expected answer brings the key back. -/
theorem Expects.returns (sound : t.Sound) (expects : t.Expects k) :
    ∃ number, k ∈ (t.run [.deliver number]).screen.rows.keys := by
  obtain ⟨number, criteria, page, inFlight, answered, shown⟩ := expects
  refine ⟨number, ?_⟩
  have known := sound.screen.callNumbered?_eq_some_iff.mpr inFlight
  have loaded : (t.run [.deliver number]).screen.rows = t.screen.rows.load page.items := by
    simp [run, step, answered, complete, ListScreen.deliver, known, ListScreen.applyReply,
      ListScreen.applySearch]
  rw [loaded]
  exact Keyed.mem_keys_load.mpr shown

/-- However calls and answers overtake each other while nobody saves records: after a deletion the
row has left the screen, and it stays away for good exactly if the answer to the latest search, with
this row in it, was not on its way by then. -/
theorem gone_along_run (tells : ∀ a b : Record, keyOf a = keyOf b → a.key = b.key)
    (resource : String) (size : UInt64) {backend : Backend}
    (stored : backend.repository.records.KeyedBy Record.key) (acts : List (Act κ)) (act : Act κ)
    (k : κ) :
    let start : ListSession keyOf := openOn resource size backend
    let t := ((start.run acts).step act).1
    ((start.run acts).step act).2 = some (.deleted k) →
      k ∉ t.screen.rows.keys ∧
        ((∀ rest, k ∉ (t.run rest).screen.rows.keys) ↔ ¬ t.Expects k) := by
  intro start t deleted
  have opened : start.Sound :=
    ⟨ListScreen.wellFormed_openWith resource size, nofun, nofun, stored, nofun, List.nodup_nil,
      nofun⟩
  have sound := opened.run tells acts
  have made := (start.run acts).move_step act
  have after := sound.move tells made
  rw [deleted] at made
  obtain ⟨row, lost⟩ := made.deleted sound
  refine ⟨row, ?_, ?_⟩
  · intro away expects
    obtain ⟨number, back⟩ := expects.returns after
    exact away _ back
  · intro unexpected rest
    exact (Gone.run tells after ⟨row, lost, unexpected⟩ rest).row

end Steps

def onlyPrivilege : Record := Repository.privilegeNumbered 1 "active" none

def onePrivilege : Backend :=
  ⟨(Repository.ofRecords .privilege Uuid.ofNat 0 [onlyPrivilege]).1, true⟩

def listOfOne : ListSession Record.key := openOn "privilege" 20 onePrivilege

/-- The only privilege is listed and deleted. -/
def deletion : List (Act Uuid) :=
  [.use .refresh nofun, .serve 1, .deliver 1, .use (.delete onlyPrivilege) nofun, .serve 2]

/-- With no search under way, the row stays away. -/
theorem gone_of_onlyPrivilege : ∀ rest : List (Act Uuid), onlyPrivilege.key ∉
    (((listOfOne.run deletion).step (.deliver 2)).1.run rest).screen.rows.keys := by
  have keyed : onePrivilege.repository.records.KeyedBy Record.key :=
    (Repository.wellFormed_ofRecords .privilege Uuid.ofNat 0
      (by simp [onlyPrivilege, Repository.fits_privilegeNumbered])).1.keyed
  have deleted : ((listOfOne.run deletion).step (.deliver 2)).2 =
      some (.deleted onlyPrivilege.key) := by rfl
  have quiet : ((listOfOne.run deletion).step (.deliver 2)).1.screen.inFlight.map (·.1) = [] := by
    decide +kernel
  obtain ⟨_, away⟩ :=
    gone_along_run (fun _ _ => id) "privilege" 20 keyed deletion (.deliver 2) _ deleted
  refine away.mpr ?_
  rintro ⟨number, criteria, page, inFlight, _⟩
  have listed : number ∈ ((listOfOne.run deletion).step (.deliver 2)).1.screen.inFlight.map (·.1) :=
    List.mem_map.mpr ⟨_, inFlight, rfl⟩
  rw [quiet] at listed
  cases listed

/-- The list is refreshed once more, and while the answer is on its way the row is deleted. -/
def overtaking : List (Act Uuid) :=
  [.use .refresh nofun, .serve 1, .deliver 1, .use .refresh nofun, .serve 2,
    .use (.delete onlyPrivilege) nofun, .serve 3]

/-- The answer that was overtaken is one to the latest search, so it is taken. -/
theorem returned_after_deletion :
    ((listOfOne.run overtaking).step (.deliver 3)).2 = some (.deleted onlyPrivilege.key) ∧
      ((listOfOne.run overtaking).run [.deliver 3]).screen.rows.keys = [] ∧
      ((listOfOne.run overtaking).run [.deliver 3, .deliver 2]).screen.rows.keys =
        [onlyPrivilege.key] := by
  refine ⟨?_, ?_, ?_⟩
  · rfl
  · decide +kernel
  · decide +kernel

end ListSession

end BackOffice.Screen
