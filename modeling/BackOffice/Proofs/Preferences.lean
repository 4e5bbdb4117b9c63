import BackOffice.Preferences.Layout
import BackOffice.Proofs.OrderedMap

/-!
# Runs of a store of preferences

What a call is to write and what it answers follows from the preferences alone. A store in memory
takes every change over. A store in a file does so as long as it can be written; a write that fails
leaves both the memory and the file, so the file always keeps what is in memory, or what was read
when it was opened if nothing was written since. Without failures nobody can tell the two kinds of
stores apart. All of this holds whatever the format of the file.
-/
namespace BackOffice

open Preferences (FileFormat)

namespace PreferenceStore

inductive Call where
  | get (key : String)
  | set (key : String) (value : Json)
  | remove (key : String)

namespace Call

/-- The preferences that a call leads to, unless it changes nothing. -/
def rewrite? (p : Preferences) : Call → Option Preferences
  | get _ => none
  | set key value => some (p.insert key value)
  | remove key => if p.contains key then some (p.erase key) else none

/-- What a call answers if nothing fails. -/
def answer? (p : Preferences) : Call → Option Json
  | get key => p.get? key
  | set .. => none
  | remove key => p.get? key

end Call

theorem contains_of_get?_none {p : Preferences} {key : String} (missing : p.get? key = none) :
    p.contains key = false := by
  rw [← Bool.not_eq_true, OrderedMap.contains_iff]
  exact OrderedMap.get?_eq_none_iff.mp missing

theorem erase_of_missing {p : Preferences} {key : String} (missing : p.contains key = false) :
    p.erase key = p := by
  have absent : ∀ e ∈ p.entries, e.1 ≠ key := by
    intro e he same
    have present : p.contains key = true :=
      OrderedMap.contains_iff.mpr (List.mem_map.mpr ⟨e, he, same⟩)
    exact Bool.false_ne_true (missing.symm.trans present)
  rw [OrderedMap.erase, List.filter_eq_self.mpr fun e he => decide_eq_true (absent e he)]

section Format

variable [FileFormat]

/-- A call to a store and its answer; setting a key answers nothing. -/
def call (s : PreferenceStore) : Call → PreferenceStore × Except Problem (Option Json)
  | .get key => (s, .ok (s.get? key))
  | .set key value => ((s.set key value).1, (s.set key value).2.map fun _ => none)
  | .remove key => s.remove key

/-- The store once its file can or cannot be written. -/
def withDisk (s : PreferenceStore) (writable : Bool) : PreferenceStore :=
  match s with
  | inMemory entries => inMemory entries
  | inFile kept => inFile { kept with file := { kept.file with writable } }

/-- A call, and whether the file can be written while it is made. -/
structure Attempt where
  call : Call
  writable : Bool

/-- The preferences that an attempt writes to the file. -/
def Attempt.written? (a : Attempt) (p : Preferences) : Option Preferences :=
  if a.writable then a.call.rewrite? p else none

def attempt (s : PreferenceStore) (a : Attempt) :
    PreferenceStore × Except Problem (Option Json) :=
  (s.withDisk a.writable).call a.call

def run (s : PreferenceStore) (attempts : List Attempt) : PreferenceStore :=
  attempts.foldl (fun s a => (s.attempt a).1) s

def answers (s : PreferenceStore) : List Attempt → List (Except Problem (Option Json))
  | [] => []
  | a :: rest => (s.attempt a).2 :: (s.attempt a).1.answers rest

def entries : PreferenceStore → Preferences
  | inMemory entries => entries
  | inFile kept => kept.entries

/-- What the file of a store holds. -/
def content? : PreferenceStore → Option String
  | inMemory _ => none
  | inFile kept => kept.file.content

/-- The preferences that are written in the course of a run, one after the other. -/
def written (s : PreferenceStore) : List Attempt → List Preferences
  | [] => []
  | a :: rest =>
    (a.written? s.entries).toList ++ (s.attempt a).1.written rest

/-! ## One call -/

/-- In memory every change is taken over. -/
theorem attempt_inMemory (p : Preferences) (a : Attempt) :
    (inMemory p).attempt a =
      (inMemory ((a.call.rewrite? p).getD p), .ok (a.call.answer? p)) := by
  obtain ⟨c, writable⟩ := a
  cases c with
  | get key | set key value => rfl
  | remove key =>
    cases present : p.contains key with
    | true => simp [attempt, withDisk, call, remove, Call.rewrite?, Call.answer?, present]
    | false =>
      simp [attempt, withDisk, call, remove, Call.rewrite?, Call.answer?, present,
        erase_of_missing present]

/-- In a file, a change is taken over once it was written. A call that has nothing to write does not
touch the file. -/
theorem attempt_inFile (k : KeptPreferences) (a : Attempt) :
    (inFile k).attempt a =
      match a.call.rewrite? k.entries with
      | none => ((inFile k).withDisk a.writable, .ok (a.call.answer? k.entries))
      | some p =>
        if a.writable then (inFile ⟨p, ⟨some p.text, true⟩⟩, .ok (a.call.answer? k.entries))
        else ((inFile k).withDisk false, .error Preferences.unwritable) := by
  obtain ⟨c, writable⟩ := a
  cases c with
  | get key => rfl
  | set key value => cases writable <;> rfl
  | remove key =>
    cases found : k.entries.get? key with
    | none =>
      have missing := contains_of_get?_none found
      simp [attempt, withDisk, call, remove, KeptPreferences.remove, Call.rewrite?, Call.answer?,
        found, missing]
    | some previous =>
      have present : k.entries.contains key = true :=
        OrderedMap.contains_iff.mpr (OrderedMap.mem_keys_of_get? found)
      cases writable <;>
        simp [attempt, withDisk, call, remove, KeptPreferences.remove, KeptPreferences.keep,
          Medium.write, Except.map, Call.rewrite?, Call.answer?, found, present]

/-- Without a write, neither the entries nor the file change. -/
theorem attempt_unwritten {k : KeptPreferences} {a : Attempt}
    (unwritten : a.written? k.entries = none) :
    ((inFile k).attempt a).1 = (inFile k).withDisk a.writable := by
  rw [attempt_inFile]
  split
  · rfl
  · next p changed =>
    cases writable : a.writable with
    | true => simp [Attempt.written?, writable, changed] at unwritten
    | false => rfl

theorem attempt_written {k : KeptPreferences} {a : Attempt} {p : Preferences}
    (wrote : a.written? k.entries = some p) :
    (inFile k).attempt a = (inFile ⟨p, ⟨some p.text, true⟩⟩, .ok (a.call.answer? k.entries)) := by
  cases writable : a.writable with
  | false => simp [Attempt.written?, writable] at wrote
  | true =>
    rw [Attempt.written?, writable, if_pos rfl] at wrote
    rw [attempt_inFile, wrote, writable]
    rfl

/-! ## Runs -/

/-- Memory and file keep what was written last, or what they had. -/
theorem run_inFile (k : KeptPreferences) (attempts : List Attempt) :
    ∃ file, (inFile k).run attempts =
        inFile ⟨((inFile k).written attempts).getLast?.getD k.entries, file⟩ ∧
      file.content = (((inFile k).written attempts).getLast?.map Preferences.text).or
        k.file.content := by
  induction attempts generalizing k with
  | nil => exact ⟨k.file, rfl, rfl⟩
  | cons a rest ih =>
    cases wrote : a.written? k.entries with
    | none =>
      obtain ⟨file, last, content⟩ := ih ⟨k.entries, { k.file with writable := a.writable }⟩
      have here : (inFile k).run (a :: rest) = ((inFile k).withDisk a.writable).run rest := by
        rw [run, List.foldl_cons, attempt_unwritten wrote, run]
      have same : (inFile k).written (a :: rest) =
          ((inFile k).withDisk a.writable).written rest := by
        rw [written, entries, wrote, attempt_unwritten wrote]
        rfl
      rw [here, same]
      exact ⟨file, last, content⟩
    | some p =>
      obtain ⟨file, last, content⟩ := ih ⟨p, ⟨some p.text, true⟩⟩
      have here : (inFile k).run (a :: rest) = (inFile ⟨p, ⟨some p.text, true⟩⟩).run rest := by
        rw [run, List.foldl_cons, attempt_written wrote, run]
      have more : (inFile k).written (a :: rest) =
          p :: (inFile ⟨p, ⟨some p.text, true⟩⟩).written rest := by
        rw [written, entries, wrote, attempt_written wrote]
        rfl
      rw [here, more, List.getLast?_cons]
      refine ⟨file, last, content.trans ?_⟩
      cases (written (inFile ⟨p, ⟨some p.text, true⟩⟩) rest).getLast? <;> rfl

/-- A store is found again as it was left, if what it wrote last is read back. -/
theorem reopen_run {file : Medium} {initial : Preferences} (opened : file.read = .ok initial)
    {attempts : List Attempt}
    (readBack : ∀ p ∈ (inFile ⟨initial, file⟩).written attempts,
      Preferences.ofText? p.text = some p) :
    ((inFile ⟨initial, file⟩).run attempts).reopen =
      .ok ((inFile ⟨initial, file⟩).run attempts) := by
  obtain ⟨file', last, content⟩ := run_inFile ⟨initial, file⟩ attempts
  have read : file'.read =
      .ok (((inFile ⟨initial, file⟩).written attempts).getLast?.getD initial) := by
    cases wrote : ((inFile ⟨initial, file⟩).written attempts).getLast? with
    | some p =>
      rw [wrote] at content
      have held : file'.content = some p.text := content
      rw [Medium.read, held]
      simp only [readBack p (List.mem_of_getLast? wrote), Option.getD_some]
    | none =>
      rw [wrote] at content
      have held : file'.content = file.content := content
      rw [Medium.read, held, ← Medium.read, opened, Option.getD_none]
  rw [last, reopen, KeptPreferences.openAt, read]
  rfl

/-- As long as the file can be written, the store answers as one in memory. -/
theorem answers_inFile (k : KeptPreferences) {attempts : List Attempt}
    (writable : ∀ a ∈ attempts, a.writable) :
    (inFile k).answers attempts = (inMemory k.entries).answers attempts ∧
      ((inFile k).run attempts).entries = ((inMemory k.entries).run attempts).entries := by
  induction attempts generalizing k with
  | nil => exact ⟨rfl, rfl⟩
  | cons a rest ih =>
    have here : a.writable = true := writable a List.mem_cons_self
    have later : ∀ b ∈ rest, b.writable := fun b hb => writable b (List.mem_cons_of_mem a hb)
    have step : ∃ file, (inFile k).attempt a =
        (inFile ⟨(a.call.rewrite? k.entries).getD k.entries, file⟩,
          .ok (a.call.answer? k.entries)) := by
      rw [attempt_inFile, here]
      cases a.call.rewrite? k.entries with
      | none => exact ⟨_, rfl⟩
      | some p => exact ⟨_, rfl⟩
    obtain ⟨file, step⟩ := step
    obtain ⟨same, final⟩ := ih ⟨_, file⟩ later
    constructor
    · rw [answers, answers, step, attempt_inMemory, same]
    · rw [run, run, List.foldl_cons, List.foldl_cons, ← run, ← run, step, attempt_inMemory, final]

/-- A place without a file keeps no preferences, any other what its content is read as. -/
theorem read_of_content {file : Medium} {initial : Preferences}
    (sound : match file.content with
      | none => initial = .empty
      | some text => Preferences.ofText? text = some initial) :
    file.read = .ok initial := by
  cases content : file.content with
  | none =>
    simp only [content] at sound
    rw [Medium.read, content, sound]
  | some text =>
    simp only [content] at sound
    rw [Medium.read, content]
    simp only [sound]

/-- Whatever a store in a file is asked, and whenever its file cannot be written: memory holds what
was written last, or what was read when the store was opened, and so does the file; a call that
fails to write answers an error and changes nothing; removing a key that is not there writes
nothing. If nothing fails, the store answers as one in memory. Opening the file again leads to the
same preferences. -/
theorem kept_along_run (file : Medium) (initial : Preferences)
    (sound : match file.content with
      | none => initial = .empty
      | some text => Preferences.ofText? text = some initial)
    (attempts : List Attempt) :
    let start := inFile ⟨initial, file⟩
    let s := start.run attempts
    let written := start.written attempts
    KeptPreferences.openAt file = .ok ⟨initial, file⟩ ∧
    (s.entries = written.getLast?.getD initial ∧
      s.content? = (written.getLast?.map Preferences.text).or file.content) ∧
    (∀ c : Call, (s.attempt ⟨c, false⟩).1 = s.withDisk false ∧
      ((c.rewrite? s.entries).isSome → (s.attempt ⟨c, false⟩).2 = .error Preferences.unwritable)) ∧
    (∀ key, s.get? key = none →
      ∀ writable, s.attempt ⟨.remove key, writable⟩ = (s.withDisk writable, .ok none)) ∧
    ((∀ a ∈ attempts, a.writable) →
      start.answers attempts = (inMemory initial).answers attempts ∧
      s.entries = ((inMemory initial).run attempts).entries) ∧
    ((∀ p ∈ written, Preferences.ofText? p.text = some p) → s.reopen = .ok s) := by
  intro start s written
  have opened : file.read = .ok initial := read_of_content sound
  obtain ⟨file', last, content⟩ := run_inFile ⟨initial, file⟩ attempts
  change s = inFile ⟨written.getLast?.getD initial, file'⟩ at last
  refine ⟨?opening, ⟨?memory, ?content⟩, ?failing, ?absent, ?twin, reopen_run opened⟩
  case opening => rw [KeptPreferences.openAt, opened]; rfl
  case memory => rw [last]; rfl
  case content => rw [last]; exact content
  case failing =>
    intro c
    rw [last]
    refine ⟨attempt_unwritten rfl, ?_⟩
    intro changes
    obtain ⟨p, rewritten⟩ := Option.isSome_iff_exists.mp changes
    rw [attempt_inFile]
    simp only [entries] at rewritten
    simp only [rewritten]
    rfl
  case absent =>
    intro key missing writable
    rw [last] at missing ⊢
    change (written.getLast?.getD initial).get? key = none at missing
    have idle : (Call.remove key).rewrite? (written.getLast?.getD initial) = none := by
      rw [Call.rewrite?, contains_of_get?_none missing]
      rfl
    rw [attempt_inFile]
    simp only [idle, Call.answer?, missing]
  case twin => exact answers_inFile ⟨initial, file⟩

end Format

/-! ## A file with one line for each preference -/

/-- A mapping as a file has it if its texts need no quotes; it is read as any YAML mapping. -/
local instance plainLines : FileFormat where
  write p :=
    String.join (p.entries.map fun (key, value) => key ++ ": " ++ value.str?.getD "" ++ "\n")
  read? s := (Yaml.Node.ofText? s).bind Preferences.ofYaml?

/-- The theme is set, and set again while the file cannot be written; a key that is not there is
removed. -/
def themeAttempts : List Attempt :=
  [⟨.set "theme" (.str "dark"), true⟩, ⟨.set "theme" (.str "light"), false⟩,
    ⟨.remove "density", false⟩]

def darkTheme : Preferences := ⟨[("theme", .str "dark")]⟩

theorem ofText?_darkTheme : Preferences.ofText? darkTheme.text = some darkTheme := by
  have text : darkTheme.text = "theme: dark\n" := by decide +kernel
  have tokens : Yaml.Token.ofText? "theme: dark\n" =
      some [.blockMapStart, .key, .scalar "theme" true, .value, .scalar "dark" true, .blockEnd,
        .streamEnd] := by
    decide +kernel
  have visible : Text.isBlank "theme: dark\n" = false := by decide +kernel
  have read : FileFormat.read? "theme: dark\n" = some darkTheme := by
    change (Yaml.Node.ofText? "theme: dark\n").bind Preferences.ofYaml? = some darkTheme
    rw [Yaml.Node.ofText?, tokens]
    rfl
  rw [text, Preferences.ofText?, visible, if_neg Bool.false_ne_true, read]

/-- A new file holds the first theme, also for whoever opens it afterwards. -/
theorem kept_of_theme :
    let s := (inFile ⟨.empty, ⟨none, true⟩⟩).run themeAttempts
    s.entries = darkTheme ∧ s.content? = some "theme: dark\n" ∧ s.reopen = .ok s := by
  have wrote : (inFile ⟨.empty, ⟨none, true⟩⟩).written themeAttempts = [darkTheme] := rfl
  obtain ⟨_, ⟨memory, content⟩, _, _, _, again⟩ :=
    kept_along_run ⟨none, true⟩ .empty rfl themeAttempts
  simp only [wrote] at memory content again
  refine ⟨memory, content.trans (by decide +kernel), again ?_⟩
  intro p here
  rw [List.mem_singleton.mp here, ofText?_darkTheme]

end PreferenceStore

end BackOffice
