import BackOffice.Record.Basic
import BackOffice.Rules
import Mathlib.Data.List.Forall2

/-!
# What rules find wrong

A rule fails a blank value if the field is required, and any other value if it is text of a length
that is not allowed or does not have the format. The checks of a record report the fields that fail,
in the order of the rules, and for each of them what is wrong first.
-/
namespace BackOffice

open BackOffice.Field BackOffice.Pattern

namespace Rule

/-- Nothing, or text of nothing but white space. -/
inductive Blank : Value → Prop
  | null : Blank .null
  | text {s : String} (blank : ∀ c ∈ s.toList, Text.isBlankChar c = true) : Blank (.text s)

/-- Text of fewer characters than are asked for. -/
def TooShort (r : Rule) (v : Value) : Prop :=
  ∃ s, v = .text s ∧ ∃ least, r.minLength = some least ∧ s.length < least.toNat

/-- Text of more characters than are allowed. -/
def TooLong (r : Rule) (v : Value) : Prop :=
  ∃ s, v = .text s ∧ ∃ most, r.maxLength = some most ∧ most.toNat < s.length

/-- A value that does not have the format of the rule. -/
def Misshapen [Recognizer] (r : Rule) (v : Value) : Prop :=
  ∃ f, r.format = some f ∧ f.fits v = false

/-- A value that breaks the rule. -/
def FailedBy [Recognizer] (r : Rule) (v : Value) : Prop :=
  (Blank v ∧ r.required = true) ∨ (¬Blank v ∧ (r.TooShort v ∨ r.TooLong v ∨ r.Misshapen v))

/-- The first flaw of a value, all that is checked before being in order. -/
inductive Finds [Recognizer] (r : Rule) : Value → Flaw → Prop
  | missing {v : Value} (blank : Blank v) (required : r.required = true) : Finds r v .missing
  | tooShort {s : String} {least : UInt64} (filled : ¬Blank (.text s))
      (bound : r.minLength = some least) (short : s.length < least.toNat) :
      Finds r (.text s) (.tooShort least.toNat s.length)
  | tooLong {s : String} {most : UInt64} (filled : ¬Blank (.text s))
      (enough : ¬r.TooShort (.text s)) (bound : r.maxLength = some most)
      (long : most.toNat < s.length) : Finds r (.text s) (.tooLong most.toNat s.length)
  | malformed {v : Value} {f : Format} (filled : ¬Blank v) (enough : ¬r.TooShort v)
      (within : ¬r.TooLong v) (format : r.format = some f) (unfit : f.fits v = false) :
      Finds r v (.malformed f.name)

variable {r : Rule} {v : Value} {s : String} {w : Flaw}

theorem blank_iff : Blank v ↔ v.isBlank = true := by
  constructor
  · rintro (_ | blank)
    · rfl
    · exact List.all_eq_true.mpr blank
  · intro h
    cases v with
    | null => exact .null
    | text s => exact .text (List.all_eq_true.mp h)
    | _ => cases h

theorem tooShort_text_iff :
    r.TooShort (.text s) ↔ ∃ least, r.minLength = some least ∧ s.length < least.toNat := by
  simp [TooShort]

theorem tooLong_text_iff :
    r.TooLong (.text s) ↔ ∃ most, r.maxLength = some most ∧ most.toNat < s.length := by
  simp [TooLong]

theorem lengthFlaw_of_short {least : UInt64} (bound : r.minLength = some least)
    (short : s.length < least.toNat) :
    r.lengthFlaw (.text s) = some (.tooShort least.toNat s.length) := by
  have below : (r.minLength.filter fun least => s.length < least.toNat) = some least := by
    simp [bound, short]
  simp only [lengthFlaw, Value.text?, below]

theorem no_shortage (enough : ¬r.TooShort (.text s)) :
    (r.minLength.filter fun least => s.length < least.toNat) = none := by
  rw [tooShort_text_iff] at enough
  simpa using enough

theorem lengthFlaw_of_long {most : UInt64} (enough : ¬r.TooShort (.text s))
    (bound : r.maxLength = some most) (long : most.toNat < s.length) :
    r.lengthFlaw (.text s) = some (.tooLong most.toNat s.length) := by
  have beyond : (r.maxLength.filter fun most => most.toNat < s.length) = some most := by
    simp [bound, long]
  simp only [lengthFlaw, Value.text?, no_shortage enough, beyond]

theorem lengthFlaw_of_fitting (enough : ¬r.TooShort v) (within : ¬r.TooLong v) :
    r.lengthFlaw v = none := by
  cases v with
  | text s =>
    rw [tooLong_text_iff] at within
    have long : (r.maxLength.filter fun most => most.toNat < s.length) = none := by
      simpa using within
    simp only [lengthFlaw, Value.text?, no_shortage enough, long]
  | _ => rfl

variable [Recognizer]

/-- What is found is what the check of the rule gives. -/
theorem Finds.flaw_eq (found : r.Finds v w) : r.flaw v = some w := by
  cases found with
  | missing blank required => rw [flaw, if_pos (blank_iff.mp blank), if_pos required]
  | tooShort filled bound short =>
    rw [flaw, if_neg (blank_iff.not.mp filled), lengthFlaw_of_short bound short, Option.some_or]
  | tooLong filled enough bound long =>
    rw [flaw, if_neg (blank_iff.not.mp filled), lengthFlaw_of_long enough bound long,
      Option.some_or]
  | malformed filled enough within format unfit =>
    rw [flaw, if_neg (blank_iff.not.mp filled), lengthFlaw_of_fitting enough within,
      Option.none_or, formatFlaw, format]
    simp [unfit]

/-- Something is found in every value that breaks the rule. -/
theorem FailedBy.finds (failed : r.FailedBy v) : ∃ w, r.Finds v w := by
  obtain ⟨blank, required⟩ | ⟨filled, wrong⟩ := failed
  · exact ⟨_, .missing blank required⟩
  by_cases short : r.TooShort v
  · obtain ⟨s, rfl, least, bound, short⟩ := short
    exact ⟨_, .tooShort filled bound short⟩
  by_cases long : r.TooLong v
  · obtain ⟨s, rfl, most, bound, long⟩ := long
    exact ⟨_, .tooLong filled short bound long⟩
  obtain ⟨f, format, unfit⟩ := (wrong.resolve_left short).resolve_left long
  exact ⟨_, .malformed filled short long format unfit⟩

theorem Finds.failedBy (found : r.Finds v w) : r.FailedBy v := by
  cases found with
  | missing blank required => exact .inl ⟨blank, required⟩
  | tooShort filled bound short => exact .inr ⟨filled, .inl ⟨_, rfl, _, bound, short⟩⟩
  | tooLong filled _ bound long => exact .inr ⟨filled, .inr (.inl ⟨_, rfl, _, bound, long⟩)⟩
  | malformed filled _ _ format unfit => exact .inr ⟨filled, .inr (.inr ⟨_, format, unfit⟩)⟩

theorem flaw_of_not_failedBy (obeyed : ¬r.FailedBy v) : r.flaw v = none := by
  rw [flaw]
  split
  · next blank =>
    exact if_neg fun required => obeyed (.inl ⟨blank_iff.mpr blank, required⟩)
  · next filled =>
    have filled : ¬Blank v := blank_iff.not.mpr filled
    have fits : ¬(r.TooShort v ∨ r.TooLong v ∨ r.Misshapen v) :=
      fun wrong => obeyed (.inr ⟨filled, wrong⟩)
    rw [not_or, not_or] at fits
    obtain ⟨enough, within, shaped⟩ := fits
    rw [lengthFlaw_of_fitting enough within, Option.none_or, formatFlaw]
    split
    · next f format =>
      exact if_pos (Bool.not_eq_false _ ▸ fun unfit => shaped ⟨f, format, unfit⟩)
    · rfl

theorem flaw_eq_none_iff : r.flaw v = none ↔ ¬r.FailedBy v := by
  refine ⟨fun h failed => ?_, flaw_of_not_failedBy⟩
  obtain ⟨w, found⟩ := failed.finds
  rw [found.flaw_eq] at h
  cases h

/-- The check of the rule gives what is found, and there is only one such flaw. -/
theorem flaw_eq_some_iff : r.flaw v = some w ↔ r.Finds v w := by
  refine ⟨fun h => ?_, Finds.flaw_eq⟩
  have failed : r.FailedBy v := by
    by_contra obeyed
    rw [flaw_of_not_failedBy obeyed] at h
    cases h
  obtain ⟨w', found⟩ := failed.finds
  rw [found.flaw_eq, Option.some.injEq] at h
  exact h ▸ found

instance : Decidable (r.FailedBy v) :=
  decidable_of_iff (r.flaw v ≠ none) (flaw_eq_none_iff.not.trans not_not)

end Rule

namespace Ruleset

/-- A violation that tells what the rule of a field finds first in a value. -/
def Tells [Recognizer] (value : String → Value) (e : String × Rule) (w : Violation) : Prop :=
  ∃ flaw, e.2.Finds (value e.1) flaw ∧ w = .of e.1 flaw

variable {value : String → Value}

/-- Rules whose fields do not fail are passed over. -/
theorem violations_tell [Recognizer] (value : String → Value) (entries : List (String × Rule)) :
    List.Forall₂ (Tells value) (entries.filter fun e => e.2.FailedBy (value e.1))
      (entries.filterMap fun e => e.2.check e.1 (value e.1)) := by
  induction entries with
  | nil => exact .nil
  | cons e rest ih =>
    simp only [List.filter_cons, List.filterMap_cons, Rule.check] at ih ⊢
    cases flaw : e.2.flaw (value e.1) with
    | none =>
      have obeyed := Rule.flaw_eq_none_iff.mp flaw
      simpa only [obeyed, decide_false, Bool.false_eq_true, if_false, Option.map_none] using ih
    | some w =>
      have found := Rule.flaw_eq_some_iff.mp flaw
      simp only [found.failedBy, decide_true, if_true, Option.map_some]
      exact .cons ⟨w, found, rfl⟩ ih

theorem fields_of_tell [Recognizer] {entries : List (String × Rule)} {violations : List Violation}
    (told : List.Forall₂ (Tells value) entries violations) :
    violations.map (·.field) = entries.map (·.1) := by
  induction told with
  | nil => rfl
  | cons first _ ih =>
    obtain ⟨flaw, _, rfl⟩ := first
    rw [List.map_cons, List.map_cons, ih, Violation.of]

/-- The fields that fail are reported in the order of their rules, each with its first flaw, and
nothing else is. -/
theorem check_tells [Recognizer] (rules : Ruleset) (r : Record) :
    let value (field : String) := (r.field? field).getD .null
    List.Forall₂ (Tells value) (rules.entries.filter fun e => e.2.FailedBy (value e.1))
        (rules.check r.field?) ∧
      (rules.check r.field?).map (·.field) =
        (rules.entries.filter fun e => e.2.FailedBy (value e.1)).map (·.1) ∧
      (rules.check r.field? = [] ↔ ∀ e ∈ rules.entries, ¬e.2.FailedBy (value e.1)) := by
  intro value
  have told : List.Forall₂ (Tells value)
      (rules.entries.filter fun e => e.2.FailedBy (value e.1)) (rules.check r.field?) :=
    violations_tell value rules.entries
  refine ⟨told, fields_of_tell told, ?_⟩
  rw [← List.length_eq_zero_iff, ← told.length_eq, List.length_eq_zero_iff,
    List.filter_eq_nil_iff]
  simp only [decide_eq_true_eq]

/-- A required field that is missing is reported, and of bounds that exclude each other the lower. -/
example : let rules : Ruleset := ⟨[("code", .mandatory), ("name", ⟨false, some 5, some 3, none⟩)]⟩
    let record : Record := ⟨none, Record.activeStatus, [("name", .text "four")], []⟩
    (rules.check record.field?).map (·.flaw) = [.missing, .tooShort 5 4] := by decide

end Ruleset

end BackOffice
