import BackOffice.Proofs.Query.Sorting
import BackOffice.Proofs.Repository
import BackOffice.Record.Bundled
import Mathlib.Algebra.Group.Nat.Defs

/-!
# All pages of a search

The pages of a search cut the sorted matches into pieces of one size. Put one after the other, as
many as the size asks for, they are all matches, each once and in their order, and every page beyond
them is empty. A repository holds fewer records than a word counts, so no offset of a page that is
not empty is cut short.
-/
namespace BackOffice

open BackOffice.Query
open BackOffice.Pattern (Engine)

/-! ## Cutting a list -/

theorem flatMap_slices {α : Type} (all : List α) (size count : Nat) :
    ((List.range count).flatMap fun i => (all.drop (i * size)).take size) =
      all.take (count * size) := by
  induction count with
  | zero => simp
  | succ count ih =>
    rw [List.range_succ, List.flatMap_append, List.flatMap_singleton, ih, Nat.succ_mul,
      List.take_add]

namespace Query

/-- How many pages of a size so many matches fill. -/
def pageCount (found size : Nat) : Nat := (found + size - 1) / size

theorem size_pos {size : UInt64} (some : size ≠ 0) : 0 < size.toNat :=
  Nat.pos_of_ne_zero fun none => some (UInt64.toNat_inj.mp none)

theorem le_pageCount_mul (n : Nat) {size : Nat} (positive : 0 < size) :
    n ≤ pageCount n size * size := by
  have split := Nat.div_add_mod (n + size - 1) size
  have rest := Nat.mod_lt (n + size - 1) positive
  rw [pageCount, Nat.mul_comm]
  omega

theorem mul_lt_of_lt_pageCount {n size i : Nat} (h : i < pageCount n size) : i * size < n := by
  rcases Nat.eq_zero_or_pos size with rfl | positive
  · rw [pageCount, Nat.div_zero] at h
    exact absurd h (Nat.not_lt_zero i)
  · have next : (i + 1) * size ≤ n + size - 1 := (Nat.le_div_iff_mul_le positive).mp h
    rw [Nat.succ_mul] at next
    omega

theorem Criteria.offset_toNat (c : Criteria) :
    c.offset.toNat = min (c.page.toNat * c.size.toNat) maxWord := by
  rw [Criteria.offset, UInt64.toNat_ofNat']
  have small : maxWord < 2 ^ 64 := by decide
  exact Nat.mod_eq_of_lt (by omega)

end Query

namespace Repository

/-- The first pages of a search, one after the other. -/
def pages [Engine] (r : Repository) (c : Criteria) (count : Nat) : List Record :=
  (List.range count).flatMap fun i => (r.search { c with page := UInt64.ofNat i }).items

theorem items_search [Engine] (r : Repository) (c : Criteria) : (r.search c).items =
    ((r.matching c).drop (min (c.page.toNat * c.size.toNat) maxWord)).take c.size.toNat := by
  rw [search, Page.slice, Criteria.offset_toNat]

theorem pages_eq_matching [Engine] {r : Repository} {c : Criteria} (size : c.size ≠ 0)
    (countable : (r.matching c).length < 2 ^ 64) :
    r.pages c (pageCount (r.matching c).length c.size.toNat) = r.matching c := by
  have positive := size_pos size
  have slices : ∀ i ∈ List.range (pageCount (r.matching c).length c.size.toNat),
      (r.search { c with page := UInt64.ofNat i }).items =
        ((r.matching c).drop (i * c.size.toNat)).take c.size.toNat := by
    intro i hi
    have inside := mul_lt_of_lt_pageCount (List.mem_range.mp hi)
    have index : i ≤ i * c.size.toNat := Nat.le_mul_of_pos_right i positive
    have exact_offset : min (i % 2 ^ 64 * c.size.toNat) maxWord = i * c.size.toNat := by
      rw [Nat.mod_eq_of_lt (by omega), maxWord]
      omega
    rw [items_search, UInt64.toNat_ofNat', exact_offset]
    rfl
  rw [pages, List.flatMap_congr slices, flatMap_slices]
  exact List.take_of_length_le (le_pageCount_mul _ positive)

theorem items_search_beyond [Engine] {r : Repository} {c : Criteria} (size : c.size ≠ 0)
    (countable : (r.matching c).length < 2 ^ 64)
    (beyond : pageCount (r.matching c).length c.size.toNat ≤ c.page.toNat) :
    (r.search c).items = [] := by
  have positive := size_pos size
  have enough := le_pageCount_mul (r.matching c).length positive
  have further : (r.matching c).length ≤ c.page.toNat * c.size.toNat :=
    Nat.le_trans enough (Nat.mul_le_mul_right _ beyond)
  have past : (r.matching c).length ≤ min (c.page.toNat * c.size.toNat) maxWord := by
    rw [maxWord]
    omega
  rw [items_search, List.drop_of_length_le past, List.take_nil]

/-- The stored records that criteria accept, in the order of storage. -/
def accepted [Engine] (r : Repository) (c : Criteria) : List Record :=
  r.toList.filter fun record => c.accepts record.field?

/-- Turning the pages of a search one after the other shows every stored record that the criteria
accept exactly once and no other, in the order that the sorts ask for, ties in the order of storage;
every page after these is empty. -/
theorem pages_of_search [Engine] {r : Repository} (w : r.WellFormed) {c : Criteria}
    (size : c.size ≠ 0) (countable : r.size < 2 ^ 64) :
    let found := r.accepted c
    let count := pageCount found.length c.size.toNat
    let all := r.pages c count
    all.Perm found ∧ (all.map Record.key).Nodup ∧
      (all.Pairwise fun a b => compareBy c.sorts a.field? b.field? ≠ .gt) ∧
      (∀ a b, [a, b].Sublist found → compareBy c.sorts a.field? b.field? = .eq →
        [a, b].Sublist all) ∧
      ∀ page : UInt64, count ≤ page.toNat → (r.search { c with page }).items = [] := by
  intro found count all
  have sorted : r.matching c = found.mergeSort (notAfter c.sorts) := rfl
  have fits : ∀ record ∈ found, Record.Fits r.schema record := fun record hr =>
    w.fits record (List.mem_filter.mp hr).1
  have perm : (r.matching c).Perm found := List.mergeSort_perm found _
  have short : (r.matching c).length < 2 ^ 64 := by
    have most : found.length ≤ r.toList.length := List.length_filter_le _ _
    have stored : r.toList.length = r.size := List.length_map _
    rw [perm.length_eq]
    omega
  have whole : all = r.matching c := by
    rw [← pages_eq_matching size short, perm.length_eq]
  have keys : (found.map Record.key).Nodup := by
    have stored : (r.toList.map Record.key).Nodup := w.keyed.keys_eq ▸ w.keyed.unique
    exact stored.sublist (List.filter_sublist.map Record.key)
  rw [whole]
  refine ⟨perm, (perm.map Record.key).nodup_iff.mpr keys, ?_, ?_, ?_⟩
  · exact pairwise_mergeSort c.sorts fits
  · intro a b order tie
    exact pair_sublist_mergeSort c.sorts fits tie order
  · intro page beyond
    have past : pageCount (r.matching c).length c.size.toNat ≤ page.toNat := by
      rwa [perm.length_eq]
    exact items_search_beyond (c := { c with page }) size short past

/-- A privilege of a number that is described or not. -/
def privilegeNumbered (n : Nat) (status : String) (description : Option String) : Record :=
  ⟨some (.ofNat n), status,
    [("name", .text ""), ("description", Field.Value.ofOption .text description)], []⟩

theorem fits_privilegeNumbered (n : Nat) (status : String) (description : Option String) :
    Record.Fits .privilege (privilegeNumbered n status description) := by
  have admitted : FieldKind.optionalText.admits (Field.Value.ofOption .text description) = true := by
    cases description <;> rfl
  exact ⟨⟨rfl, List.forall_mem_cons.mpr ⟨rfl, List.forall_mem_singleton.mpr admitted⟩⟩, .nil⟩

def fourPrivileges : Repository :=
  (ofRecords .privilege Uuid.ofNat 0
    [privilegeNumbered 1 "active" none, privilegeNumbered 2 "active" "x",
      privilegeNumbered 3 "disabled" "y", privilegeNumbered 4 "active" "x"]).1

def activeByDescription : Criteria :=
  ⟨[.equals "status" (.text "active")], .all, [⟨"description", .descending⟩], 0, 2, false⟩

theorem matching_fourPrivileges : fourPrivileges.matching activeByDescription =
    [privilegeNumbered 2 "active" "x", privilegeNumbered 4 "active" "x",
      privilegeNumbered 1 "active" none] := by
  have accepted : fourPrivileges.toList.filter (activeByDescription.accepts ·.field?) =
      [privilegeNumbered 1 "active" none, privilegeNumbered 2 "active" "x",
        privilegeNumbered 4 "active" "x"] := rfl
  have firstHalf : notAfter activeByDescription.sorts (privilegeNumbered 1 "active" none)
      (privilegeNumbered 2 "active" "x") = false := rfl
  have heads : notAfter activeByDescription.sorts (privilegeNumbered 2 "active" "x")
      (privilegeNumbered 4 "active" "x") = true := rfl
  have last : notAfter activeByDescription.sorts (privilegeNumbered 1 "active" none)
      (privilegeNumbered 4 "active" "x") = false := rfl
  rw [matching, accepted]
  simp [List.mergeSort, firstHalf, heads, last]

/-- Three of the privileges are active; the two with one description keep their order. -/
theorem pages_of_active_privileges :
    let r := fourPrivileges
    let c := activeByDescription
    let all := r.pages c 2
    r.WellFormed ∧ c.size ≠ 0 ∧ r.size < 2 ^ 64 ∧
      all.map Record.key = [.ofNat 2, .ofNat 4, .ofNat 1] ∧ all.Perm (r.accepted c) ∧
      ∀ page : UInt64, 2 ≤ page.toNat → (r.search { c with page }).items = [] := by
  have w : fourPrivileges.WellFormed := by
    refine (wellFormed_ofRecords .privilege Uuid.ofNat 0 ?_).1
    simp [fits_privilegeNumbered]
  have size : activeByDescription.size ≠ 0 := by decide
  have countable : fourPrivileges.size < 2 ^ 64 := by decide
  have count : pageCount (fourPrivileges.accepted activeByDescription).length
      activeByDescription.size.toNat = 2 := by decide +kernel
  have whole := pages_eq_matching (r := fourPrivileges) size
    (by rw [matching_fourPrivileges]; decide)
  rw [matching_fourPrivileges] at whole
  have order : (fourPrivileges.pages activeByDescription 2).map Record.key =
      [.ofNat 2, .ofNat 4, .ofNat 1] := (congrArg (List.map Record.key) whole).trans rfl
  obtain ⟨perm, _, _, _, beyond⟩ := pages_of_search w size countable
  rw [count] at perm beyond
  exact ⟨w, size, countable, order, perm, beyond⟩

end Repository

end BackOffice
