import BackOffice.Proofs.Query.Paging
import Mathlib.Order.Bounds.Defs

/-!
# Pages and what they say of each other

Where numbers have no largest one, a page is the window of a list that starts at the product of its
index and its size. An offset and the end of a page are cut down to the largest word instead. No list
is so long that this shows: a page has the elements of its window, it says that another follows
exactly if the next window has any, and the number of pages is the first index whose window has none.
-/
namespace BackOffice.Query

variable {α : Type}

/-- The elements of a list from one place on up to another, which is left out. -/
def window (all : List α) (first past : Nat) : List α :=
  (all.zipIdx.filter fun e => first ≤ e.2 ∧ e.2 < past).map (·.1)

/-- The elements of a list that are numbered from `start` on. -/
theorem map_filter_zipIdx (all : List α) (start first past : Nat) :
    ((all.zipIdx start).filter fun e => first ≤ e.2 ∧ e.2 < past).map (·.1) =
      (all.drop (first - start)).take (past - max first start) := by
  induction all generalizing start with
  | nil => simp
  | cons a rest ih =>
    rw [List.zipIdx_cons]
    by_cases before : start < first
    · have step : first - start = first - (start + 1) + 1 := by omega
      have same : max first (start + 1) = max first start := by omega
      have out : ¬(first ≤ start ∧ start < past) := by omega
      rw [List.filter_cons_of_neg (by simpa using out), ih, step, same, List.drop_succ_cons]
    · have here : first - start = 0 := by omega
      have next : first - (start + 1) = 0 := by omega
      by_cases inside : start < past
      · have room : past - max first start = past - max first (start + 1) + 1 := by omega
        have within : first ≤ start ∧ start < past := by omega
        rw [List.filter_cons_of_pos (by simpa using within), List.map_cons, ih, here, next, room]
        rfl
      · have out : ¬(first ≤ start ∧ start < past) := by omega
        have full : past - max first start = 0 := by omega
        have full' : past - max first (start + 1) = 0 := by omega
        rw [List.filter_cons_of_neg (by simpa using out), ih, full, full']
        rfl

theorem window_eq (all : List α) (first count : Nat) :
    window all first (first + count) = (all.drop first).take count := by
  rw [window, map_filter_zipIdx]
  simp

/-- The page of an index in pages of a size, as it is with numbers of any size. -/
def pageOf (all : List α) (size i : Nat) : List α := window all (i * size) (i * size + size)

theorem pageOf_eq_nil_iff {all : List α} {size i : Nat} (positive : 0 < size) :
    pageOf all size i = [] ↔ all.length ≤ i * size := by
  rw [pageOf, window_eq, List.take_eq_nil_iff, List.drop_eq_nil_iff]
  omega

theorem lt_pageCount_iff {n size i : Nat} (positive : 0 < size) :
    i < pageCount n size ↔ i * size < n := by
  constructor
  · exact mul_lt_of_lt_pageCount
  · intro inside
    have enough := le_pageCount_mul n positive
    by_contra beyond
    have further := Nat.mul_le_mul_right size (Nat.not_lt.mp beyond)
    omega

/-- As many pages are filled as the index of the first empty one says. -/
theorem isLeast_pageCount (all : List α) {size : Nat} (positive : 0 < size) :
    IsLeast {i | pageOf all size i = []} (pageCount all.length size) := by
  constructor
  · exact (pageOf_eq_nil_iff positive).mpr (le_pageCount_mul _ positive)
  · intro i none
    have beyond := (pageOf_eq_nil_iff positive).mp none
    by_contra before
    have inside := (lt_pageCount_iff positive).mp (Nat.not_le.mp before)
    omega

theorem length_pageOf (all : List α) (size i : Nat) :
    (pageOf all size i).length = min size (all.length - i * size) := by
  rw [pageOf, window_eq, List.length_take, List.length_drop]

/-! ## Pages that are served -/

section Served

variable {all : List α} {c : Criteria}

/-- An offset that is cut down lies behind all elements, and so does the one that it stands for. -/
theorem items_slice (countable : all.length ≤ maxWord) (c : Criteria) :
    (Page.slice all c).items = pageOf all c.size.toNat c.page.toNat := by
  rw [pageOf, window_eq, Page.slice, Criteria.offset_toNat]
  by_cases inside : c.page.toNat * c.size.toNat ≤ maxWord
  · rw [Nat.min_eq_left inside]
  · have cut : all.length ≤ min (c.page.toNat * c.size.toNat) maxWord := by omega
    have beyond : all.length ≤ c.page.toNat * c.size.toNat := by omega
    rw [List.drop_of_length_le cut, List.drop_of_length_le beyond]

/-- A page says that another follows if there are matches behind it. -/
theorem hasNext_slice (countable : all.length < 2 ^ 64) (counted : c.counted = true) :
    (Page.slice all c).info.hasNext =
      some (decide ((c.page.toNat + 1) * c.size.toNat < all.length)) := by
  have total := UInt64.toNat_ofNat_of_lt' countable
  simp only [Meta.hasNext, Page.slice, counted, if_true, Option.map_some, Criteria.offset_toNat,
    total, maxWord, Nat.succ_mul]
  congr 2
  apply propext
  omega

theorem totalPages_slice (countable : all.length < 2 ^ 64) (size : c.size ≠ 0)
    (counted : c.counted = true) :
    (Page.slice all c).info.totalPages = some (pageCount all.length c.size.toNat) := by
  have total := UInt64.toNat_ofNat_of_lt' countable
  have positive := size_pos size
  have least : max c.size.toNat 1 = c.size.toNat := by omega
  simp only [Meta.totalPages, Page.slice, counted, if_true, Option.map_some, total, least,
    pageCount]

/-- A page has the elements of its window, though its offset is cut down to a word. The total is
known where it is asked for. Then another page follows exactly if the next window has elements, and
the number of pages is the first index whose window has none. -/
theorem slice_pageOf (countable : all.length ≤ maxWord) (size : c.size ≠ 0) :
    let s := c.size.toNat
    let i := c.page.toNat
    let answer := Page.slice all c
    answer.items = pageOf all s i ∧
      answer.items.length = min s (all.length - i * s) ∧
      answer.info.offset.toNat = min (i * s) maxWord ∧
      answer.info.total.map UInt64.toNat = (if c.counted then some all.length else none) ∧
      answer.info.hasNext = (if c.counted then some (!(pageOf all s (i + 1)).isEmpty) else none) ∧
      ∃ m, IsLeast {j | pageOf all s j = []} m ∧
        answer.info.totalPages = if c.counted then some m else none := by
  intro s i answer
  have positive : 0 < s := size_pos size
  have short : all.length < 2 ^ 64 := by
    rw [maxWord] at countable
    omega
  have items : answer.items = pageOf all s i := items_slice countable c
  refine ⟨items, ?_, c.offset_toNat, ?_, ?_, _, isLeast_pageCount all positive, ?_⟩
  · rw [items, length_pageOf]
  · by_cases counted : c.counted = true
    · simp [answer, Page.slice, counted, UInt64.toNat_ofNat_of_lt' short]
    · simp [answer, Page.slice, counted]
  · by_cases counted : c.counted = true
    · have follows : (!(pageOf all s (i + 1)).isEmpty) = decide ((i + 1) * s < all.length) := by
        rw [Bool.eq_iff_iff, Bool.not_eq_true', List.isEmpty_eq_false_iff, ne_eq,
          pageOf_eq_nil_iff positive, decide_eq_true_eq, Nat.not_le]
      rw [if_pos counted, follows]
      exact hasNext_slice short counted
    · simp [answer, Page.slice, Meta.hasNext, counted]
  · by_cases counted : c.counted = true
    · rw [if_pos counted]
      exact totalPages_slice short size counted
    · simp [answer, Page.slice, Meta.totalPages, counted]

end Served

/-- All matches in pages of three, with the number of them. -/
def inThrees (page : UInt64) : Criteria := ⟨[], .all, [], page, 3, true⟩

/-- Six elements fill two pages of three, the second of which says that none follows. The product of
the other index and the size leaves two when it is cut to a word, but no element is shown for it. -/
theorem slice_pageOf_six :
    let all := [1, 2, 3, 4, 5, 6]
    let second := Page.slice all (inThrees 1)
    let far := Page.slice all (inThrees 6148914691236517206)
    all.length ≤ maxWord ∧ (3 : UInt64) ≠ 0 ∧
      second.items = [4, 5, 6] ∧ second.info.hasNext = some false ∧
      (∃ m, IsLeast {j | pageOf all 3 j = []} m ∧ second.info.totalPages = some m) ∧
      maxWord < 6148914691236517206 * 3 ∧ far.items = [] ∧ far.info.hasNext = some false := by
  intro all second far
  have countable : all.length ≤ maxWord := by decide
  have size : (3 : UInt64) ≠ 0 := by decide
  obtain ⟨items, _, _, _, next, pages⟩ := slice_pageOf (c := inThrees 1) countable size
  obtain ⟨farItems, _, _, _, farNext, _⟩ :=
    slice_pageOf (c := inThrees 6148914691236517206) countable size
  exact ⟨countable, size, items.trans (by decide), next.trans (by decide), pages, by decide,
    farItems.trans (by decide), farNext.trans (by decide)⟩

end BackOffice.Query
