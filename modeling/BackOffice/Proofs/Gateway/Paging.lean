import BackOffice.Gateway.Handler
import BackOffice.Proofs.Query.Params
import BackOffice.Proofs.Query.Slicing

/-!
# Reading a search to its end

A client asks for one page after the other as long as the last answer says that another follows. The
size it asks for is cut down to the most that a page may hold, but whether a page is in range is
judged before that, by the size asked for. So it comes to all matches if its last page is in range by
that size, as it is whenever the size is not cut down. Otherwise it is refused a page that the answer
before has announced.
-/
namespace BackOffice

open BackOffice.Query
open BackOffice.Pattern (Engine)

namespace Query

/-! ## Parameters that differ in the page only -/

/-- Parameters that ask for a page, with others before and after. -/
def pageParams (before after : List (String × String)) (page : Nat) : Params :=
  ⟨before ++ ("pageIndex", Numeral.text page) :: after⟩

theorem Draft.take_withPage (d : Draft) (page : UInt64) {key : String} (value : String)
    (other : key ≠ "pageIndex") : Draft.take { d with page } (key, value) =
      (d.take (key, value)).map fun d' => { d' with page } := by
  simp only [Draft.take, if_neg other]
  split
  · cases number? key value with
    | error e => rfl
    | ok size =>
      change (if size = 0 then _ else _) = Except.map _ (if size = 0 then _ else _)
      by_cases none : size = 0
      · simp only [if_pos none]
        rfl
      · simp only [if_neg none]
        rfl
  split
  · cases Join.ofToken? value <;> rfl
  split
  · cases Field.Value.bool? value <;> rfl
  · rcases slot? key with _ | ⟨n, part⟩ | ⟨n, part⟩ <;> rfl

theorem foldlM_take_withPage {ps : List (String × String)} (others : ∀ p ∈ ps, p.1 ≠ "pageIndex")
    (d : Draft) (page : UInt64) : ps.foldlM Draft.take { d with page } =
      (ps.foldlM Draft.take d).map fun d' => { d' with page } := by
  induction ps generalizing d with
  | nil => rfl
  | cons p rest ih =>
    simp only [List.forall_mem_cons] at others
    have first := d.take_withPage page p.2 others.1
    simp only [List.foldlM_cons, first]
    cases d.take p with
    | error e => rfl
    | ok d' => exact ih others.2 d'

theorem Draft.finish_withPage {d : Draft} {c : Criteria}
    (first : Draft.finish { d with page := 0 } = .ok c) (page : UInt64) :
    Draft.finish { d with page } =
      if maxWord < page.toNat * c.size.toNat then .error (.pageOutOfRange page c.size)
      else .ok { c with page } := by
  obtain ⟨_, clauses, sorts, _, size, join, counted⟩ := Draft.finish_ok_iff.mp first
  split
  · next outside =>
    rw [size] at outside ⊢
    exact if_pos outside
  · next inside =>
    have inside := Nat.not_lt.mp inside
    rw [size] at inside
    exact Draft.finish_ok_iff.mpr ⟨inside, clauses, sorts, rfl, size, join, counted⟩

/-- Parameters that are read with the first page are read with every page that is in range by the
size they ask for. -/
theorem Criteria.ofParams_pageParams {before after : List (String × String)} {defaultSize : UInt64}
    {c : Criteria} (others : ∀ p ∈ after, p.1 ≠ "pageIndex")
    (first : Criteria.ofParams (pageParams before after 0) defaultSize = .ok c) (page : UInt64) :
    Criteria.ofParams (pageParams before after page.toNat) defaultSize =
      if maxWord < page.toNat * c.size.toNat then .error (.pageOutOfRange page c.size)
      else .ok { c with page } := by
  have asked (page : UInt64) : Criteria.ofParams (pageParams before after page.toNat) defaultSize =
      (before.foldlM Draft.take (Draft.start defaultSize)).bind fun d =>
        (after.foldlM Draft.take d).bind fun d => Draft.finish { d with page } := by
    simp only [Criteria.ofParams, pageParams, List.foldlM_append, List.foldlM_cons]
    cases before.foldlM Draft.take (Draft.start defaultSize) with
    | error e => rfl
    | ok d =>
      have taken := d.take_page page
      have rest := foldlM_take_withPage others d page
      simp only [bind, Except.bind, taken, rest]
      cases after.foldlM Draft.take d <;> rfl
  obtain ⟨d, run, first⟩ := bind_ok_iff.mp ((asked 0).symm.trans first)
  obtain ⟨d', rest, first⟩ := bind_ok_iff.mp first
  rw [asked, run]
  change (after.foldlM Draft.take d).bind _ = _
  rw [rest]
  exact Draft.finish_withPage first page

/-! ## Pages that follow -/

/-- The index of the last page of matches, which is the first if there are none. -/
def lastPage (found size : Nat) : Nat := pageCount found size - 1

theorem lt_lastPage_iff {n size i : Nat} (positive : 0 < size) :
    i < lastPage n size ↔ (i + 1) * size < n := by
  simp only [lastPage, ← lt_pageCount_iff positive]
  omega

theorem lastPage_mul_le {n size : Nat} (positive : 0 < size) : lastPage n size * size ≤ n := by
  rcases Nat.eq_zero_or_pos (lastPage n size) with none | some
  · simp [none]
  · have before : lastPage n size - 1 < lastPage n size := by omega
    have more := (lt_lastPage_iff positive).mp before
    have same : lastPage n size - 1 + 1 = lastPage n size := by omega
    simp only [same] at more
    omega

end Query

/-! ## Reading on -/

namespace Gateway

/-- What a client has read that asks for one page after the other from a given one on, as long as
another follows, but for no more pages than a limit. -/
def readOn (ask : Nat → Except Problem (Page Record)) : Nat → Nat → Except Problem (List Record)
  | 0, _ => .ok []
  | limit + 1, i =>
    match ask i with
    | .error p => .error p
    | .ok page =>
      if page.info.hasNext = some true then (readOn ask limit (i + 1)).map (page.items ++ ·)
      else .ok page.items

variable {ask : Nat → Except Problem (Page Record)}

/-- Answers that are the slices of one list, up to the last, give the rest of the list. -/
theorem readOn_slices {all : List Record} {size : Nat} (positive : 0 < size)
    (answers : ∀ i ≤ lastPage all.length size, ∃ page, ask i = .ok page ∧
      page.items = (all.drop (i * size)).take size ∧
      page.info.hasNext = some (decide ((i + 1) * size < all.length)))
    {limit i : Nat} (inside : i ≤ lastPage all.length size)
    (enough : lastPage all.length size < i + limit) :
    readOn ask limit i = .ok (all.drop (i * size)) := by
  induction limit generalizing i with
  | zero => omega
  | succ limit ih =>
    obtain ⟨page, answered, items, next⟩ := answers i inside
    by_cases more : (i + 1) * size < all.length
    · have further := (lt_lastPage_iff positive).mpr more
      have rest := ih (i := i + 1) (by omega) (by omega)
      have joined : (all.drop (i * size)).take size ++ all.drop ((i + 1) * size) =
          all.drop (i * size) := by
        simp only [Nat.succ_mul, ← List.drop_drop, List.take_append_drop]
      simp [readOn, answered, next, more, rest, items, Except.map, joined]
    · have short : (all.drop (i * size)).length ≤ size := by
        simp only [List.length_drop]
        rw [Nat.succ_mul] at more
        omega
      simp [readOn, answered, next, more, items, List.take_of_length_le short]

/-- A refusal ends the reading if all answers before say that another page follows. -/
theorem readOn_refused {k : Nat} {p : Problem}
    (answers : ∀ i < k, ∃ page, ask i = .ok page ∧ page.info.hasNext = some true)
    (refused : ask k = .error p) {limit i : Nat} (inside : i ≤ k) (enough : k < i + limit) :
    readOn ask limit i = .error p := by
  induction limit generalizing i with
  | zero => omega
  | succ limit ih =>
    rcases Nat.lt_or_eq_of_le inside with before | rfl
    · obtain ⟨page, answered, next⟩ := answers i before
      have rest := ih (i := i + 1) before (by omega)
      simp [readOn, answered, next, rest, Except.map]
    · simp [readOn, refused]

/-! ## Pages of bounded size -/

variable {s : Settings} {r : Repository} {before after : List (String × String)} {c : Criteria}

theorem toNat_sizeFor (s : Settings) (size : UInt64) : (s.sizeFor size).toNat =
    min (max size.toNat 1) (max s.maxPageSize.toNat 1) := by
  have least (a b : UInt64) : (min a b).toNat = min a.toNat b.toNat := by
    change (if a ≤ b then a else b).toNat = _
    simp only [Nat.min_def, UInt64.le_iff_toNat_le]
    split <;> rfl
  have most (a b : UInt64) : (max a b).toNat = max a.toNat b.toNat := by
    change (if a ≤ b then b else a).toNat = _
    simp only [Nat.max_def, UInt64.le_iff_toNat_le]
    split <;> rfl
  simp only [Settings.sizeFor, least, most, UInt64.toNat_one]

theorem sizeFor_pos (s : Settings) (size : UInt64) : 0 < (s.sizeFor size).toNat := by
  simp only [toNat_sizeFor]
  omega

/-- A page is refused if it is out of range by the size asked for, and is served in the size it is
cut down to otherwise. -/
theorem search_pageParams [Engine] (others : ∀ p ∈ after, p.1 ≠ "pageIndex")
    (first : Criteria.ofParams (pageParams before after 0) s.defaultPageSize = .ok c)
    (page : UInt64) : search s ⟨r, true⟩ (pageParams before after page.toNat) =
      if maxWord < page.toNat * c.size.toNat then .error (.badQuery (.pageOutOfRange page c.size))
      else .ok (r.search { c with page, size := s.sizeFor c.size }) := by
  have read := Criteria.ofParams_pageParams others first page
  by_cases outside : maxWord < page.toNat * c.size.toNat
  · simp only [if_pos outside] at read ⊢
    simp only [search, criteria, read, Except.map]
  · simp only [if_neg outside] at read ⊢
    simp only [search, criteria, read, Except.map]
    rfl

theorem length_matching_lt [Engine] (countable : r.size < 2 ^ 64) :
    (r.matching c).length < 2 ^ 64 := by
  have perm : (r.matching c).Perm (r.accepted c) := List.mergeSort_perm _ _
  have most : (r.accepted c).length ≤ r.toList.length := List.length_filter_le _ _
  have stored : r.toList.length = r.size := List.length_map _
  have length := perm.length_eq
  omega

/-- A page in range has a slice of the matches and says whether there are others behind it. -/
theorem search_inRange [Engine] (countable : r.size < 2 ^ 64)
    (others : ∀ p ∈ after, p.1 ≠ "pageIndex")
    (first : Criteria.ofParams (pageParams before after 0) s.defaultPageSize = .ok c)
    (counted : c.counted = true) {i : Nat}
    (inside : i ≤ lastPage (r.matching c).length (s.sizeFor c.size).toNat)
    (inRange : i * c.size.toNat ≤ maxWord) :
    ∃ page, search s ⟨r, true⟩ (pageParams before after i) = .ok page ∧
      page.items = ((r.matching c).drop (i * (s.sizeFor c.size).toNat)).take
        (s.sizeFor c.size).toNat ∧
      page.info.hasNext =
        some (decide ((i + 1) * (s.sizeFor c.size).toNat < (r.matching c).length)) := by
  have short : (r.matching c).length < 2 ^ 64 := length_matching_lt countable
  have positive := sizeFor_pos s c.size
  have offset : i * (s.sizeFor c.size).toNat ≤ (r.matching c).length :=
    Nat.le_trans (Nat.mul_le_mul_right _ inside) (lastPage_mul_le positive)
  have index : (UInt64.ofNat i).toNat = i := by
    have small : i ≤ i * (s.sizeFor c.size).toNat := Nat.le_mul_of_pos_right i positive
    simp only [UInt64.toNat_ofNat']
    omega
  have answered := search_pageParams (r := r) others first (UInt64.ofNat i)
  simp only [index, if_neg (Nat.not_lt.mpr inRange)] at answered
  refine ⟨_, answered, ?_, ?_⟩
  · have exact_offset : min (i * (s.sizeFor c.size).toNat) maxWord =
        i * (s.sizeFor c.size).toNat := by
      simp only [maxWord]
      omega
    simp only [Repository.items_search, index, exact_offset]
    rfl
  · have next := hasNext_slice short
      (c := { c with page := UInt64.ofNat i, size := s.sizeFor c.size }) counted
    simp only [index] at next
    exact next

/-- For a client that has the matches counted, reading a search to its end comes to all of them, each
once, if the last page is in range by the size asked for. Otherwise the first page that is not is
refused, although the page before it says that another follows. Nothing is refused if the size asked
for is not cut down. -/
theorem readOn_search [Engine] (keyed : r.records.KeyedBy Record.key) (countable : r.size < 2 ^ 64)
    (others : ∀ p ∈ after, p.1 ≠ "pageIndex")
    (first : Criteria.ofParams (pageParams before after 0) s.defaultPageSize = .ok c)
    (counted : c.counted = true) :
    let ask (i : Nat) := search s ⟨r, true⟩ (pageParams before after i)
    let found := r.accepted c
    let last := lastPage found.length (s.sizeFor c.size).toNat
    (last * c.size.toNat ≤ maxWord →
      ∃ all, (∀ limit, last < limit → readOn ask limit 0 = .ok all) ∧
        all.Perm found ∧ (all.map Record.key).Nodup) ∧
    (maxWord < last * c.size.toNat →
      ∃ page : UInt64, page.toNat ≤ last ∧ maxWord < page.toNat * c.size.toNat ∧
        (∀ i < page.toNat, ∃ answer, ask i = .ok answer ∧ answer.info.hasNext = some true) ∧
        ask page.toNat = .error (.badQuery (.pageOutOfRange page c.size)) ∧
        ∀ limit, last < limit →
          readOn ask limit 0 = .error (.badQuery (.pageOutOfRange page c.size))) ∧
    (c.size ≤ s.sizeFor c.size → last * c.size.toNat ≤ maxWord) := by
  intro ask found last
  have perm : (r.matching c).Perm found := List.mergeSort_perm found _
  have keys : (found.map Record.key).Nodup := by
    have stored : (r.toList.map Record.key).Nodup := keyed.keys_eq ▸ keyed.unique
    exact stored.sublist (List.filter_sublist.map Record.key)
  have positive := sizeFor_pos s c.size
  have short : (r.matching c).length < 2 ^ 64 := length_matching_lt countable
  have lastIs : last = lastPage (r.matching c).length (s.sizeFor c.size).toNat := by
    simp only [last, perm.length_eq]
  have behind : last * (s.sizeFor c.size).toNat ≤ (r.matching c).length :=
    lastIs ▸ lastPage_mul_le positive
  refine ⟨?_, ?_, ?_⟩
  · intro inRange
    refine ⟨r.matching c, ?_, perm, (perm.map Record.key).nodup_iff.mpr keys⟩
    intro limit enough
    have answers : ∀ i ≤ last, ∃ page, ask i = .ok page ∧ _ ∧ _ := fun i inside =>
      search_inRange countable others first counted (lastIs ▸ inside)
        (Nat.le_trans (Nat.mul_le_mul_right _ inside) inRange)
    have whole : readOn ask limit 0 = .ok ((r.matching c).drop (0 * (s.sizeFor c.size).toNat)) :=
      readOn_slices positive (lastIs ▸ answers) (Nat.zero_le _) (by omega)
    simpa using whole
  · intro outside
    have asked : 0 < c.size.toNat := Nat.pos_of_mul_pos_left (Nat.zero_lt_of_lt outside)
    obtain ⟨k, first_outside⟩ : ∃ k, k = maxWord / c.size.toNat + 1 := ⟨_, rfl⟩
    have beyond : maxWord < k * c.size.toNat := by
      simp only [first_outside, ← Nat.div_lt_iff_lt_mul asked]
      omega
    have reached : k ≤ last := by
      have below := (Nat.div_lt_iff_lt_mul asked).mpr outside
      omega
    have index : (UInt64.ofNat k).toNat = k := by
      have small : last ≤ last * (s.sizeFor c.size).toNat := Nat.le_mul_of_pos_right last positive
      simp only [UInt64.toNat_ofNat']
      omega
    have answers : ∀ i < k, ∃ page, ask i = .ok page ∧ page.info.hasNext = some true := by
      intro i before
      have inRange : i * c.size.toNat ≤ maxWord :=
        (Nat.le_div_iff_mul_le asked).mp (by omega)
      obtain ⟨page, answered, _, next⟩ := search_inRange countable others first counted
        (lastIs ▸ (show i ≤ last by omega)) inRange
      have more := (lt_lastPage_iff positive).mp (lastIs ▸ (show i < last by omega))
      exact ⟨page, answered, by simpa [more] using next⟩
    have refused : ask k = .error (.badQuery (.pageOutOfRange (UInt64.ofNat k) c.size)) := by
      have refusal := search_pageParams (r := r) others first (UInt64.ofNat k)
      simpa only [index, if_pos beyond] using refusal
    refine ⟨UInt64.ofNat k, ?_⟩
    simp only [index]
    exact ⟨reached, beyond, answers, refused, fun limit enough =>
      readOn_refused answers refused (Nat.zero_le k) (by omega)⟩
  · intro whole
    have larger := Nat.mul_le_mul_left last (UInt64.le_iff_toNat_le.mp whole)
    simp only [maxWord]
    omega

/-- Parameters of a client that has the matches counted, in pages of a given size. -/
def countedPages (size : String) : List (String × String) :=
  [("pageSize", size), ("calculateStatTotal", "true")]

theorem ofParams_countedPages {text : String} {size : UInt64}
    (read : Numeral.word? text = some size) (some : size ≠ 0) :
    Criteria.ofParams (pageParams [] (countedPages text) 0) 20 =
      .ok ⟨[], .all, [], 0, size, true⟩ := by
  have page : (Draft.start 20).take ("pageIndex", Numeral.text 0) =
      .ok { Draft.start 20 with page := 0 } := (Draft.start 20).take_page 0
  have sized (d : Draft) : d.take ("pageSize", text) = .ok { d with size } := by
    simp [Draft.take, number?, read, some, bind, Except.bind, pure, Except.pure]
  have counted (d : Draft) :
      d.take ("calculateStatTotal", "true") = .ok { d with counted := true } := rfl
  simp only [Criteria.ofParams, pageParams, countedPages, List.nil_append, foldlM_cons_of_ok page,
    foldlM_cons_of_ok (sized _), foldlM_cons_of_ok (counted _)]
  change Draft.finish ⟨0, size, .all, true, [], []⟩ = _
  have inside : (0 : UInt64).toNat * size.toNat ≤ maxWord := by
    rw [UInt64.toNat_zero, Nat.zero_mul]
    exact Nat.zero_le _
  exact Draft.finish_ok_iff.mpr ⟨inside, rfl, rfl, rfl, rfl, rfl, rfl⟩

def pagesOfAtMost (most : UInt64) : Settings := ⟨20, most, .empty, []⟩

/-- Pages of three are cut down to pages of two, and two of them have all four privileges. -/
theorem readOn_fourPrivileges :
    let ask (i : Nat) := search (pagesOfAtMost 2) ⟨Repository.fourPrivileges, true⟩
      (pageParams [] (countedPages "3") i)
    Repository.fourPrivileges.records.KeyedBy Record.key ∧
      Repository.fourPrivileges.size < 2 ^ 64 ∧
      (∀ p ∈ countedPages "3", p.1 ≠ "pageIndex") ∧
      Criteria.ofParams (pageParams [] (countedPages "3") 0) 20 =
        .ok ⟨[], .all, [], 0, 3, true⟩ ∧
      ∃ all, (∀ limit, 1 < limit → readOn ask limit 0 = .ok all) ∧
        all.Perm (Repository.fourPrivileges.accepted ⟨[], .all, [], 0, 3, true⟩) ∧
        (all.map Record.key).Nodup := by
  intro ask
  have keyed : Repository.fourPrivileges.records.KeyedBy Record.key :=
    (Repository.wellFormed_ofRecords .privilege Uuid.ofNat 0
      (by simp [Repository.fits_privilegeNumbered])).1.keyed
  have countable : Repository.fourPrivileges.size < 2 ^ 64 := by decide
  have others : ∀ p ∈ countedPages "3", p.1 ≠ "pageIndex" := by decide
  have first : Criteria.ofParams (pageParams [] (countedPages "3") 0) 20 =
      .ok ⟨[], .all, [], 0, 3, true⟩ := ofParams_countedPages (by decide) (by decide)
  have last : lastPage (Repository.fourPrivileges.accepted ⟨[], .all, [], 0, 3, true⟩).length
      ((pagesOfAtMost 2).sizeFor 3).toNat = 1 := by decide +kernel
  obtain ⟨whole, _, _⟩ :=
    readOn_search (s := pagesOfAtMost 2) keyed countable others first rfl
  simp only [last] at whole
  exact ⟨keyed, countable, others, first, whole (by decide)⟩

def threePrivileges : Repository :=
  (Repository.ofRecords .privilege Uuid.ofNat 0
    [Repository.privilegeNumbered 1 "active" none, Repository.privilegeNumbered 2 "active" none,
      Repository.privilegeNumbered 3 "active" none]).1

/-- Where a page holds one record, a client that asks for as many as a word counts is served two
pages, is told that a third follows, and is refused it. -/
theorem third_page_refused :
    let ask (i : Nat) := search (pagesOfAtMost 1) ⟨threePrivileges, true⟩
      (pageParams [] (countedPages "18446744073709551615") i)
    (∃ page, ask 0 = .ok page ∧ page.info.hasNext = some true) ∧
      (∃ page, ask 1 = .ok page ∧ page.info.hasNext = some true ∧ page.info.size = 1) ∧
      ask 2 = .error (.badQuery (.pageOutOfRange 2 18446744073709551615)) := by
  intro ask
  have others : ∀ p ∈ countedPages "18446744073709551615", p.1 ≠ "pageIndex" := by decide
  have first : Criteria.ofParams (pageParams [] (countedPages "18446744073709551615") 0) 20 =
      .ok ⟨[], .all, [], 0, 18446744073709551615, true⟩ :=
    ofParams_countedPages (by decide) (by decide)
  have answered := search_pageParams (s := pagesOfAtMost 1) (r := threePrivileges) others first
  have found (page size : UInt64) :
      (threePrivileges.matching ⟨[], .all, [], page, size, true⟩).length = 3 :=
    List.length_mergeSort _
  have next (page size : UInt64) :
      (threePrivileges.search ⟨[], .all, [], page, size, true⟩).info.hasNext =
        some (decide ((page.toNat + 1) * size.toNat < 3)) := by
    rw [Repository.search, hasNext_slice (by rw [found]; decide) rfl, found]
  exact ⟨⟨_, answered 0, next 0 _⟩, ⟨_, answered 1, next 1 _, rfl⟩, answered 2⟩

end Gateway

end BackOffice
