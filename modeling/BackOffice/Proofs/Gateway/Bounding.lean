import BackOffice.Proofs.Gateway.Paging
import BackOffice.Proofs.Query.Accepting

/-!
# Searches within bounds

Whether a page lies in range is judged by the size that is asked for, and the search is made with
that size cut down to the most that a page may hold. Cutting down only makes the offset smaller, so
a search that is made at all has its offset as it is, however small or large the sizes are that the
settings name.
-/
namespace BackOffice.Gateway

open BackOffice.Query
open BackOffice.Pattern (Engine)

variable {s : Settings} {params : Params} {c : Criteria}

/-- The criteria of a search are the ones that were asked for, but for the size of the page. -/
theorem criteria_ok_iff : criteria s params = .ok c ↔ ∃ asked,
    Criteria.ofParams params s.defaultPageSize = .ok asked ∧
      c = { asked with size := s.sizeFor asked.size } := by
  rw [criteria]
  cases Criteria.ofParams params s.defaultPageSize with
  | error fault => simp [Except.map]
  | ok asked => simp [Except.map, eq_comm]

theorem exists_criteria_iff :
    (∃ c, criteria s params = .ok c) ↔ params.Acceptable s.defaultPageSize := by
  simp only [criteria_ok_iff, ← Criteria.exists_ofParams_iff]
  constructor
  · rintro ⟨_, asked, read, _⟩
    exact ⟨asked, read⟩
  · rintro ⟨asked, read⟩
    exact ⟨_, asked, read, rfl⟩

/-- What a search is made with: a size from one up to the most that a page may hold, the one asked
for if it is not larger, and a page that lies in range by this size. -/
structure Bounded (s : Settings) (params : Params) (c : Criteria) : Prop where
  least : 1 ≤ c.size.toNat
  most : c.size.toNat ≤ max s.maxPageSize.toNat 1
  kept : (params.size s.defaultPageSize).toNat ≤ max s.maxPageSize.toNat 1 →
    c.size = params.size s.defaultPageSize
  page : c.page = params.page
  inside : c.page.toNat * c.size.toNat ≤ maxWord

theorem bounded_of_criteria (h : criteria s params = .ok c) : Bounded s params c := by
  obtain ⟨asked, read, rfl⟩ := criteria_ok_iff.mp h
  obtain ⟨w, inside, _⟩ := Criteria.of_ofParams read
  have means := Criteria.means_of_ofParams read
  have some : 0 < asked.size.toNat := size_pos w.size
  have cut := toNat_sizeFor s asked.size
  constructor
  · exact sizeFor_pos s asked.size
  · show (s.sizeFor asked.size).toNat ≤ _
    omega
  · intro small
    rw [← means.size] at small ⊢
    apply UInt64.toNat_inj.mp
    show (s.sizeFor asked.size).toNat = _
    omega
  · exact means.page
  · have smaller : (s.sizeFor asked.size).toNat ≤ asked.size.toNat := by omega
    exact Nat.le_trans (Nat.mul_le_mul_left _ smaller) inside

/-- The page of criteria whose offset is not cut down. -/
theorem window_of_search [Engine] {r : Repository}
    (inside : c.page.toNat * c.size.toNat ≤ maxWord) :
    (r.search c).info.offset.toNat = c.page.toNat * c.size.toNat ∧
      (r.search c).items = pageOf (r.matching c) c.size.toNat c.page.toNat := by
  constructor
  · exact c.offset_toNat.trans (Nat.min_eq_left inside)
  · rw [Repository.items_search, Nat.min_eq_left inside, pageOf, window_eq]

/-- Parameters are searched with exactly if they are acceptable, and then within bounds. A backend
that can be reached answers with the page that starts at the product of index and size, which it
names as the offset, and with no more records than the size. -/
theorem search_bounded [Engine] (s : Settings) (b : Backend) (params : Params) :
    ((∃ c, criteria s params = .ok c) ↔ params.Acceptable s.defaultPageSize) ∧
    (∀ c, criteria s params = .ok c → Bounded s params c) ∧
    ((∃ page, search s b params = .ok page) ↔
      b.reachable = true ∧ params.Acceptable s.defaultPageSize) ∧
    ∀ page, search s b params = .ok page → ∃ c, criteria s params = .ok c ∧
      page.info.page = c.page ∧ page.info.size = c.size ∧ page.info.limit = c.size ∧
      page.info.offset.toNat = c.page.toNat * c.size.toNat ∧
      page.items = pageOf (b.repository.matching c) c.size.toNat c.page.toNat ∧
      page.items.length ≤ c.size.toNat := by
  have answered : ∀ page, search s b params = .ok page ↔ b.reachable = true ∧
      ∃ c, criteria s params = .ok c ∧ page = b.repository.search c := by
    intro page
    rw [search]
    cases read : criteria s params with
    | error fault => simp
    | ok c =>
      cases up : b.reachable with
      | false => simp [Backend.search, Backend.ensure, up, Except.map]
      | true => simp [Backend.search, Backend.ensure, up, Except.map, eq_comm]
  refine ⟨exists_criteria_iff, fun c => bounded_of_criteria, ?_, ?_⟩
  · simp only [answered, ← exists_criteria_iff]
    constructor
    · rintro ⟨_, up, c, read, _⟩
      exact ⟨up, c, read⟩
    · rintro ⟨up, c, read⟩
      exact ⟨_, up, c, read, rfl⟩
  · intro page served
    obtain ⟨_, c, read, rfl⟩ := (answered page).mp served
    obtain ⟨offset, items⟩ := window_of_search (bounded_of_criteria read).inside
    refine ⟨c, read, rfl, rfl, rfl, offset, items, ?_⟩
    rw [items, length_pageOf]
    exact Nat.min_le_left _ _

/-- Settings by which a page is to hold nothing. -/
def pagesOfNothing : Settings := ⟨0, 0, .empty, []⟩

/-- Pages of nothing are served as pages of one. -/
theorem search_pagesOfNothing :
    let b : Backend := ⟨Repository.fourPrivileges, true⟩
    let fourth : Criteria := ⟨[], .all, [], 3, 1, false⟩
    criteria pagesOfNothing ⟨[("pageIndex", "3")]⟩ = .ok fourth ∧
      Bounded pagesOfNothing ⟨[("pageIndex", "3")]⟩ fourth ∧
      ∃ page, search pagesOfNothing b ⟨[("pageIndex", "3")]⟩ = .ok page ∧
        page.info.offset.toNat = 3 ∧ page.items = pageOf (b.repository.matching fourth) 1 3 := by
  intro b fourth
  have read : criteria pagesOfNothing ⟨[("pageIndex", "3")]⟩ = .ok fourth := by cbv
  obtain ⟨acceptable, bounded, served, answer⟩ :=
    search_bounded pagesOfNothing b ⟨[("pageIndex", "3")]⟩
  obtain ⟨page, found⟩ := served.mpr ⟨rfl, acceptable.mp ⟨fourth, read⟩⟩
  obtain ⟨c, same, _, _, _, offset, items, _⟩ := answer page found
  obtain rfl : fourth = c := Except.ok.inj (read.symm.trans same)
  exact ⟨read, bounded fourth read, page, found, offset, items⟩

end BackOffice.Gateway
