import BackOffice.Query.Criteria
import BackOffice.Json.Members

/-!
# Pages of results

One page of a list of matches, with what is known about its place among the others.
-/
namespace BackOffice.Query

structure Meta where
  page : UInt64
  size : UInt64
  total : Option UInt64
  offset : UInt64
  limit : UInt64
  counted : Bool
deriving DecidableEq

structure Page (α : Type) where
  items : List α
  info : Meta

namespace Meta

/-- The number of pages, where the total is known. -/
def totalPages (m : Meta) : Option Nat :=
  let size := max m.size.toNat 1
  m.total.map fun total => (total.toNat + size - 1) / size

/-- Whether a page follows, where the total is known. -/
def hasNext (m : Meta) : Option Bool :=
  m.total.map fun total => min (m.offset.toNat + m.limit.toNat) maxWord < total.toNat

def toJson (m : Meta) : Json :=
  let total :=
    match m.total with
    | some n => [("total", Json.nat n.toNat)]
    | none => []
  .obj <| [("pageIndex", .nat m.page.toNat), ("pageSize", .nat m.size.toNat)] ++ total ++
    [("offset", .nat m.offset.toNat), ("limit", .nat m.limit.toNat),
      ("calculateStatTotal", .bool m.counted)]

def ofJson? (j : Json) : Option Meta :=
  match j.members? ["pageIndex", "pageSize", "total", "offset", "limit", "calculateStatTotal"] with
  | some [some page, some size, total, some offset, some limit, counted] => do
    let total ← Json.optional? Json.word? total
    let counted ← Json.orDefault Json.bool? false counted
    some ⟨← page.word?, ← size.word?, total, ← offset.word?, ← limit.word?, counted⟩
  | _ => none

end Meta

namespace Page

/-- The page that the criteria ask for, out of all matches in order. -/
def slice {α : Type} (all : List α) (c : Criteria) : Page α :=
  ⟨(all.drop c.offset.toNat).take c.size.toNat,
    { page := c.page
      size := c.size
      total := if c.counted then some (UInt64.ofNat all.length) else none
      offset := c.offset
      limit := c.size
      counted := c.counted }⟩

def toJson {α : Type} (write : α → Json) (p : Page α) : Json :=
  .obj [("data", .arr (p.items.map write)), ("searchInfos", p.info.toJson)]

end Page

end BackOffice.Query
