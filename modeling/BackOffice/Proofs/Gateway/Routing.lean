import BackOffice.Gateway.Basic
import BackOffice.Proofs.OrderedMap
import BackOffice.Proofs.Uuid
import BackOffice.Record.Bundled

/-!
# Where paths lead

The paths of the records of a schema lead to its backend, and the path of a record gives its
identifier back. This needs that no two backends answer to one plural, that no plural is the name of
a page and that none has a slash in it. The text of an identifier is no other word that may stand
behind a plural, since no such word reads as an identifier.
-/
namespace BackOffice

namespace Text.Percent

/-! ## Text without percent signs -/

theorem toList_loop (bs : ByteArray) (i : Nat) (taken : List UInt8) :
    ByteArray.toList.loop bs i taken = taken.reverse ++ bs.data.toList.drop i := by
  fun_induction ByteArray.toList.loop bs i taken with
  | case1 i taken inside ih =>
    have here : i < bs.data.toList.length := inside
    have head : bs.get! i = bs.data.toList[i] := by simp [ByteArray.get!, inside]
    rw [ih, List.drop_eq_getElem_cons here, head]
    simp only [List.reverse_cons, List.append_assoc, List.singleton_append]
  | case2 i taken outside =>
    have past : bs.data.toList.length ≤ i := Nat.not_lt.mp outside
    simp only [List.drop_of_length_le past, List.append_nil]

theorem bytesOf_eq (c : Char) : bytesOf c = String.utf8EncodeChar c := by
  have single : c.toString.toUTF8 = (String.utf8EncodeChar c).toByteArray := by
    simp [Char.toString, List.utf8Encode]
  simp only [bytesOf, single, ByteArray.toList, toList_loop, List.data_toByteArray,
    List.reverse_nil, List.nil_append, List.drop_zero]

theorem bytes_of_plain {cs : List Char} (plain : '%' ∉ cs) :
    bytes cs = cs.flatMap String.utf8EncodeChar := by
  induction cs with
  | nil => rfl
  | cons c cs ih =>
    simp only [List.mem_cons, not_or] at plain
    have first : bytes (c :: cs) = bytesOf c ++ bytes cs := by
      rw [bytes]
      exact fun sign => plain.1 sign.symm
    simp only [first, bytesOf_eq, ih plain.2, List.flatMap_cons]

/-- Text without percent signs stands for itself. -/
theorem decodeText?_of_plain {s : String} (plain : '%' ∉ s.toList) : decodeText? s = some s := by
  have encoded : ⟨(s.toList.flatMap String.utf8EncodeChar).toArray⟩ = s.toByteArray := by
    apply ByteArray.ext
    simp only [← String.utf8Encode_toList, List.utf8Encode, List.data_toByteArray]
  simp only [decodeText?, ofUtf8?, bytes_of_plain plain, encoded, String.fromUTF8?,
    dif_pos s.isValidUTF8]
  rfl

end Text.Percent

namespace Uuid

theorem mem_hyphenated {hex : List Char} {c : Char} (h : c ∈ hyphenated hex) : c = '-' ∨ c ∈ hex := by
  have inside {n : Nat} (hc : c ∈ (hex.drop n).take 4) : c ∈ hex :=
    List.mem_of_mem_drop (List.mem_of_mem_take hc)
  simp only [hyphenated, List.mem_append, List.mem_cons] at h
  rcases h with h | rfl | h | rfl | h | rfl | h | rfl | h
  · exact .inr (List.mem_of_mem_take h)
  · exact .inl rfl
  · exact .inr (inside h)
  · exact .inl rfl
  · exact .inr (inside h)
  · exact .inl rfl
  · exact .inr (inside h)
  · exact .inl rfl
  · exact .inr (List.mem_of_mem_drop h)

/-- The text of an identifier has neither slashes nor percent signs. -/
theorem ne_of_mem_text {u : Uuid} {c : Char} (h : c ∈ u.text.toList) : c ≠ '/' ∧ c ≠ '%' := by
  have all : ∀ d < 16, Numeral.hexChar d ≠ '/' ∧ Numeral.hexChar d ≠ '%' := by decide
  simp only [text, String.toList_ofList] at h
  rcases mem_hyphenated h with rfl | digit
  · decide
  · obtain ⟨d, small, rfl⟩ := hexChar_of_mem_hexPadded digit
    exact all d small

end Uuid

namespace Gateway

/-! ## Parts of a path -/

theorem splitAt_of_not_mem {mark : Char} {cs : List Char} (h : mark ∉ cs) :
    splitAt mark cs = [cs] := by
  induction cs with
  | nil => rfl
  | cons c cs ih =>
    simp only [List.mem_cons, not_or] at h
    simp [splitAt, ih h.2, Ne.symm h.1]

theorem splitAt_ne_nil (mark : Char) (cs : List Char) : splitAt mark cs ≠ [] := by
  cases cs with
  | nil => simp [splitAt]
  | cons c cs =>
    simp only [splitAt]
    split
    · split <;> simp
    · simp

theorem splitAt_mark (mark : Char) (rest : List Char) :
    splitAt mark (mark :: rest) = [] :: splitAt mark rest := by
  obtain ⟨part, parts, split⟩ := List.exists_cons_of_ne_nil (splitAt_ne_nil mark rest)
  simp [splitAt, split]

theorem splitAt_append {mark : Char} {cs : List Char} (h : mark ∉ cs) (rest : List Char) :
    splitAt mark (cs ++ mark :: rest) = cs :: splitAt mark rest := by
  induction cs with
  | nil => exact splitAt_mark mark rest
  | cons c cs ih =>
    simp only [List.mem_cons, not_or] at h
    simp [splitAt, ih h.2, Ne.symm h.1]

/-- The identifier of a path is the one that was written in it. -/
theorem readId?_text (id : Uuid) : readId? id.text = some id := by
  have plain : '%' ∉ id.text.toList := fun h => (Uuid.ne_of_mem_text h).2 rfl
  simp only [readId?, Text.Percent.decodeText?_of_plain plain, Option.bind_some, Uuid.ofText?_text]

/-- No other word behind a plural reads as an identifier. -/
theorem text_ne_of_unread {id : Uuid} {word : String} (unread : Uuid.ofText? word = none) :
    id.text ≠ word := by
  rintro rfl
  simp [Uuid.ofText?_text] at unread

/-! ## Paths of records -/

/-- The path under which records of a schema are saved. -/
def recordsPath (s : Schema) : List Char := '/' :: s.plural.toList

/-- The path of one record. -/
def recordPath (s : Schema) (id : Uuid) : List Char :=
  '/' :: (s.plural.toList ++ '/' :: id.text.toList)

/-- What the paths of records need of a plural. -/
structure PlainPlural (plural : String) : Prop where
  unslashed : '/' ∉ plural.toList
  noPage : plural ≠ "health" ∧ plural ≠ "healthz"

theorem plainPlural_of_bundled {s : Schema} (bundled : s ∈ Schema.bundled) :
    PlainPlural s.plural := by
  have all : ∀ plural ∈ Schema.bundled.map (·.plural),
      '/' ∉ plural.toList ∧ plural ≠ "health" ∧ plural ≠ "healthz" := by decide
  obtain ⟨unslashed, noPage⟩ := all s.plural (List.mem_map_of_mem bundled)
  exact ⟨unslashed, noPage⟩

theorem segments_records {s : Schema} (plain : PlainPlural s.plural) {r : Request}
    (path : r.path = recordsPath s) : r.segments = ["", s.plural] := by
  have parts : splitAt '/' (recordsPath s) = [[], s.plural.toList] := by
    simp only [recordsPath, splitAt_mark, splitAt_of_not_mem plain.unslashed]
  simp [Request.segments, path, parts]

theorem segments_record {s : Schema} (plain : PlainPlural s.plural) {id : Uuid} {r : Request}
    (path : r.path = recordPath s id) : r.segments = ["", s.plural, id.text] := by
  have unslashed : '/' ∉ id.text.toList := fun h => (Uuid.ne_of_mem_text h).1 rfl
  have parts : splitAt '/' (recordPath s id) = [[], s.plural.toList, id.text.toList] := by
    simp only [recordPath, splitAt_mark, splitAt_append plain.unslashed,
      splitAt_of_not_mem unslashed]
  simp [Request.segments, path, parts]

variable {g : Gateway} {s : Schema} {b : Backend} {r : Request}

/-- The pages that every gateway has. -/
def HasPages (g : Gateway) : Prop := g.pages.map (·.1) = ["/health", "/healthz"]

theorem lookup_page_eq_none (pages : g.HasPages)
    (other : r.segments ≠ ["", "health"] ∧ r.segments ≠ ["", "healthz"]) :
    g.pages.lookup (String.ofList r.path) = none := by
  simp only [List.lookup_eq_none_iff, bne_iff_ne]
  intro page hp equal
  have path : r.path = page.1.toList := by simp [← equal]
  have known : page.1 ∈ ["/health", "/healthz"] := pages ▸ List.mem_map_of_mem hp
  simp only [List.mem_cons, List.not_mem_nil, or_false] at known
  rcases known with same | same
  · exact other.1 (by simp only [Request.segments, path, same]; decide)
  · exact other.2 (by simp only [Request.segments, path, same]; decide)

theorem place?_records (pages : g.HasPages) (plain : PlainPlural s.plural)
    (resource : g.resource? s.plural = some b) (path : r.path = recordsPath s) :
    g.place? r = some (.records b) := by
  have parts := segments_records plain path
  have none := lookup_page_eq_none (r := r) pages (by simp [parts, plain.noPage])
  simp only [place?, none, parts, resource, Option.map_some]

theorem place?_record (pages : g.HasPages) (plain : PlainPlural s.plural)
    (resource : g.resource? s.plural = some b) {id : Uuid} (path : r.path = recordPath s id) :
    g.place? r = some (.record b id.text) := by
  have parts := segments_record plain path
  have none := lookup_page_eq_none (r := r) pages (by simp [parts])
  have named : id.text ≠ "" := text_ne_of_unread (by decide)
  have search : id.text ≠ "search" := text_ne_of_unread (by decide)
  have associations : id.text ≠ "associations" := text_ne_of_unread (by decide)
  simp only [place?, none, parts, resource, Option.map_some, String.isEmpty_iff, named, if_false,
    placeIn, search, associations]

end Gateway

end BackOffice
