import BackOffice.Proofs.Number.Numeral
import BackOffice.Uuid

/-!
# Identifiers read back

The written form of an identifier is read as that identifier, and as none of the other forms that
the reader knows: it starts with a hexadecimal digit, so neither with a brace nor with `urn:uuid:`.
-/
namespace BackOffice.Uuid

open BackOffice.Numeral

theorem hexChar_of_mem_hexPadded {width n : Nat} {c : Char} (h : c ∈ hexPadded width n) :
    ∃ d < 16, c = hexChar d := by
  induction width generalizing n with
  | zero => cases h
  | succ width ih =>
    rw [hexPadded, List.mem_append, List.mem_singleton] at h
    rcases h with front | last
    · exact ih front
    · exact ⟨n % 16, Nat.mod_lt n (by decide), last⟩

/-- What a hexadecimal digit is not. -/
theorem hexChar_ne {d : Nat} (small : d < 16) :
    hexChar d ≠ '-' ∧ hexChar d ≠ '\x7b' ∧ (hexChar d).toLower ≠ 'u' := by
  have all : ∀ d < 16, hexChar d ≠ '-' ∧ hexChar d ≠ '\x7b' ∧ (hexChar d).toLower ≠ 'u' := by
    decide
  exact all d small

theorem filter_hyphenated {hex : List Char} (h : ∀ c ∈ hex, c ≠ '-') :
    (hyphenated hex).filter (· != '-') = hex := by
  have kept {part : List Char} (inside : part ⊆ hex) : part.filter (· != '-') = part :=
    List.filter_eq_self.mpr fun c hc => bne_iff_ne.mpr (h c (inside hc))
  have hyphen (rest : List Char) : ('-' :: rest).filter (· != '-') = rest.filter (· != '-') := rfl
  have inside (n : Nat) : (hex.drop n).take 4 ⊆ hex := fun c hc =>
    List.mem_of_mem_drop (List.mem_of_mem_take hc)
  have group (n : Nat) : (hex.drop n).take 4 ++ hex.drop (n + 4) = hex.drop n := by
    rw [← List.drop_drop, List.take_append_drop]
  rw [hyphenated]
  simp only [List.filter_append, hyphen]
  rw [kept (List.take_subset 8 hex), kept (inside 8), kept (inside 12), kept (inside 16),
    kept (List.drop_subset 20 hex), group 16, group 12, group 8, List.take_append_drop]

theorem length_hyphenated {hex : List Char} (h : hex.length = 32) :
    (hyphenated hex).length = 36 := by
  simp only [hyphenated, List.length_append, List.length_cons, List.length_take,
    List.length_drop, h]
  decide

theorem ofHyphenated?_hyphenated {hex : List Char} (length : hex.length = 32)
    (noHyphen : ∀ c ∈ hex, c ≠ '-') : ofHyphenated? (hyphenated hex) = ofHex? hex := by
  rw [ofHyphenated?, withoutHyphens?, filter_hyphenated noHyphen]
  exact congrArg (Option.bind · ofHex?) (if_pos ⟨length_hyphenated length, rfl⟩)

/-- What starts neither with a brace nor with a word is one of the two bare forms. -/
theorem ofChars?_bare {c : Char} {cs : List Char} (brace : c ≠ '\x7b') (word : c.toLower ≠ 'u') :
    ofChars? (c :: cs) =
      if (c :: cs).length = 32 then ofHex? (c :: cs) else ofHyphenated? (c :: cs) := by
  rw [ofChars?]
  · have noLead : ¬((c :: cs).take urnLead.length).map Char.toLower = urnLead := by
      intro same
      exact word (List.cons.inj same).1
    rw [if_neg noLead]
  · rintro inner ⟨⟩
    exact brace rfl

/-- The text of an identifier is read as it. -/
theorem ofText?_text (u : Uuid) : ofText? u.text = some u := by
  obtain ⟨hex, written⟩ : ∃ hex, hexPadded 32 u.bits.toNat = hex := ⟨_, rfl⟩
  have length : hex.length = 32 := written ▸ length_hexPadded 32 _
  have digits : ∀ c ∈ hex, ∃ d < 16, c = hexChar d := fun c hc =>
    hexChar_of_mem_hexPadded (written ▸ hc)
  have noHyphen : ∀ c ∈ hex, c ≠ '-' := by
    intro c hc
    obtain ⟨d, small, rfl⟩ := digits c hc
    exact (hexChar_ne small).1
  have value : ofHex? hex = some u := by
    have number : Numeral.ofHex? hex = some u.bits.toNat := by
      rw [← written, ofHex?_hexPadded (by decide) u.bits.isLt]
    rw [ofHex?, if_pos length, number, Option.map_some, ofNat, BitVec.ofNat_toNat,
      BitVec.setWidth_eq]
  obtain ⟨c, cs, rfl⟩ := List.exists_cons_of_length_pos (l := hex) (by omega)
  obtain ⟨d, small, rfl⟩ := digits c List.mem_cons_self
  obtain ⟨_, brace, word⟩ := hexChar_ne small
  have long : (hyphenated (hexChar d :: cs)).length ≠ 32 := by
    rw [length_hyphenated length]
    decide
  rw [ofText?, text, String.toList_ofList, written]
  calc ofChars? (hyphenated (hexChar d :: cs))
      = ofHyphenated? (hyphenated (hexChar d :: cs)) :=
        (ofChars?_bare brace word).trans (if_neg long)
    _ = ofHex? (hexChar d :: cs) := ofHyphenated?_hyphenated length noHyphen
    _ = some u := value

end BackOffice.Uuid
