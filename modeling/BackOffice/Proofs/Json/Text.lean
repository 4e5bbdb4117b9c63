import BackOffice.Json.Reader
import BackOffice.Proofs.Number.Numeral

/-!
# Documents read back from their text

A document without numbers is read back from its text, whatever its strings are, if it nests no
deeper than the reader goes. Strings come back character by character, since what is written for one
is told from what follows it. A value is read off the beginning of a text and leaves the rest, so the
items of an array and the members of an object are read one after the other; each call that reads one
has the fuel left that the characters behind it need.
-/
namespace BackOffice.Json

/-! ## Strings -/

theorem unit?_append (rest : List Char) : ∀ {hex : List Char}, hex.length = 4 →
    unit? (hex ++ rest) = (Numeral.ofHex? hex).map fun n => (n, rest)
  | [_, _, _, _], _ => rfl

theorem escapedUnit?_hexPadded {c : Char} (control : c.toNat < 0x20) (rest : List Char) :
    escapedUnit? (Numeral.hexPadded 4 c.toNat ++ rest) = some (c, rest) := by
  have value : Numeral.ofHex? (Numeral.hexPadded 4 c.toNat) = some c.toNat :=
    Numeral.ofHex?_hexPadded (by decide) (by omega)
  have length : (Numeral.hexPadded 4 c.toNat).length = 4 := Numeral.length_hexPadded 4 _
  have low : c.toNat < 0xD800 := by omega
  simp [escapedUnit?, unit?_append rest length, value, low]

theorem readString_letter {c letter : Char} (short : escapeLetter? c = some letter) (fuel : Nat)
    (acc rest : List Char) :
    readString (fuel + 1) acc ('\\' :: letter :: rest) = readString fuel (c :: acc) rest := by
  simp only [escapeLetter?] at short
  split at short
  case h_8 => cases short
  all_goals
    cases short
    simp [readString, simpleEscape?]

/-- A character that has no letter is neither the quote nor the backslash. -/
theorem ne_of_escapeLetter?_eq_none {c : Char} (long : escapeLetter? c = none) :
    c ≠ '"' ∧ c ≠ '\\' := by
  constructor <;> rintro rfl <;> cases long

/-- A character is read back from what is written for it. -/
theorem readString_escaped (fuel : Nat) (acc : List Char) (c : Char) (rest : List Char) :
    readString (fuel + 1) acc (escaped c ++ rest) = readString fuel (c :: acc) rest := by
  simp only [escaped]
  split
  · next letter short => exact readString_letter short fuel acc rest
  · next long =>
    obtain ⟨quote, backslash⟩ := ne_of_escapeLetter?_eq_none long
    split
    · next control => simp [readString, escapedUnit?_hexPadded control]
    · next plain => simp [readString, quote, backslash, plain]

theorem readString_flatMap (s : List Char) {fuel : Nat} (enough : s.length < fuel)
    (acc rest : List Char) : readString fuel acc (s.flatMap escaped ++ '"' :: rest) =
      some (String.ofList (acc.reverse ++ s), rest) := by
  induction s generalizing fuel acc with
  | nil =>
    obtain ⟨fuel, rfl⟩ := Nat.exists_eq_add_of_lt enough
    simp [readString]
  | cons c s ih =>
    simp only [List.length_cons] at enough
    obtain ⟨fuel, rfl⟩ : ∃ left, fuel = left + 1 := ⟨fuel - 1, by omega⟩
    simp only [List.flatMap_cons, List.append_assoc, readString_escaped]
    simp [ih (show s.length < fuel by omega)]

theorem length_le_flatMap_escaped (s : List Char) : s.length ≤ (s.flatMap escaped).length := by
  have some (c : Char) : 1 ≤ (escaped c).length := by
    simp only [escaped]
    repeat' split
    all_goals simp
  induction s with
  | nil => simp
  | cons c s ih =>
    have first := some c
    simp only [List.flatMap_cons, List.length_append, List.length_cons]
    omega

theorem toList_quoted (s : String) :
    (quoted s).toList = '"' :: (s.toList.flatMap escaped ++ ['"']) := by
  simp only [quoted, String.toList_ofList, List.cons_append]

theorem readString_quoted (s : String) (rest : List Char) :
    let cs := s.toList.flatMap escaped ++ '"' :: rest
    readString (cs.length + 1) [] cs = some (s, rest) := by
  intro cs
  have enough : s.toList.length < cs.length + 1 := by
    have some := length_le_flatMap_escaped s.toList
    simp only [cs, List.length_append]
    omega
  simpa only [List.reverse_nil, List.nil_append, String.ofList_toList] using
    readString_flatMap s.toList enough [] rest

/-! ## Values -/

/-- A document without numbers that nests at most so deep. -/
inductive Within : Nat → Json → Prop
  | null {n : Nat} : Within n .null
  | bool {n : Nat} (b : Bool) : Within n (.bool b)
  | str {n : Nat} (s : String) : Within n (.str s)
  | arr {n : Nat} {items : List Json} (each : ∀ j ∈ items, Within n j) : Within (n + 1) (.arr items)
  | obj {n : Nat} {fields : List (String × Json)} (each : ∀ m ∈ fields, Within n m.2) :
      Within (n + 1) (.obj fields)

theorem Within.mono {m n : Nat} {j : Json} (h : Within m j) (deeper : m ≤ n) : Within n j := by
  induction h generalizing n with
  | null => exact .null
  | bool b => exact .bool b
  | str s => exact .str s
  | arr each ih =>
    obtain ⟨n, rfl⟩ : ∃ k, n = k + 1 := ⟨n - 1, by omega⟩
    exact .arr fun j hj => ih j hj (by omega)
  | obj each ih =>
    obtain ⟨n, rfl⟩ : ∃ k, n = k + 1 := ⟨n - 1, by omega⟩
    exact .obj fun x hx => ih x hx (by omega)

/-- A value is read off the beginning of a text that goes on in any way. -/
def ReadsOff (depth : Nat) (j : Json) : Prop :=
  ∀ (fuel : Nat) (rest : List Char), j.text.length ≤ fuel →
    readValue fuel depth (j.text.toList ++ rest) = .done j rest

/-- Texts with commas between them. -/
def joined (texts : List String) : List Char := (",".intercalate texts).toList

theorem joined_singleton (t : String) : joined [t] = t.toList := by
  simp only [joined, String.intercalate_singleton]

theorem joined_cons_cons (t u : String) (texts : List String) :
    joined (t :: u :: texts) = t.toList ++ ',' :: joined (u :: texts) := by
  simp only [joined, String.intercalate_cons_cons, String.toList_append, List.append_assoc]
  rfl

theorem toList_text_arr (items : List Json) :
    (arr items).text.toList = '[' :: (joined (itemTexts items) ++ [']']) := by
  simp only [text, joined, String.toList_append]
  rfl

theorem toList_text_obj (fields : List (String × Json)) :
    (obj fields).text.toList = '\x7b' :: (joined (fieldTexts fields) ++ ['\x7d']) := by
  simp only [text, joined, String.toList_append]
  rfl

/-- What the text of a value starts with: no blank, and no mark that ends or parts. -/
def starts : List Char := ['n', 't', 'f', '"', '[', '\x7b']

theorem head_text {n : Nat} {j : Json} (h : Within n j) :
    ∃ c cs, j.text.toList = c :: cs ∧ c ∈ starts := by
  cases h with
  | null => exact ⟨'n', _, rfl, by decide⟩
  | bool b =>
    cases b with
    | true => exact ⟨'t', _, rfl, by decide⟩
    | false => exact ⟨'f', _, rfl, by decide⟩
  | str s => exact ⟨'"', _, toList_quoted s, by decide⟩
  | arr each => exact ⟨'[', _, toList_text_arr _, by decide⟩
  | obj each => exact ⟨'\x7b', _, toList_text_obj _, by decide⟩

theorem exists_fuel {n fuel : Nat} {j : Json} (h : Within n j) (enough : j.text.length ≤ fuel) :
    ∃ left, fuel = left + 1 := by
  obtain ⟨c, cs, head, _⟩ := head_text h
  rw [← String.length_toList, head, List.length_cons] at enough
  exact ⟨fuel - 1, by omega⟩

theorem skipSpace_cons {c : Char} (mark : c ∈ starts ++ [',', ':', ']', '\x7d']) (cs : List Char) :
    skipSpace (c :: cs) = c :: cs := by
  simp only [starts, List.cons_append, List.nil_append, List.mem_cons, List.not_mem_nil,
    or_false] at mark
  rcases mark with rfl | rfl | rfl | rfl | rfl | rfl | rfl | rfl | rfl | rfl <;> rfl

/-- The items of an array are read one after the other. -/
theorem readItems_joined {n : Nat} {items : List Json} {j : Json}
    (each : ∀ x ∈ j :: items, ReadsOff n x) {fuel : Nat}
    (enough : (joined (itemTexts (j :: items))).length < fuel) (acc : List Json)
    (rest : List Char) : readItems fuel n acc (joined (itemTexts (j :: items)) ++ ']' :: rest) =
      .done (arr (acc.reverse ++ j :: items)) rest := by
  induction items generalizing j fuel acc with
  | nil =>
    obtain ⟨fuel, rfl⟩ : ∃ left, fuel = left + 1 := ⟨fuel - 1, by omega⟩
    simp only [itemTexts, joined_singleton, String.length_toList] at enough ⊢
    have first := each j List.mem_cons_self fuel (']' :: rest) (by omega)
    simp (disch := decide) only [readItems, first, skipSpace_cons, List.reverse_cons]
  | cons k items ih =>
    obtain ⟨fuel, rfl⟩ : ∃ left, fuel = left + 1 := ⟨fuel - 1, by omega⟩
    simp only [itemTexts, joined_cons_cons, List.length_append, List.length_cons,
      String.length_toList, List.append_assoc, List.cons_append] at enough ih ⊢
    have first := each j List.mem_cons_self fuel
      (',' :: (joined (k.text :: itemTexts items) ++ ']' :: rest)) (by omega)
    have others := @ih k (fun x hx => each x (List.mem_cons_of_mem _ hx)) fuel (by omega) (j :: acc)
    simp (disch := decide) only [readItems, first, skipSpace_cons, others, List.reverse_cons,
      List.append_assoc, List.singleton_append]

theorem toList_member (key : String) (j : Json) :
    (quoted key ++ ":" ++ j.text).toList =
      '"' :: (key.toList.flatMap escaped ++ '"' :: ':' :: j.text.toList) := by
  simp [String.toList_append, toList_quoted]

/-- The members of an object are read one after the other. -/
theorem readFields_joined {n : Nat} {fields : List (String × Json)} {m : String × Json}
    (each : ∀ x ∈ m :: fields, ReadsOff n x.2) {fuel : Nat}
    (enough : (joined (fieldTexts (m :: fields))).length < fuel) (acc : List (String × Json))
    (rest : List Char) :
    readFields fuel n acc (joined (fieldTexts (m :: fields)) ++ '\x7d' :: rest) =
      .done (obj (acc.reverse ++ m :: fields)) rest := by
  induction fields generalizing m fuel acc with
  | nil =>
    obtain ⟨fuel, rfl⟩ : ∃ left, fuel = left + 1 := ⟨fuel - 1, by omega⟩
    obtain ⟨key, j⟩ := m
    simp only [fieldTexts, joined_singleton, List.length_append, List.length_cons,
      String.length_toList, List.append_assoc, List.cons_append, toList_member] at enough ⊢
    have name := readString_quoted key (':' :: (j.text.toList ++ '\x7d' :: rest))
    have value := each (key, j) List.mem_cons_self fuel ('\x7d' :: rest)
      (show j.text.length ≤ fuel by omega)
    simp only at name value
    simp (disch := decide) only [readFields, name, skipSpace_cons, value, List.reverse_cons]
  | cons k fields ih =>
    obtain ⟨fuel, rfl⟩ : ∃ left, fuel = left + 1 := ⟨fuel - 1, by omega⟩
    obtain ⟨key, j⟩ := m
    simp only [fieldTexts, joined_cons_cons, List.length_append, List.length_cons,
      String.length_toList, List.append_assoc, List.cons_append, toList_member] at enough ih ⊢
    have name := readString_quoted key (':' :: (j.text.toList ++
      ',' :: (joined ((quoted k.1 ++ ":" ++ k.2.text) :: fieldTexts fields) ++ '\x7d' :: rest)))
    have value := each (key, j) List.mem_cons_self fuel
      (',' :: (joined ((quoted k.1 ++ ":" ++ k.2.text) :: fieldTexts fields) ++ '\x7d' :: rest))
      (show j.text.length ≤ fuel by omega)
    have others := @ih k (fun x hx => each x (List.mem_cons_of_mem _ hx)) fuel (by omega)
      ((key, j) :: acc)
    simp only at name value
    simp (disch := decide) only [readFields, name, skipSpace_cons, value, others,
      List.reverse_cons, List.append_assoc, List.singleton_append]

theorem head_joined {t : String} {c : Char} {cs : List Char} (head : t.toList = c :: cs)
    (texts : List String) : ∃ ds, joined (t :: texts) = c :: ds := by
  cases texts with
  | nil => exact ⟨cs, by rw [joined_singleton, head]⟩
  | cons u texts => exact ⟨_, by rw [joined_cons_cons, head, List.cons_append]⟩

theorem readValue_bracket {fuel n : Nat} {c : Char} {cs ds : List Char}
    (skip : skipSpace cs = c :: ds) (other : c ≠ ']') :
    readValue (fuel + 1) (n + 1) ('[' :: cs) = readItems fuel n [] (c :: ds) := by
  have bracket : skipSpace ('[' :: cs) = '[' :: cs := skipSpace_cons (by decide) cs
  have digit : Numeral.isDigit '[' = false := by decide
  simp only [readValue, bracket, digit, skip]
  simp [other]

theorem readValue_brace {fuel n : Nat} {c : Char} {cs ds : List Char}
    (skip : skipSpace cs = c :: ds) (other : c ≠ '\x7d') :
    readValue (fuel + 1) (n + 1) ('\x7b' :: cs) = readFields fuel n [] (c :: ds) := by
  have brace : skipSpace ('\x7b' :: cs) = '\x7b' :: cs := skipSpace_cons (by decide) cs
  have digit : Numeral.isDigit '\x7b' = false := by decide
  simp only [readValue, brace, digit, skip]
  simp [other]

theorem readsOff_arr {n : Nat} {items : List Json} (within : ∀ j ∈ items, Within n j)
    (each : ∀ j ∈ items, ReadsOff n j) : ReadsOff (n + 1) (arr items) := by
  intro fuel rest enough
  simp only [← String.length_toList, toList_text_arr, List.length_cons, List.length_append]
    at enough ⊢
  obtain ⟨fuel, rfl⟩ : ∃ left, fuel = left + 1 := ⟨fuel - 1, by omega⟩
  cases items with
  | nil => rfl
  | cons j items =>
    have read := @readItems_joined n items j each fuel (by omega) [] rest
    obtain ⟨c, cs, head, start⟩ := head_text (within j List.mem_cons_self)
    obtain ⟨ds, head⟩ := head_joined head (itemTexts items)
    simp only [itemTexts, head, List.cons_append, List.append_assoc, List.nil_append,
      List.reverse_nil] at read ⊢
    have skip := skipSpace_cons (List.mem_append_left _ start) (ds ++ ']' :: rest)
    have other : c ≠ ']' := by
      rintro rfl
      exact absurd start (by decide)
    rw [readValue_bracket skip other, read]

theorem readsOff_obj {n : Nat} {fields : List (String × Json)}
    (each : ∀ m ∈ fields, ReadsOff n m.2) : ReadsOff (n + 1) (obj fields) := by
  intro fuel rest enough
  simp only [← String.length_toList, toList_text_obj, List.length_cons, List.length_append]
    at enough ⊢
  obtain ⟨fuel, rfl⟩ : ∃ left, fuel = left + 1 := ⟨fuel - 1, by omega⟩
  cases fields with
  | nil => rfl
  | cons m fields =>
    have read := @readFields_joined n fields m each fuel (by omega) [] rest
    obtain ⟨ds, head⟩ := head_joined (toList_member m.1 m.2) (fieldTexts fields)
    simp only [fieldTexts, head, List.cons_append, List.append_assoc, List.nil_append,
      List.reverse_nil] at read ⊢
    rw [readValue_brace (skipSpace_cons (by decide) _) (by decide), read]

/-- Values are read off whatever follows them, by induction on how they nest. -/
theorem Within.readsOff {n : Nat} {j : Json} (h : Within n j) : ReadsOff n j := by
  induction h with
  | @null n =>
    intro fuel rest enough
    obtain ⟨fuel, rfl⟩ := exists_fuel (@null n) enough
    rfl
  | @bool n b =>
    intro fuel rest enough
    obtain ⟨fuel, rfl⟩ := exists_fuel (@bool n b) enough
    cases b <;> rfl
  | @str n s =>
    intro fuel rest enough
    obtain ⟨fuel, rfl⟩ := exists_fuel (@str n s) enough
    have read := readString_quoted s rest
    simp only at read
    simp (disch := decide) only [text, toList_quoted, readValue, List.cons_append,
      List.append_assoc, List.nil_append, skipSpace_cons, read, if_true, ofScalar, Option.map_some]
  | arr each ih => exact readsOff_arr each ih
  | obj each ih => exact readsOff_obj ih

/-- A document without numbers that nests no deeper than the reader goes is read back from its
text. -/
theorem readOne_text {j : Json} (h : Within 127 j) : readOne j.text = .done j [] := by
  have read := h.readsOff (2 * j.text.length + 2) [] (by omega)
  rwa [List.append_nil] at read

theorem ofText?_text {j : Json} (h : Within 127 j) : ofText? j.text = some j := by
  rw [ofText?, readOne_text h]
  rfl

end BackOffice.Json
