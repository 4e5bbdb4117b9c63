import BackOffice.Proofs.Query.Cutting
import BackOffice.Proofs.Text.Lowering

/-!
# Patterns without wildcards

A pattern without wildcards is sought in the text once both are lower-cased; between two `%` the same
letters are sought one by one up to case. The two differ where lower-casing looks at the neighbours of
a letter or makes two characters of it, and where letters that are equal up to case have no lower-case
form in common. Otherwise they agree.
-/
namespace BackOffice.Query

open BackOffice.Pattern BackOffice.Text

variable {part ps cs : List Char} {p c : String}

theorem standsIn_iff : standsIn part cs = true ↔ part <:+: cs := by
  induction cs with
  | nil => rw [standsIn, List.isEmpty_iff, List.infix_nil]
  | cons c cs ih =>
    rw [standsIn, Bool.or_eq_true, List.isPrefixOf_iff_prefix, ih, List.infix_cons_iff]

theorem isLike_plain [Engine] (plain : p.toList.any isWildcard = false) :
    isLike p c = true ↔ lowercase p.toList <:+: lowercase c.toList := by
  rw [isLike, plain, if_neg Bool.false_ne_true, standsIn_iff]

theorem fits_plain (plain : ps.any isWildcard = false) :
    Fits ps cs ↔ ps.map foldChar = cs.map foldChar := by
  induction ps generalizing cs with
  | nil => rw [fits_nil, List.map_nil, eq_comm (a := []), List.map_eq_nil_iff]
  | cons p ps ih =>
    simp only [List.any_cons, isWildcard, Bool.or_eq_false_iff, beq_eq_false_iff_ne] at plain
    obtain ⟨⟨many, one⟩, others⟩ := plain
    simp only [fits_char_cons many, answers, Bool.or_eq_true, beq_iff_eq, one, false_or, ih others,
      sameUpToCase]
    cases cs with
    | nil => simp
    | cons c cs => simp

theorem forall₂_sameUpToCase_iff : List.Forall₂ (sameUpToCase · · = true) ps cs ↔
    ps.map foldChar = cs.map foldChar := by
  rw [← List.forall₂_eq_eq_eq, List.forall₂_map_left_iff, List.forall₂_map_right_iff]
  simp only [sameUpToCase, beq_iff_eq]

/-- Between two `%` the letters of a pattern are sought one by one. -/
theorem fits_between (plain : ps.any isWildcard = false) :
    Fits ('%' :: (ps ++ ['%'])) cs ↔ ps.map foldChar <:+: cs.map foldChar := by
  rw [fits_cons, List.infix_map_iff]
  simp only [fits_append, fits_plain plain]
  constructor
  · rintro ⟨front, _, whole, _, part, back, rfl, same, _⟩
    exact ⟨part, ⟨front, back, by rw [whole, List.append_assoc]⟩, same⟩
  · rintro ⟨part, ⟨front, back, whole⟩, same⟩
    exact ⟨front, part ++ back, by rw [← whole, List.append_assoc], .inl rfl, part, back, rfl, same,
      [back], .cons (.inl rfl) .nil, List.append_nil back⟩

theorem isLike_between [Engine] (plain : p.toList.any isWildcard = false) :
    isLike ("%" ++ p ++ "%") c = true ↔ Engine.compiles (generalText ("%" ++ p ++ "%")) = true ∧
      p.toList.map foldChar <:+: c.toList.map foldChar := by
  have letters : ("%" ++ p ++ "%").toList = '%' :: (p.toList ++ ['%']) := by simp
  rw [isLike_of_wild (by rw [letters]; rfl), letters, fits_between plain]

/-- In ASCII text without an s or a k, the only letters that ones from elsewhere are equal to up to case,
every pattern without wildcards is sought letter by letter. -/
theorem isLike_plain_of_ascii [Engine] (plain : p.toList.any isWildcard = false)
    (ascii : ∀ b ∈ c.toList, b.toNat < 0x80 ∧ b.toLower ≠ 's' ∧ b.toLower ≠ 'k') :
    isLike p c = true ↔ p.toList.map foldChar <:+: c.toList.map foldChar := by
  have inAscii : ∀ b ∈ c.toList, b.toNat < 0x80 := fun b hb => (ascii b hb).1
  have hc : LowersByLetter c.toList := lowersByLetter_of_ascii inAscii
  rw [isLike_plain plain]
  constructor
  · intro sought
    -- the dot would have to stand in the text, lower-cased, which is in ASCII
    have undotted : '\u0130' ∉ p.toList := by
      intro dotted
      have dot := sought.subset (dot_mem_lowerFrom dotted)
      rw [hc.lowercase_eq, map_lowerChar_of_ascii inAscii] at dot
      obtain ⟨b, hb, image⟩ := List.mem_map.mp dot
      have beyond := toNat_foldChar_lt (inAscii b hb)
      rw [image] at beyond
      exact absurd beyond (by decide)
    have folded := sought.map foldChar
    rwa [lowercase, lowercase, map_foldChar_lowerFrom undotted, map_foldChar_lowerFrom hc.1] at folded
  · intro sought
    have hp : ∀ a ∈ p.toList, a.toNat < 0x80 := by
      intro a ha
      obtain ⟨b, hb, same⟩ := List.mem_map.mp (sought.subset (List.mem_map_of_mem ha))
      obtain ⟨inside, notS, notK⟩ := ascii b hb
      rw [← foldChar_of_toNat_lt inside, same] at notS notK
      exact toNat_lt_of_foldChar (same ▸ toNat_foldChar_lt inside) notS notK
    rwa [(lowersByLetter_of_ascii hp).lowercase_eq, hc.lowercase_eq, map_lowerChar_of_ascii hp,
      map_lowerChar_of_ascii inAscii]

/-- Letters of the two texts that are equal up to case have one lower-case form. -/
def LowerAlike (ps cs : List Char) : Prop :=
  ∀ a ∈ ps, ∀ b ∈ cs, sameUpToCase a b = true → lowerChar a = lowerChar b

theorem foldChar_eq_of_lowerChar {a b : Char} (ha : a ≠ '\u0130') (hb : b ≠ '\u0130')
    (same : lowerChar a = lowerChar b) : foldChar a = foldChar b := by
  rw [← foldChar_lowerChar ha, same, foldChar_lowerChar hb]

theorem LowerAlike.map_eq_iff (alike : LowerAlike ps cs) (hp : '\u0130' ∉ ps) (hc : '\u0130' ∉ cs) :
    ps.map lowerChar = cs.map lowerChar ↔ ps.map foldChar = cs.map foldChar := by
  induction ps generalizing cs with
  | nil => cases cs <;> simp
  | cons a ps ih =>
    cases cs with
    | nil => simp
    | cons b cs =>
      have others := ih (fun x hx y hy => alike x (List.mem_cons_of_mem _ hx) y
        (List.mem_cons_of_mem _ hy)) (fun h => hp (List.mem_cons_of_mem _ h))
        fun h => hc (List.mem_cons_of_mem _ h)
      have first : lowerChar a = lowerChar b ↔ foldChar a = foldChar b := by
        constructor
        · exact foldChar_eq_of_lowerChar (fun h => hp (h ▸ List.mem_cons_self))
            fun h => hc (h ▸ List.mem_cons_self)
        · intro same
          exact alike a List.mem_cons_self b List.mem_cons_self (beq_iff_eq.mpr same)
      rw [List.map_cons, List.map_cons, List.map_cons, List.map_cons, List.cons_eq_cons,
        List.cons_eq_cons, first, others]

theorem lowerAlike_of_ascii (hp : ∀ a ∈ ps, a.toNat < 0x80) (hc : ∀ b ∈ cs, b.toNat < 0x80) :
    LowerAlike ps cs := by
  intro a ha b hb same
  rw [lowerChar_of_toNat_lt (hp a ha), lowerChar_of_toNat_lt (hc b hb)]
  exact beq_iff_eq.mp same

/-- Between two `%` a pattern is like the texts of which some stretch has the same letters up to
case, so it finds what stands there literally, unless the engine refuses it. Without them it finds
this too if its sigmas end words in the text as they do in the pattern; and without a dotted I it
finds nothing else. The two searches agree on texts that are lower-cased letter by letter and whose
letters, if they are equal up to case, have one lower-case form. -/
theorem isLike_plain_and_between [Engine] {p c : String} (plain : p.toList.any isWildcard = false) :
    (isLike ("%" ++ p ++ "%") c = true ↔ Engine.compiles (generalText ("%" ++ p ++ "%")) = true ∧
      ∃ part, part <:+: c.toList ∧ List.Forall₂ (sameUpToCase · · = true) p.toList part) ∧
    (∀ front back, c.toList = front ++ p.toList ++ back → KeepsSigmas front p.toList back →
      isLike p c = true) ∧
    (Engine.compiles (generalText ("%" ++ p ++ "%")) = true →
      (p.toList <:+: c.toList → isLike ("%" ++ p ++ "%") c = true) ∧
      ('\u0130' ∉ p.toList → '\u0130' ∉ c.toList → isLike p c = true →
        isLike ("%" ++ p ++ "%") c = true) ∧
      (LowersByLetter p.toList → LowersByLetter c.toList → LowerAlike p.toList c.toList →
        isLike p c = isLike ("%" ++ p ++ "%") c)) := by
  simp only [Bool.eq_iff_iff (b := isLike ("%" ++ p ++ "%") c), isLike_plain plain,
    isLike_between plain]
  refine ⟨?_, ?_, fun compiles => ⟨fun stands => ⟨compiles, stands.map foldChar⟩, ?_, ?_⟩⟩
  · simp only [List.infix_map_iff, forall₂_sameUpToCase_iff]
  · intro front back parts keeps
    rw [parts]
    exact keeps.lowercase_infix
  · intro hp hc sought
    have folded := sought.map foldChar
    rw [lowercase, lowercase, map_foldChar_lowerFrom hp, map_foldChar_lowerFrom hc] at folded
    exact ⟨compiles, folded⟩
  · intro hp hc alike
    rw [and_iff_right compiles, hp.lowercase_eq, hc.lowercase_eq, List.infix_map_iff,
      List.infix_map_iff]
    refine exists_congr fun part => and_congr_right fun stands => ?_
    exact LowerAlike.map_eq_iff (fun a ha b hb => alike a ha b (stands.subset hb)) hp.1
      fun dotted => hc.1 (stands.subset dotted)

theorem isLike_plain_and_between_admins :
    "MIN".toList.any isWildcard = false ∧ isLike "MIN" "Admins" = true ∧
      isLike ("%" ++ "MIN" ++ "%") "Admins" = true ∧ isLike "min" "Admins" = true := by
  have plain : "MIN".toList.any isWildcard = false := by decide
  have ascii (cs : List Char) (h : (cs.all fun c => c.toNat < 0x80) = true) :
      ∀ c ∈ cs, c.toNat < 0x80 := by simpa using h
  have hp := ascii "MIN".toList (by decide)
  have hc := ascii "Admins".toList (by decide)
  obtain ⟨_, _, runs⟩ := isLike_plain_and_between (c := "Admins") plain
  obtain ⟨_, _, agree⟩ := runs rfl
  have same := agree (lowersByLetter_of_ascii hp) (lowersByLetter_of_ascii hc)
    (lowerAlike_of_ascii hp hc)
  have like : isLike "MIN" "Admins" = true := by decide +kernel
  have literal : isLike "min" "Admins" = true :=
    (isLike_plain_and_between (by decide)).2.1 ['A', 'd'] ['s'] (by decide)
      (keepsSigmas_of_not_mem (by decide) _ _)
  exact ⟨plain, like, same ▸ like, literal⟩

/-- A sigma that ends the pattern does not end the word it stands in: lower-casing misses a pattern
that stands in the text literally. -/
theorem not_isLike_finalSigma :
    "ΑΣ".toList.any isWildcard = false ∧ "ΑΣ".toList <:+: "ΑΣΑ".toList ∧
      isLike "ΑΣ" "ΑΣΑ" = false ∧ isLike ("%" ++ "ΑΣ" ++ "%") "ΑΣΑ" = true := by
  have plain : "ΑΣ".toList.any isWildcard = false := by decide
  have stands : "ΑΣ".toList <:+: "ΑΣΑ".toList := ⟨[], ['Α'], by decide⟩
  have pattern : "ΑΣ".toList = ['\u0391', capitalSigma] := by decide
  have text : "ΑΣΑ".toList = ['\u0391', capitalSigma, '\u0391'] := by decide
  refine ⟨plain, stands, ?_, (isLike_between plain).mpr ⟨rfl, stands.map foldChar⟩⟩
  rw [← Bool.not_eq_true, isLike_plain plain, pattern, text, lowercase_alpha_sigma.1,
    lowercase_alpha_sigma.2]
  intro found
  exact absurd (found.subset (by simp : '\u03C2' ∈ _)) (by decide)

end BackOffice.Query
