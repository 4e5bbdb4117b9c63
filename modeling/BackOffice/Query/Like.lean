import BackOffice.Pattern.Reader
import BackOffice.Text.Case

/-!
# Likeness of texts

A text is like a pattern with wildcards if it can be cut into one piece per character of the
pattern: any text for `%`, one character for `_`, and one character equal up to case for every other.
It is run as a general pattern, so nothing is like one that the engine refuses in that form.
A pattern without wildcards is sought anywhere in the text, both lower-cased as a whole.
-/
namespace BackOffice.Query

open BackOffice.Pattern BackOffice.Text

def isWildcard (c : Char) : Bool := c == '%' || c == '_'

/-- Whether a single character answers to a place of a pattern that is not `%`. -/
def answers (p c : Char) : Bool := p == '_' || sameUpToCase p c

/-- Whether a text can be cut as the pattern asks. -/
def fitsWildcards : List Char → List Char → Bool
  | [], cs => cs.isEmpty
  | p :: ps, cs =>
    if p = '%' then
      fitsWildcards ps cs ||
        match cs with
        | [] => false
        | _ :: rest => fitsWildcards (p :: ps) rest
    else
      match cs with
      | [] => false
      | c :: rest => answers p c && fitsWildcards ps rest
termination_by ps cs => (ps.length, cs.length)

/-! ## The general pattern -/

/-- How a character of a pattern with wildcards is written. -/
def placeText (p : Char) : List Char :=
  if p = '%' then ['.', '*'] else if p = '_' then ['.']
  else if Reader.isMeta p then ['\\', p] else [p]

def generalText (pattern : String) : String :=
  "(?is)^" ++ String.ofList (pattern.toList.flatMap placeText) ++ "$"

/-! ## Deciding it for all ends of a text at once

Trying every cut takes too long for patterns with many wildcards. A row tells for each end of the
text, the whole text first, whether the pattern fits it; the row of a pattern follows from that of
its rest.
-/

/-- The row of the empty pattern: only the empty end fits. -/
def emptyRow : List Char → List Bool
  | [] => [true]
  | _ :: cs => false :: emptyRow cs

/-- The row once any text may stand in front. -/
def anyRow : List Bool → List Bool
  | [] => []
  | b :: bs =>
    let row := anyRow bs
    (b || row.headD false) :: row

/-- The row once a character that answers to `p` must stand in front. -/
def charRow (p : Char) : List Char → List Bool → List Bool
  | c :: cs, _ :: row => (answers p c && row.headD false) :: charRow p cs row
  | _, _ => [false]

def fitRow : List Char → List Char → List Bool
  | [], cs => emptyRow cs
  | p :: ps, cs => if p = '%' then anyRow (fitRow ps cs) else charRow p cs (fitRow ps cs)

theorem fitRow_nil (ps : List Char) : fitRow ps [] = [fitsWildcards ps []] := by
  induction ps with
  | nil => simp [fitRow, emptyRow, fitsWildcards]
  | cons p ps ih =>
    by_cases h : p = '%'
    · simp [fitRow, fitsWildcards, ih, anyRow, h]
    · simp [fitRow, fitsWildcards, charRow, h]

theorem fitRow_cons (ps : List Char) (c : Char) (cs : List Char) :
    fitRow ps (c :: cs) = fitsWildcards ps (c :: cs) :: fitRow ps cs := by
  induction ps generalizing c cs with
  | nil => simp [fitRow, emptyRow, fitsWildcards]
  | cons p ps ih =>
    have head (ds : List Char) : (fitRow ps ds).head?.getD false = fitsWildcards ps ds := by
      cases ds with
      | nil => simp [fitRow_nil]
      | cons d ds => simp [ih]
    by_cases h : p = '%'
    · subst h
      have any (ds : List Char) :
          (anyRow (fitRow ps ds)).head?.getD false = fitsWildcards ('%' :: ps) ds := by
        induction ds with
        | nil => rw [fitRow_nil, fitsWildcards]; simp [anyRow]
        | cons d ds ihd => rw [ih, fitsWildcards]; simp [anyRow, ihd]
      rw [fitsWildcards]
      simp [fitRow, ih, anyRow, any]
    · rw [fitsWildcards]
      simp [fitRow, h, ih, charRow, head]

/-- Rows decide what cutting decides. -/
theorem fitRow_headD (ps cs : List Char) : (fitRow ps cs).headD false = fitsWildcards ps cs := by
  cases cs with
  | nil => simp [fitRow_nil]
  | cons c cs => simp [fitRow_cons]

/-- Whether one text stands somewhere in another. -/
def standsIn (part : List Char) : List Char → Bool
  | [] => part.isEmpty
  | c :: cs => part.isPrefixOf (c :: cs) || standsIn part cs

def isLike [Engine] (pattern text : String) : Bool :=
  if pattern.toList.any isWildcard then
    Engine.compiles (generalText pattern) && (fitRow pattern.toList text.toList).headD false
  else standsIn (lowercase pattern.toList) (lowercase text.toList)

end BackOffice.Query
