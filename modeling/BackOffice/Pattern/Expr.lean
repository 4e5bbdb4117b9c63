import BackOffice.Pattern.CharSet

/-!
# Patterns

A pattern describes stretches of a text. `Expr.Spans e text i j` says that the stretch from place
`i` to place `j` fits the pattern, and `Expr.ends` computes the places that can be reached from a
list of places. A pattern occurs in a text if some stretch of it fits, wherever that stands.
-/
namespace BackOffice.Pattern

/-- Conditions on a place between characters. -/
inductive Look where
  | textStart
  | textEnd
  | lineStart
  | lineEnd
  | lineStartAny
  | lineEndAny
  | boundary (ofAscii : Bool)
  | notBoundary (ofAscii : Bool)
  | wordStart (ofAscii : Bool)
  | wordEnd (ofAscii : Bool)
  | wordStartHalf (ofAscii : Bool)
  | wordEndHalf (ofAscii : Bool)
deriving DecidableEq

inductive Expr where
  | empty
  | set (s : CharSet)
  | look (l : Look)
  | seq (a b : Expr)
  | alt (a b : Expr)
  | star (a : Expr)
  /-- At least `least` times, and at most `extra` times more. -/
  | times (a : Expr) (least extra : Nat)

abbrev Subject := Array Char

def charBefore? (text : Subject) (i : Nat) : Option Char := if i = 0 then none else text[i - 1]?

def isWordAt (ofAscii : Bool) (c : Option Char) : Bool :=
  match c with
  | some c => if ofAscii then CharSet.asciiWord.has c else CharSet.word.has c
  | none => false

namespace Look

/-- Whether the condition holds at a place. -/
def holds (l : Look) (text : Subject) (i : Nat) : Bool :=
  let before := charBefore? text i
  let after := text[i]?
  match l with
  | textStart => i == 0
  | textEnd => i == text.size
  | lineStart => i == 0 || before == some '\n'
  | lineEnd => i == text.size || after == some '\n'
  | lineStartAny =>
    i == 0 || before == some '\n' || (before == some '\r' && after != some '\n')
  | lineEndAny =>
    i == text.size || after == some '\r' || (after == some '\n' && before != some '\r')
  | boundary a => isWordAt a before != isWordAt a after
  | notBoundary a => isWordAt a before == isWordAt a after
  | wordStart a => !isWordAt a before && isWordAt a after
  | wordEnd a => isWordAt a before && !isWordAt a after
  | wordStartHalf a => !isWordAt a before
  | wordEndHalf a => !isWordAt a after

end Look

namespace Expr

/-- The stretch from `i` to `j` fits the pattern. -/
inductive Spans (text : Subject) : Expr → Nat → Nat → Prop
  | empty {i : Nat} (h : i ≤ text.size) : Spans text .empty i i
  | set {s : CharSet} {i : Nat} {c : Char} (at_i : text[i]? = some c) (fits : s.has c = true) :
      Spans text (.set s) i (i + 1)
  | look {l : Look} {i : Nat} (h : i ≤ text.size) (fits : l.holds text i = true) :
      Spans text (.look l) i i
  | seq {a b : Expr} {i j k : Nat} (first : Spans text a i j) (second : Spans text b j k) :
      Spans text (.seq a b) i k
  | altLeft {a b : Expr} {i j : Nat} (h : Spans text a i j) : Spans text (.alt a b) i j
  | altRight {a b : Expr} {i j : Nat} (h : Spans text b i j) : Spans text (.alt a b) i j
  | starNil {a : Expr} {i : Nat} (h : i ≤ text.size) : Spans text (.star a) i i
  | starCons {a : Expr} {i j k : Nat} (first : Spans text a i j)
      (others : Spans text (.star a) j k) : Spans text (.star a) i k
  | timesNil {a : Expr} {extra i : Nat} (h : i ≤ text.size) : Spans text (.times a 0 extra) i i
  | timesExtra {a : Expr} {extra i j k : Nat} (first : Spans text a i j)
      (others : Spans text (.times a 0 extra) j k) : Spans text (.times a 0 (extra + 1)) i k
  | timesCons {a : Expr} {least extra i j k : Nat} (first : Spans text a i j)
      (others : Spans text (.times a least extra) j k) :
      Spans text (.times a (least + 1) extra) i k

/-- `places` with those of `more` that it lacks. -/
def join (places more : List Nat) : List Nat :=
  more.foldl (fun acc i => if acc.contains i then acc else i :: acc) places

/-- All places reached by steps from `places`, in at most `fuel` rounds; each round follows the
places that the last one added. -/
def closure (step : List Nat → List Nat) : Nat → List Nat → List Nat → List Nat
  | 0, places, _ => places
  | fuel + 1, places, fresh =>
    let new := (step fresh).filter fun i => !places.contains i
    if new.isEmpty then places else closure step fuel (join places new) new

/-- `n` steps in a row. -/
def iterate (step : List Nat → List Nat) : Nat → List Nat → List Nat
  | 0, places => places
  | n + 1, places =>
    let next := step places
    if next.isEmpty then [] else iterate step n next

/-- The places reached by at most `n` steps. -/
def within (step : List Nat → List Nat) (n : Nat) (places : List Nat) : List Nat :=
  closure step n places places

/-- The ends of the stretches that fit and start at one of the places. -/
def ends (text : Subject) : Expr → List Nat → List Nat
  | empty, places => places
  | set s, places =>
    places.filterMap fun i =>
      match text[i]? with
      | some c => if s.has c then some (i + 1) else none
      | none => none
  | look l, places => places.filter (l.holds text)
  | seq a b, places =>
    let middle := ends text a places
    if middle.isEmpty then [] else ends text b middle
  | alt a b, places => join (ends text a places) (ends text b places)
  | star a, places => closure (ends text a) (text.size + 1) places places
  | times a least extra, places =>
    within (ends text a) extra (iterate (ends text a) least places)

/-- Some stretch of the text fits. -/
def occursIn (e : Expr) (s : String) : Bool :=
  let text := s.toList.toArray
  !(ends text e (List.range (text.size + 1))).isEmpty

def sequence : List Expr → Expr
  | [] => empty
  | [e] => e
  | e :: es => seq e (sequence es)

end Expr

end BackOffice.Pattern
