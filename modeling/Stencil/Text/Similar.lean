import Stencil.Text

/-!
Similar words: the edit distance of two words, and the candidates that are closest to a word.
-/

namespace Stencil.Text

/-- The distances of `x :: word` to the ends of another word, the whole word first, from those
of `word` and those of `word` without its first unit, which is `next?`.
-/
def extendDistances (x : Nat) (next? : Option Nat)
    : (other distances inner : List Nat) → List Nat
  | [], distances, _ => [distances.headD 0 + 1]
  | z :: other, distances, inner =>
    let rest := extendDistances x next? other distances.tail inner.tail
    let cost := if x = z then 0 else 1
    let plain :=
      min (distances.headD 0 + 1) (min (rest.headD 0 + 1) (distances.tail.headD 0 + cost))
    let isSwap := other.head? == some x && next? == some z
    (if isSwap then min plain (inner.getD 2 0 + 1) else plain) :: rest

/-- The distances of a word to the ends of another word, and those of the word without its
first unit.
-/
def distancesTo (other : List Nat) : List Nat → List Nat × List Nat
  | [] => ((List.range (other.length + 1)).reverse, [])
  | x :: word =>
    let (distances, inner) := distancesTo other word
    (extendDistances x word.head? other distances inner, distances)

/-- The number of insertions, deletions, replacements and swaps of neighbours that make one
word of the other, none of them within another.
-/
def editDistance (word other : List Nat) : Nat :=
  (distancesTo other word).1.headD 0

/-- The greatest distance of similar words. -/
def maxEdits : Nat := 3

/-- Whether a distance is small for words of which the longer one has a length. -/
def isSmall (distance length : Nat) : Bool :=
  distance ≤ maxEdits && decide (2 * length < 5 * (length - distance))

/-- The distance of two words that are similar. A candidate of one unit is similar to none. -/
def similarity? (word candidate : List Nat) : Option Nat :=
  if candidate.length ≤ 1 || candidate.length > word.length + maxEdits
      || word.length > candidate.length + maxEdits then none
  else
    let distance := editDistance word candidate
    if isSmall distance (max word.length candidate.length) then some distance else none

/-- The candidates that are most similar to a word, in order. -/
def closest (word : String) (candidates : List String) : List String :=
  let unitsOfText (text : String) : List Nat := text.toList.flatMap unitsOf
  let rated :=
    candidates.eraseDups.filterMap fun candidate =>
      (similarity? (unitsOfText word) (unitsOfText candidate)).map fun distance =>
        (distance, candidate)
  match (rated.map (·.1)).min? with
  | none => []
  | some best => sortByUnits ((rated.filter (·.1 == best)).map (·.2))

end Stencil.Text
