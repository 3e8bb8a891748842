import Stencil.Text

/-!
Regular expressions over 16-bit units, and their matching by trying one choice after the other.
Groups are kept for what refers back to them.
-/

namespace Stencil

/-- A set of 16-bit units, as ranges with both ends. -/
abbrev UnitSet := List (Nat × Nat)

namespace UnitSet

/-- Whether a unit is in a set. -/
def has (units : UnitSet) (unit : Nat) : Bool :=
  units.any fun range => decide (range.1 ≤ unit) && decide (unit ≤ range.2)

/-- The units of a character range. -/
def ofChars (first last : Char) : UnitSet :=
  [(first.toNat, last.toNat)]

/-- The digits. -/
def digits : UnitSet := ofChars '0' '9'

/-- The characters of words. -/
def wordChars : UnitSet :=
  digits ++ ofChars 'A' 'Z' ++ ofChars '_' '_' ++ ofChars 'a' 'z'

/-- The line ends. -/
def lineEnds : UnitSet :=
  [(0xa, 0xa), (0xd, 0xd), (0x2028, 0x2029)]

/-- The units from a given one on that are not in a set whose ranges are in order. -/
def complementFrom : Nat → UnitSet → UnitSet
  | next, [] => [(next, 0xffff)]
  | next, (first, last) :: ranges =>
    (if next < first then [(next, first - 1)] else []) ++ complementFrom (last + 1) ranges

/-- The units that are not in a set whose ranges are in order. -/
def complement (units : UnitSet) : UnitSet :=
  complementFrom 0 units

end UnitSet

/-- A regular expression. -/
inductive Regex where
  | empty
  | exactly (unit : Nat)
  /-- A unit within, or outside, a set. -/
  | oneOf (isNegated : Bool) (units : UnitSet)
  /-- The start of the text. -/
  | start
  /-- The end of the text. -/
  | stop
  /-- A place that is, or is not, between a word and something else. -/
  | boundary (isNegated : Bool)
  /-- A group whose match is kept under a number. -/
  | group (number : Nat) (body : Regex)
  /-- What a group has matched. -/
  | repeated (number : Nat)
  /-- A look at the text after or before a place, which has to match, or not to match. -/
  | look (isAhead isNegated : Bool) (body : Regex)
  /-- A number of matches, as few or as many of them as possible. -/
  | times (least : Nat) (most? : Option Nat) (isLazy : Bool) (body : Regex)
  | sequence (first second : Regex)
  | either (first second : Regex)
  deriving DecidableEq, Repr, Inhabited

namespace Regex

/-- The expression that only the empty text matches. -/
def nothing : Regex := .sequence .stop .start

/-- A place in a text: the units before it, the last one first, the units after it, and what
groups have matched.
-/
structure Spot where
  before : List Nat
  after : List Nat
  groups : List (Nat × List Nat)
  deriving DecidableEq, Repr, Inhabited

namespace Spot

/-- The next unit in a direction, and the place behind it. -/
def next? (isForward : Bool) (spot : Spot) : Option (Nat × Spot) :=
  match isForward, spot.before, spot.after with
  | true, _, unit :: after =>
    some (unit, { spot with before := unit :: spot.before, after })
  | false, unit :: before, _ =>
    some (unit, { spot with before, after := unit :: spot.after })
  | _, _, _ => none

/-- The place behind some units in a direction, if those are there. -/
def pass? (isForward : Bool) : List Nat → Spot → Option Spot
  | [], spot => some spot
  | unit :: units, spot =>
    match spot.next? isForward with
    | some (found, spot) => if found = unit then pass? isForward units spot else none
    | none => none

/-- Whether a place is at the edge of a word. -/
def isBoundary (spot : Spot) : Bool :=
  let isWord (unit? : Option Nat) : Bool := unit?.any UnitSet.wordChars.has
  isWord spot.before.head? != isWord spot.after.head?

/-- What stands between an earlier place and a place. -/
def between (isForward : Bool) (earlier spot : Spot) : List Nat :=
  if isForward then earlier.after.take (earlier.after.length - spot.after.length)
  else spot.after.take (spot.after.length - earlier.after.length)

/-- Notes what a group has matched. -/
def note (number : Nat) (units : List Nat) (spot : Spot) : Spot :=
  { spot with groups := (number, units) :: spot.groups }

end Spot

/-- What is to be matched after something. -/
abbrev Rest := Spot → Option Spot

/-- A way to match: the place after a match and what follows it. -/
abbrev Step := Rest → Rest

/-- Repeats a step. Once enough matches are there, those that take no text are none. The fuel
bounds the number of matches.
-/
def loop (step : Step) (isLazy : Bool) (rest : Rest)
    : Nat → Nat → Option Nat → Rest
  | 0, _, _ => fun _ => none
  | fuel + 1, least, most? => fun spot =>
    if most? = some 0 then rest spot
    else
      let more (spot : Spot) : Option Spot :=
        step
          (fun next =>
            if least = 0 && next.after.length = spot.after.length then none
            else loop step isLazy rest fuel (least - 1) (most?.map (· - 1)) next)
          spot
      if 0 < least then more spot
      else if isLazy then (rest spot).or (more spot)
      else (more spot).or (rest spot)

/-- How an expression is matched in a direction. -/
def step : Regex → Bool → Step
  | empty, _, rest, spot => rest spot
  | exactly unit, isForward, rest, spot => (spot.pass? isForward [unit]).bind rest
  | oneOf isNegated units, isForward, rest, spot =>
    match spot.next? isForward with
    | some (unit, spot) => if units.has unit != isNegated then rest spot else none
    | none => none
  | start, _, rest, spot => if spot.before.isEmpty then rest spot else none
  | stop, _, rest, spot => if spot.after.isEmpty then rest spot else none
  | boundary isNegated, _, rest, spot =>
    if spot.isBoundary != isNegated then rest spot else none
  | group number body, isForward, rest, spot =>
    body.step isForward
      (fun next => rest (next.note number (Spot.between isForward spot next))) spot
  | repeated number, isForward, rest, spot =>
    let units := (spot.groups.lookup number).getD []
    (spot.pass? isForward (if isForward then units else units.reverse)).bind rest
  | look isAhead isNegated body, _, rest, spot =>
    match body.step isAhead some spot, isNegated with
    | some found, false => rest { spot with groups := found.groups }
    | none, true => rest spot
    | _, _ => none
  | times least most? isLazy body, isForward, rest, spot =>
    loop (body.step isForward) isLazy rest
      (least + spot.before.length + spot.after.length + 2) least most? spot
  | sequence first second, isForward, rest, spot =>
    if isForward then first.step isForward (second.step isForward rest) spot
    else second.step isForward (first.step isForward rest) spot
  | either first second, isForward, rest, spot =>
    (first.step isForward rest spot).or (second.step isForward rest spot)

/-- Whether an expression matches somewhere from a place on. -/
def isFoundFrom (regex : Regex) : List Nat → List Nat → Bool
  | before, after =>
    (regex.step true some ⟨before, after, []⟩).isSome
      || match after with
        | [] => false
        | unit :: after => isFoundFrom regex (unit :: before) after

/-- Whether an expression matches somewhere in a text. -/
def isFoundIn (regex : Regex) (text : List Char) : Bool :=
  regex.isFoundFrom [] (text.flatMap Text.unitsOf)

end Regex

end Stencil
