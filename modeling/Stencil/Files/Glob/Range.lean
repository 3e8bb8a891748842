import Stencil.Files.Glob.Fault
import Stencil.Number.Literal
import Stencil.Text

/-!
Ranges: two ends, and perhaps a step, stand for all numbers or letters between the ends.
-/

namespace Stencil.Files.Glob.Range

/-- The integer that a text stands for. Blanks alone are zero. -/
def integer? (text : List Char) : Option Int :=
  (Number.ofText text).toInt?

/-- The number of steps of a width that lead from one number to another. -/
def stepCount (first last : Int) (width : Nat) : Nat :=
  (last - first).natAbs / width

/-- The numbers from one to another, in either direction, with a width between them. -/
def numbers (first last : Int) (width : Nat) : List Int :=
  (List.range (stepCount first last width + 1)).map fun (i : Nat) =>
    if first ≤ last then first + (i * width : Nat) else first - (i * width : Nat)

/-- Whether a text spells a number with zeros before it. -/
def isPadded (text : List Char) : Bool :=
  let digits := if text.head? == some '-' then text.drop 1 else text
  digits != ['0'] && digits.head? == some '0'

/-- A number with zeros before it, up to a length. -/
def pad (length : Nat) (text : List Char) : List Char :=
  let (sign, digits) := if text.head? == some '-' then (['-'], text.drop 1) else ([], text)
  sign ++ List.replicate (length - sign.length - digits.length) '0' ++ digits

/-- The texts of a range of numbers. If one of its own texts is padded, so are they. -/
def numberTexts (first last step : List Char) (start stop : Int) (width : Nat)
    : List (List Char) :=
  let texts := [first, last, step]
  let length :=
    if texts.any isPadded then
      (texts.map Text.units).foldl max 0
    else 0
  (numbers start stop width).map fun n => pad length (toString n).toList

/-- The texts of a range of letters, by their 16-bit units. -/
def letterTexts (first last : List Char) (width : Nat) : List (List Char) :=
  let unit (text : List Char) : Int := ((text.flatMap Text.unitsOf).headD 0 : Nat)
  (numbers (unit first) (unit last) width).map fun n => [Text.ofUnit n.toNat]

/-- The texts of a range with a step, none if the step is no integer or the ends are neither
two integers nor two letters. A step of zero is taken for one.
-/
def textsBetween (first last step : List Char) : List (List Char) :=
  match integer? step with
  | none => []
  | some step' =>
    let width := max step'.natAbs 1
    let isLetter (text : List Char) : Bool := (integer? text).isSome || Text.units text = 1
    if first.isEmpty || last.isEmpty then []
    else
      match integer? first, integer? last with
      | some start, some stop => numberTexts first last step start stop width
      | _, _ => if isLetter first && isLetter last then letterTexts first last width else []

/-- The greatest number of steps that lead up through a range of numbers. -/
def maxSteps : Nat := 1000

/-- Whether a range without a step leads up through too many numbers. -/
def isTooLong (first last : List Char) : Bool :=
  match Text.trim first, Text.trim last, integer? first, integer? last with
  | _ :: _, _ :: _, some start, some stop => decide ((maxSteps : Int) ≤ stop - start)
  | _, _, _, _ => false

/-- The texts that the parts of a range stand for, none if they make no range. -/
def texts (parts : List (List Char)) : Except GlobFault (List (List Char)) :=
  match parts with
  | [first, last] =>
    if isTooLong first last then .error .tooManyTexts
    else .ok (textsBetween first last ['1'])
  | [first, last, step] =>
    .ok (textsBetween first last (if step.isEmpty then ['1'] else step))
  | _ => .ok []

end Stencil.Files.Glob.Range
