/-!
Folding of long lines: a flow scalar that is written over several lines breaks at single spaces,
and between double quotes anywhere, so that lines stay within a width. Widths count characters.
-/

namespace Stencil.Data.Yaml.Folding

/-- The greatest width of a line. -/
def lineWidth : Nat := 80

/-- The width that the content of a line has at least. -/
def leastWidth : Nat := 20

/-- A text whose lines are being folded, up to an index. `split?` is the last space at which the
line may break, `limit` the index from which on it has to, and the folds are kept with the last
one first, each with whether it is in the middle of a word.
-/
structure Fold where
  index : Nat
  limit : Nat
  split? : Option Nat
  before? : Option Char
  escapeStart? : Option Nat
  escapeEnd? : Option Nat
  folds : List (Nat × Bool)

/-- Whether a character ends a word. -/
def isGap (c : Char) : Bool :=
  c == ' ' || c == '\n' || c == '\t'

/-- Passes over the blanks before a break in the middle of a line. -/
def passBlanks (text : Array Char) : Nat → Fold → Fold
  | 0, fold => fold
  | left + 1, fold =>
    if fold.before? == some ' ' || fold.before? == some '\t' then
      passBlanks text left
        { fold with before? := text[fold.index]?, index := fold.index + 1 }
    else fold

/-- Breaks a line in the middle of a word; nothing if a line broke there before. -/
def breakWord? (text : Array Char) (step : Nat) (fold : Fold) : Option Fold :=
  let fold := passBlanks text text.size fold
  let isAfterEscape :=
    match fold.escapeEnd? with
    | some last => decide (last + 1 < fold.index)
    | none => true
  let place :=
    if isAfterEscape then fold.index - 2 else (fold.escapeStart?.getD 0) - 1
  if fold.folds.any fun other => other.1 = place && other.2 then none
  else
    some { fold with folds := (place, true) :: fold.folds, limit := place + step, split? := none }

/-- Looks at the character at the index of a fold. -/
def look? (text : Array Char) (isQuoted : Bool) (indent step : Nat) (c : Char) (fold : Fold)
    : Option Fold :=
  let fold :=
    if isQuoted && c == '\\' then
      let width :=
        match text[fold.index + 1]? with
        | some 'x' => 3
        | some 'u' => 5
        | some 'U' => 9
        | _ => 1
      { fold with
        escapeStart? := some fold.index, index := fold.index + width
        escapeEnd? := some (fold.index + width) }
    else fold
  if c == '\n' then
    some { fold with limit := fold.index + indent + step, split? := none, before? := some c }
  else
    let isSplit :=
      c == ' ' && fold.before?.any (!isGap ·) && text[fold.index + 1]?.any (!isGap ·)
    let fold := if isSplit then { fold with split? := some fold.index } else fold
    if fold.index < fold.limit then some { fold with before? := some c }
    else
      match fold.split? with
      | some split =>
        some
          { fold with
            folds := (split, false) :: fold.folds, limit := split + step, split? := none
            before? := some c }
      | none =>
        if isQuoted then
          (breakWord? text step fold).map fun fold => { fold with before? := text[fold.index]? }
        else some { fold with before? := some c }

/-- Looks at all characters from the index on. -/
def lookAll? (text : Array Char) (isQuoted : Bool) (indent step : Nat) : Nat → Fold → Option Fold
  | 0, fold => some fold
  | left + 1, fold =>
    match text[fold.index]? with
    | none => some fold
    | some c =>
      (look? text isQuoted indent step c fold).bind fun fold =>
        lookAll? text isQuoted indent step left { fold with index := fold.index + 1 }

/-- The pieces of a text from its folds on. -/
def pieces (text : Array Char) (indent : Nat) : List (Nat × Bool) → List Char
  | [] => []
  | (place, isWord) :: folds =>
    let last :=
      match folds with
      | (next, _) :: _ => next
      | [] => text.size
    let start := if place = 0 then 0 else place + 1
    let mark := if isWord then text[place]?.toList ++ ['\\'] else []
    mark ++ '\n' :: List.replicate indent ' ' ++ (text.extract start last).toList
      ++ pieces text indent folds

/-- A text with its long lines folded. Further lines start with an indentation, and `used?`
counts the characters before the text on its first line.
-/
def fold (isQuoted : Bool) (indent : Nat) (used? : Option Nat) (text : List Char) : List Char :=
  let chars := text.toArray
  let step := max (1 + leastWidth) (1 + lineWidth - indent)
  if chars.size ≤ step then text
  else
    let isFull := used?.any fun used => decide (lineWidth - leastWidth < used)
    let limit := if isFull then lineWidth - indent else lineWidth - used?.getD indent
    let initial : Fold :=
      ⟨0, limit, none, none, none, none, if isFull then [(0, false)] else []⟩
    match lookAll? chars isQuoted indent step chars.size initial with
    | none => text
    | some found =>
      match found.folds.reverse with
      | [] => text
      | (first, isWord) :: folds =>
        (chars.extract 0 first).toList ++ pieces chars indent ((first, isWord) :: folds)

end Stencil.Data.Yaml.Folding
