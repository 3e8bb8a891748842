import Stencil.Files.Glob.Expression.Read

/-!
The regular expressions of patterns. A star stands for any part of a name, a question mark for
one unit, brackets for one unit of a set, and two stars between slashes for any names. A name
that starts with a dot is matched only by a pattern that spells the dot, or where hidden names
are shown.
-/

namespace Stencil.Files.Glob.Expression

/-- A pattern that is shorter than another one with the same meaning. -/
def simplified (text : List Char) : List Char :=
  if text = "***".toList then ['*']
  else if text = "**/**".toList || text = "**/**/**".toList then ['*', '*']
  else text

/-- A text without a dot and a slash at its start. -/
def withoutDot (text : List Char) : List Char :=
  match text with
  | '.' :: '/' :: rest => rest
  | text => text

/-- An expression that has to match a text as a whole. -/
def whole (output : List Char) : List Char :=
  "^(?:".toList ++ output ++ ")$".toList

/-! Patterns of a few marks -/

/-- Whether a character belongs to words. -/
def isWordChar (c : Char) : Bool := c.isAlphanum || c == '_'

/-- The expression of a mark that stands a number of times in a text without brackets and the
like, perhaps after a backslash.
-/
def markOutput (showHidden isFirst isEscaped : Bool) (mark : Char) (count : Nat) : List Char :=
  let repeated (count : Nat) (text : List Char) : List Char :=
    (List.replicate count text).flatten
  if mark == '\\' then
    List.replicate (if isEscaped then count + 1 else count) '\\'
  else if mark == '?' then
    if isEscaped then "\\?".toList ++ repeated (count - 1) anyUnit
    else if isFirst then
      (if showHidden then anyUnit else anyUnitNoDot) ++ repeated (count - 1) anyUnit
    else repeated count anyUnit
  else if mark == '.' then repeated count dot
  else if mark == '*' then
    if isEscaped then "\\*".toList ++ (if count = 1 then [] else anyUnits) else anyUnits
  else '\\' :: List.replicate count mark

/-- The expression of a text without brackets and the like, with a bound on its length. -/
def plainWithin (showHidden isFirst : Bool) : Nat → List Char → List Char
  | 0, _ => []
  | _ + 1, [] => []
  | fuel + 1, c :: rest =>
    let after (isEscaped : Bool) (mark : Char) (rest : List Char) : List Char :=
      let count := (rest.takeWhile (· == mark)).length
      markOutput showHidden isFirst isEscaped mark (count + 1)
        ++ plainWithin showHidden false fuel (rest.drop count)
    match c, rest with
    | '\\', mark :: rest' =>
      if isWordChar mark then after false c rest else after true mark rest'
    | c, rest =>
      if isWordChar c then c :: plainWithin showHidden false fuel rest else after false c rest

/-- A text in which a run of backslashes is two if their number is even, and else one. -/
def joinBackslashes : Nat → List Char → List Char
  | fuel + 1, '\\' :: rest =>
    let count := (rest.takeWhile (· == '\\')).length + 1
    (if count % 2 = 0 then ['\\', '\\'] else ['\\'])
      ++ joinBackslashes fuel (rest.drop (count - 1))
  | fuel + 1, c :: rest => c :: joinBackslashes fuel rest
  | _, text => text

/-- Whether a backslash stands before a backslash or a character of a word, or at the end. -/
def hasBackslash : Bool → List Char → Bool
  | isEscaped, [] => isEscaped
  | true, c :: rest => isWordChar c || c == '\\' || hasBackslash false rest
  | false, c :: rest => hasBackslash (c == '\\') rest

/-- The expression of a text without brackets and the like. -/
def plainOutput (showHidden : Bool) (text : List Char) : List Char :=
  let output := plainWithin showHidden true text.length text
  whole (if hasBackslash false text then joinBackslashes output.length output else output)

/-- Whether a pattern has no brackets and the like, and no mark of its own at the start. -/
def isPlain (text : List Char) : Bool :=
  !(text.head?.any fun c => c == '*' || c == '!')
    && !text.any "/()[]\x7b\x7d\"".toList.contains

/-! All patterns -/

/-- The expression of a pattern, read character by character, and whether it is negated. What
follows parentheses may be read on its own, up to a depth.
-/
def readWithin (showHidden : Bool) : Nat → List Char → List Char × Bool
  | 0, _ => ([], false)
  | depth + 1, text =>
    let readRest (rest : List Char) : List Char := (readWithin showHidden depth rest).1
    let state := State.begin showHidden (withoutDot (simplified text))
    let state := (state.readAll readRest text.length).finish
    (state.output, state.isNegated)

/-- The parts of the expressions of patterns that are common, none for any other pattern. -/
def commonParts (showHidden : Bool) (text : String) : List (List Char) :=
  let guard := if showHidden then noDotNameFromStart else noDot
  let nameGuard := if showHidden then noDotName else noDot
  let names := "(?:".toList ++ guard ++ anyNames showHidden ++ slash ++ ")?".toList
  match text with
  | "*" => [guard, beforeUnit, anyUnits]
  | ".*" => [dot, beforeUnit, anyUnits]
  | "*.*" => [guard, anyUnits, dot, beforeUnit, anyUnits]
  | "*/*" => [guard, anyUnits, slash, beforeUnit, nameGuard, anyUnits]
  | "**" => [guard, anyNames showHidden]
  | "**/*" => [names, nameGuard, beforeUnit, anyUnits]
  | "**/*.*" => [names, nameGuard, anyUnits, dot, beforeUnit, anyUnits]
  | "**/.*" => [names, dot, beforeUnit, anyUnits]
  | _ => []

/-- The expressions of patterns that are common, perhaps with extensions, up to a number. -/
def shortcut? (showHidden : Bool) : Nat → List Char → Option (List Char)
  | 0, _ => none
  | fuel + 1, text =>
    match commonParts showHidden (String.ofList text) with
    | part :: parts => some (part :: parts).flatten
    | [] => do
      let extension := (text.reverse.takeWhile isWordChar).reverse
      let before := text.take (text.length - extension.length)
      if extension.isEmpty || before.getLast? != some '.' then none
      else
        let stem := before.dropLast
        let isOneLine := stem.all fun c => !UnitSet.lineEnds.has c.toNat
        let output ← if isOneLine then shortcut? showHidden fuel stem else none
        some (output ++ dot ++ extension)

/-- The regular expression of a pattern, as a text. -/
def ofPattern (showHidden : Bool) (pattern : List Char) : List Char :=
  let text := withoutDot (simplified pattern)
  let mayBeShort := pattern.head?.any fun c => c == '.' || c == '*'
  let short? := if mayBeShort then shortcut? showHidden text.length text else none
  match short? with
  | some output => whole (output ++ slash ++ ['?'])
  | none =>
    if isPlain text then whole (plainOutput showHidden text)
    else
      let (output, isNegated) := readWithin showHidden pattern.length pattern
      if isNegated then "^(?!".toList ++ whole output ++ ").*$".toList else whole output

end Expression

/-- The regular expression that a pattern stands for. One that is not well formed matches only
the empty text.
-/
def regexOf (showHidden : Bool) (pattern : List Char) : Regex :=
  (Regex.ofText? (Expression.ofPattern showHidden pattern)).getD Regex.nothing

end Stencil.Files.Glob
