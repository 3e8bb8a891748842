import Stencil.Files.Glob.Expression.State
import Stencil.Regex.Reader
import Stencil.Text.Search

/-!
Reading patterns character by character. A mark that has no meaning in its place stands for
itself.
-/

namespace Stencil.Files.Glob.Expression

namespace State

/-- Whether two characters come next: an opening parenthesis, and one that is no question mark
if another has to come at all.
-/
def isBeforeParenthesis (state : State) (needsMore : Bool) : Bool :=
  match state.unread with
  | ['('] => !needsMore
  | '(' :: c :: _ => c != '?'
  | _ => false

/-! Brackets -/

/-- The place of the last opening bracket of a text. -/
def lastBracket (text : List Char) : Nat :=
  text.length - 1 - (text.reverse.takeWhile (· != '[')).length

/-- Ends the name of a class in brackets, if there is a class of that name. -/
def endClass? (state : State) : Option State := do
  let value := state.last.value
  let place := lastBracket value
  let units ← classes.lookup (String.ofList (value.drop (place + 2)))
  let isFirst := state.pieces.length = 2
  let state := { state with mustRebuild := true }.changeLast fun last =>
    { last with value := value.take place ++ units.toList }
  let state := state.skip 1
  some
    (if !isFirst then state
    else
      { state with
        pieces := state.pieces.map fun piece =>
          if piece.kind = .start && piece.output.isEmpty then piece.addOutput beforeUnit
          else piece })

/-- Adds to brackets. -/
def addToBracket (value : List Char) (state : State) : State :=
  let before := state.last.value
  let isAtStart := before = ['['] || before = ['[', '^']
  let value :=
    if value = ['['] && state.unread.head? != some ':' then ['\\', '[']
    else if value = ['-'] && state.unread.head? == some ']' then ['\\', '-']
    else if value = [']'] && isAtStart then ['\\', ']']
    else if value = ['!'] && before = ['['] then ['^']
    else value
  state.extend value

/-- Reads a character or an escape in brackets. A colon may name a class, or end its name. -/
def readInBracket (value : List Char) (state : State) : State :=
  let inner := state.last.value.drop 1
  if value = [':'] && inner.contains '[' then
    let state := state.changeLast fun last => { last with hasClass := true }
    if inner.contains ':' then state.endClass?.getD (state.addToBracket value)
    else state.addToBracket value
  else state.addToBracket value

/-- Opens brackets, if they are closed later. -/
def readOpeningBracket (state : State) : State :=
  if state.unread.contains ']' then
    ({ state with isInBracket := true }.enter .bracket).push (.ofValue .bracket ['['])
  else state.push (.ofValue .bracket ['\\', '['])

/-- Closes brackets. Those without marks also stand for themselves. A set of all but some units
has no slash.
-/
def closeBracket (state : State) : State :=
  let state := { state with isInBracket := false }.leave
  let inner := state.last.value.drop 1
  let addsSlash := !state.last.hasClass && inner.head? == some '^' && !inner.contains '/'
  let state := state.extend (if addsSlash then ['/', ']'] else [']'])
  if hasMarks inner then state
  else
    let value := state.last.value
    let either := "(?:".toList ++ escaped value ++ '|' :: (value ++ [')'])
    let state := { state with output := dropEnd value.length state.output ++ either }
    state.changeLast fun last => { last with value := either }

/-- Reads a closing bracket. -/
def readClosingBracket (state : State) : State :=
  if state.isInBracket then state.closeBracket
  else state.pushTextAs [']'] ['\\', ']']

/-! Escapes and quotes -/

/-- Whether a character after a backslash keeps its meaning. -/
def isPlainAfterBackslash (c : Char) : Bool := c == '/' || c == '.' || c == ';'

/-- Reads what follows a backslash. More than two further backslashes are taken for none or
one.
-/
def readEscape (state : State) : State :=
  match state.unread with
  | [] => state.pushText ['\\', '\\']
  | c :: _ =>
    if isPlainAfterBackslash c then state
    else
      let count := (state.unread.takeWhile (· == '\\')).length
      let more := if 2 < count && count % 2 = 1 then ['\\'] else []
      let state := if 2 < count then state.skip count else state
      let value := '\\' :: (more ++ state.unread.take 1)
      let state := state.skip 1
      if state.isInBracket then state.readInBracket value else state.pushText value

/-! Parentheses -/

/-- Opens parentheses. -/
def readOpeningParenthesis (state : State) : State :=
  ({ state with parens := state.parens + 1 }.enter .parentheses).push
    (.ofValue .parenthesis ['('])

/-- Whether a text is a dot and a name without a dot, a slash or a backslash. -/
def isSuffix (text : List Char) : Bool :=
  match text with
  | '.' :: c :: rest => (c :: rest).all fun c => c != '\\' && c != '/' && c != '.'
  | _ => false

/-- The expression that closes parentheses with a mark. What they deny is looked for up to the
end of the text where they end the pattern or hold a slash, and up to a suffix where that ends
the pattern. `readRest` gives the expression of the suffix.
-/
def closingOf (readRest : List Char → List Char) (extension : Extension) (state : State)
    : List Char :=
  if extension.mark ≠ .negation then extension.mark.closing
  else
    let hasSlash := extension.inner.contains '/' && extension.inner.length ≠ 1
    let units := if hasSlash then anyNames state.showHidden else anyUnits
    if extension.inner.contains '*' && isSuffix state.unread then
      ')' :: (readRest state.unread ++ ')' :: (units ++ [')']))
    else if hasSlash || state.unread.all (· == ')') then ")$))".toList ++ units
    else extension.mark.closing

/-- Reads a closing parenthesis. -/
def readClosingParenthesis (readRest : List Char → List Char) (state : State) : State :=
  let closed? := state.extensions.head?.filter fun extension =>
    state.parens = extension.parens + 1
  let state :=
    match closed? with
    | some extension =>
      let piece := Piece.ofOutput .parenthesis [')'] (closingOf readRest extension state)
      { state with extensions := state.extensions.drop 1 }.push
        { piece with isExtension := true }
    | none =>
      let output := if state.parens = 0 then ['\\', ')'] else [')']
      state.push (.ofOutput .parenthesis [')'] output)
  { state with parens := state.parens - 1 }.leave

/-! Braces -/

/-- Opens braces. -/
def readOpeningBrace (state : State) : State :=
  let brace : OpenBrace := ⟨state.output.length, state.pieces.length, false, false⟩
  let state := { state with braces := brace :: state.braces }.enter .braces
  state.push (.ofOutput .brace ['\x7b'] ['('])

/-- The expression of a range: a set, if its ends make one. -/
def rangeOutput (ends : List (List Char)) : List Char :=
  let ends := (Text.sortByUnits (ends.map String.ofList)).map String.toList
  let set := '[' :: (Text.joinWith ['-'] ends ++ [']'])
  if (Regex.ofText? set).isSome then set
  else Text.joinWith ['.', '.'] (ends.map escaped)

/-- Closes braces with a range: what they hold, without their opening, makes a set. -/
def closeRange (state : State) : State × List Char :=
  let ends := state.pieces.takeWhile (·.kind ≠ .brace)
  let output := rangeOutput ((ends.filter (·.kind ≠ .dots)).map Piece.value).reverse
  let pieces := state.pieces.drop (ends.length + 1)
  ({ state with pieces, mustRebuild := true }, output)

/-- Closes braces that are text. -/
def closePlain (brace : OpenBrace) (state : State) : State :=
  let place := state.pieces.length - 1 - brace.pieceCount
  let opening := ['\\', '\x7b']
  let pieces := state.pieces.modify place fun piece =>
    { piece with value := opening, output? := some opening }
  let within := (pieces.take (place + 1)).reverse
  let output := state.output.take brace.outputLength ++ within.flatMap Piece.outputOrValue
  { state with pieces, output }

/-- Closes braces, or reads a closing one that nothing opens. -/
def readClosingBrace (state : State) : State :=
  match state.braces with
  | [] => state.push (.ofOutput .text ['\x7d'] ['\x7d'])
  | brace :: outer =>
    let state :=
      if brace.hasDots then
        let (state, output) := state.closeRange
        state.push (.ofOutput .brace ['\x7d'] output)
      else if brace.hasComma then state.push (.ofOutput .brace ['\x7d'] [')'])
      else
        let closing := ['\\', '\x7d']
        (state.closePlain brace).push (.ofOutput .brace closing closing)
    { state with braces := outer }.leave

/-- Reads a comma. -/
def readComma (state : State) : State :=
  match state.nesting, state.braces with
  | .braces :: _, brace :: outer =>
    { state with braces := { brace with hasComma := true } :: outer }.push
      (.ofOutput .comma [','] ['|'])
  | _, _ => state.push (.ofOutput .comma [','] [','])

/-! Slashes and dots -/

/-- Reads a slash. A dot and a slash at the start are passed over. -/
def readSlash (index : Nat) (state : State) : State :=
  if state.last.kind = .dot && index = state.start + 1 then
    { state with start := index + 1, output := [], pieces := state.pieces.drop 1 }
  else state.push (.ofOutput .slash ['/'] slash)

/-- Reads a dot. -/
def readDot (state : State) : State :=
  let last := state.last
  match state.braces, last.kind with
  | brace :: outer, .dot =>
    let output := if last.value = ['.'] then dot else last.output
    { state with braces := { brace with hasDots := true } :: outer }.changeLast fun last =>
      { last with kind := .dots, value := last.value ++ ['.'], output? := some (output ++ ['.']) }
  | braces, kind =>
    if (braces.length : Int) + state.parens = 0 && kind ≠ .start && kind ≠ .slash then
      state.pushTextAs ['.'] dot
    else state.push (.ofOutput .dot ['.'] dot)

/-! Marks -/

/-- The characters that may follow a question mark at the start of parentheses. -/
def groupMarks : List Char := ['!', '=', '<', ':']

/-- Whether a text begins with the mark of a group that looks back, or of one with a name. -/
def isLookOrName (text : List Char) : Bool :=
  match text with
  | '<' :: c :: rest =>
    c == '!' || c == '=' ||
      let name := (c :: rest).takeWhile fun c => c.isAlphanum || c == '_'
      !name.isEmpty && ((c :: rest).drop name.length).head? == some '>'
  | _ => false

/-- Whether the mark of a group that looks back, or of one with a name, stands in a text. -/
def hasLookOrName : List Char → Bool
  | [] => false
  | c :: rest => isLookOrName (c :: rest) || hasLookOrName rest

/-- Reads a question mark. -/
def readQuestionMark (state : State) : State :=
  let last := state.last
  if last.value ≠ ['('] && state.isBeforeParenthesis false then state.openExtension .option
  else if last.kind = .parenthesis then
    let isPlain := last.value = ['('] && !state.unread.head?.any groupMarks.contains
    let isStray := state.unread.head? == some '<' && !hasLookOrName state.unread
    state.pushTextAs ['?'] (if isPlain || isStray then ['\\', '?'] else ['?'])
  else if !state.showHidden && (last.kind = .slash || last.kind = .start) then
    state.push (.ofOutput .mark ['?'] anyUnitNoDot)
  else state.push (.ofOutput .mark ['?'] anyUnit)

/-- Passes over further marks of negation at the start of a pattern, and gives their number. -/
def negations : List Char → Nat
  | '!' :: '(' :: '?' :: rest => 1 + negations ('(' :: '?' :: rest)
  | '!' :: '(' :: _ => 0
  | '!' :: rest => 1 + negations rest
  | _ => 0

/-- Reads marks of negation at the start of a pattern, of which two take each other back. -/
def negate (state : State) : State :=
  let more := negations state.unread
  let state := state.skip more
  if more % 2 = 1 then { state with start := state.start + more }
  else { state with start := state.start + more + 1, isNegated := true }

/-- Reads text up to a character that may have a meaning. -/
def readText (c : Char) (state : State) : State :=
  let isPlain (c : Char) : Bool := !"@![].,$*+?^\x7b\x7d()|\\/".toList.contains c
  let start := if c == '$' || c == '^' then ['\\', c] else [c]
  let more := state.unread.takeWhile isPlain
  (state.skip more.length).pushText (start ++ more)

/-- Reads an exclamation mark. -/
def readExclamationMark (index : Nat) (state : State) : State :=
  let opens :=
    match state.unread with
    | '(' :: '?' :: rest => !rest.head?.any groupMarks.contains
    | '(' :: _ => true
    | _ => false
  if opens then state.openExtension .negation
  else if index = 0 then state.negate
  else state.readText '!'

/-- Reads a plus sign. -/
def readPlus (state : State) : State :=
  let kind := state.last.kind
  if state.isBeforeParenthesis false then state.openExtension .many
  else if state.last.value = ['('] then state.push (.ofOutput .mark ['+'] ['\\', '+'])
  else if kind = .bracket || kind = .parenthesis || kind = .brace || 0 < state.parens then
    state.push (.ofValue .mark ['+'])
  else state.push (.ofValue .mark ['\\', '+'])

/-- Reads an at sign. -/
def readAt (state : State) : State :=
  if state.isBeforeParenthesis false then
    state.push { Piece.ofOutput .extension ['@'] [] with isExtension := true }
  else state.pushText ['@']

/-! Stars -/

/-- What is left of a text after any number of slashes with two stars that end a name. -/
def afterStars : Nat → List Char → List Char
  | fuel + 1, '/' :: '*' :: '*' :: rest =>
    if rest.head?.all (· == '/') then afterStars fuel rest else '/' :: '*' :: '*' :: rest
  | _, text => text

/-- Reads a slash after two stars. -/
def readSlashAfterStars (state : State) : State :=
  (state.skip 1).push (.ofOutput .slash ['/'] [])

/-- Makes the last piece two stars that are no names, or names after a slash. Its expression is
given without that of the slash.
-/
def starsAfterSlash (output : List Char) (star slash : Piece) (before : List Piece)
    (state : State) : State :=
  let start := dropEnd (slash.output.length + star.output.length) state.output
  let slash := { slash with output? := some ("(?:".toList ++ slash.output) }
  { state with
    pieces := star.toStars output :: slash :: before
    output := start ++ slash.output ++ output }

/-- Makes the last piece two stars at the start of a pattern. -/
def starsAtStart (output : List Char) (state : State) : State :=
  { state with output }.changeLast (·.toStars output)

/-- Makes the last piece two stars among others. -/
def starsInside (output : List Char) (state : State) : State :=
  { state with
    output := dropEnd state.last.output.length state.output ++ output }.changeLast
      (·.toStars output)

/-- Reads the second of two stars. They are any names where nothing else is between two
slashes.
-/
def readSecondStar (star prior : Piece) (before : List Piece) (state : State) : State :=
  let isInBraces := !state.braces.isEmpty && (prior.kind = .comma || prior.kind = .brace)
  let canBeNames :=
    prior.kind = .slash || prior.kind = .start || prior.kind = .parenthesis || isInBraces
  if !canBeNames then state.push (.ofOutput .star ['*'] [])
  else
    let unread := afterStars state.unread.length state.unread
    let state := state.skip (state.unread.length - unread.length)
    let names := anyNames state.showHidden
    let isAfterStars := before.head?.any fun piece => piece.kind = .star || piece.kind = .stars
    let isAfterSlash :=
      prior.kind = .slash && before.head?.any fun piece => piece.kind ≠ .start
    match state.unread with
    | [] =>
      if prior.kind = .start then state.starsAtStart names
      else if isAfterSlash && !isAfterStars then
        state.starsAfterSlash (names ++ "|$)".toList) star prior before
      else state.starsInside names
    | '/' :: rest =>
      if isAfterSlash then
        let atEnd := if rest.isEmpty then [] else "|$".toList
        let output := names ++ slash ++ '|' :: (slash ++ atEnd ++ [')'])
        (state.starsAfterSlash output star prior before).readSlashAfterStars
      else if prior.kind = .start then
        let output := "(?:^|".toList ++ slash ++ '|' :: (names ++ slash ++ [')'])
        (state.starsAtStart output).readSlashAfterStars
      else state.starsInside names
    | _ => state.starsInside names

/-- Reads a star that does not follow another one. At the start of a name it needs a unit, and
does not stand for the dot of a hidden name.
-/
def readFirstStar (index : Nat) (state : State) : State :=
  let kind := state.last.kind
  let guarded :=
    if index = state.start || kind = .slash || kind = .dot then
      let guard :=
        if kind = .dot then noShortName
        else if state.showHidden then noDotName
        else noDot
      let more := if state.unread.head? == some '*' then [] else beforeUnit
      (state.write (guard ++ more)).changeLast (·.addOutput (guard ++ more))
    else state
  guarded.push (.ofOutput .star ['*'] anyUnits)

/-- Reads a star. -/
def readStar (index : Nat) (state : State) : State :=
  let last := state.last
  if last.kind = .stars || last.hasMoreStars then
    { state with mustRebuild := true }.changeLast fun last =>
      { last with
        kind := .star, hasMoreStars := true, value := last.value ++ ['*']
        output? := some anyUnits }
  else if state.isBeforeParenthesis true then state.openExtension .any
  else
    match last.kind, state.pieces with
    | .star, star :: prior :: before => state.readSecondStar star prior before
    | _, _ => state.readFirstStar index

/-! All characters -/

/-- Whether a character in brackets belongs to them. -/
def belongsToBracket (c : Char) (state : State) : Bool :=
  c != ']' || state.last.value = ['['] || state.last.value = ['[', '^']

/-- Reads a character outside brackets and quotes. -/
def readMark (readRest : List Char → List Char) (index : Nat) (c : Char) (state : State)
    : State :=
  match c with
  | '"' => { state with isQuoted := !state.isQuoted }
  | '(' => state.readOpeningParenthesis
  | ')' => state.readClosingParenthesis readRest
  | '[' => state.readOpeningBracket
  | ']' => state.readClosingBracket
  | '\x7b' => state.readOpeningBrace
  | '\x7d' => state.readClosingBrace
  | '|' => state.pushText ['|']
  | ',' => state.readComma
  | '/' => state.readSlash index
  | '.' => state.readDot
  | '?' => state.readQuestionMark
  | '!' => state.readExclamationMark index
  | '+' => state.readPlus
  | '@' => state.readAt
  | '*' => state.readStar index
  | c => state.readText c

/-- Reads a character and what belongs to it. -/
def readNext (readRest : List Char → List Char) (state : State) : State :=
  match state.unread with
  | [] => state
  | c :: _ =>
    let index := state.position
    let state := state.skip 1
    if c == '\x00' then state
    else if c == '\\' then state.readEscape
    else if state.isInBracket && state.belongsToBracket c then state.readInBracket [c]
    else if state.isQuoted && c != '"' then state.extend (escaped [c])
    else state.readMark readRest index c

/-- Reads all characters, with a bound on their number. -/
def readAll (readRest : List Char → List Char) : Nat → State → State
  | 0, state => state
  | fuel + 1, state =>
    if state.unread.isEmpty then state else readAll readRest fuel (state.readNext readRest)

/-- The state at the end of a pattern. Marks that have opened something that is not closed have
no meaning, and a name that ends with stars or brackets may be followed by a slash.
-/
def finish (state : State) : State :=
  let output :=
    if state.isInBracket then escapeLast '[' 1 state.output else state.output
  let output := escapeLast '(' state.parens.toNat output
  let output := escapeLast '\x7b' state.braces.length output
  let state := { state with output }
  let state :=
    if state.last.kind = .star || state.last.kind = .bracket then
      state.push (.ofOutput .ending [] (slash ++ ['?']))
    else state
  if state.mustRebuild then
    { state with output := state.pieces.reverse.flatMap Piece.output }
  else state

end State

end Stencil.Files.Glob.Expression
