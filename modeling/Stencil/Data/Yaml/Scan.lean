import Stencil.Data.Yaml.Lexeme

/-!
Cutting a YAML text into lexemes. Where a lexeme ends depends on the brackets around it and on
the indentation that the next line must have to go on with a scalar.
-/

namespace Stencil.Data.Yaml

/-- What stands next: lines outside documents, the content of a document, or what is between
brackets.
-/
inductive Region where
  | stream
  | document
  | brackets
  deriving DecidableEq, Repr, Inhabited

/-- A text cut up to a place. `least` is the indentation that lines need to belong to the node
that has begun, and `column` the indentation of the current line. `isAfterKey` says that a
colon inside brackets needs no gap after it.
-/
structure Scan where
  chars : Array Char
  place : Nat
  depth : Nat
  isAfterKey : Bool
  least : Nat
  column : Nat
  found : Array (Kind × List Char)

namespace Scan

/-- The start of a text. -/
def ofText (text : List Char) : Scan :=
  ⟨text.toArray, 0, 0, false, 0, 0, #[]⟩

/-- The character some places ahead. -/
def char? (scan : Scan) (ahead : Nat) : Option Char :=
  scan.chars[scan.place + ahead]?

/-- Whether a gap stands some places ahead: a blank, a line break, or the end of the text. -/
def isGapAt (scan : Scan) (index : Nat) : Bool :=
  scan.chars[index]?.all fun c => c == ' ' || c == '\n' || c == '\r' || c == '\t'

/-- The characters from one index to before another. -/
def slice (scan : Scan) (first last : Nat) : List Char :=
  (scan.chars.extract first last).toList

/-- Takes some characters as a lexeme; none if there are no characters. -/
def take (count : Nat) (scan : Scan) : Scan :=
  let text := scan.slice scan.place (scan.place + count)
  if text.isEmpty then scan
  else
    { scan with
      place := scan.place + text.length
      found := scan.found.push (Kind.ofText text, text) }

/-- Takes the characters before an index as a plain or block scalar. -/
def takeScalar (last : Nat) (scan : Scan) : Scan :=
  let text := scan.slice scan.place last
  { scan with
    place := scan.place + text.length
    found := scan.found.push (.scalar, text) }

/-- Adds a lexeme without text. -/
def note (kind : Kind) (scan : Scan) : Scan :=
  { scan with found := scan.found.push (kind, []) }

/-- The first index from one on at which a character fails a test, or the end of the text. -/
def skipWhile (scan : Scan) (test : Char → Bool) (index : Nat) : Nat :=
  go (scan.chars.size - index) index
where
  /-- Looks at up to `left` characters. -/
  go : Nat → Nat → Nat
    | 0, index => index
    | left + 1, index =>
      match scan.chars[index]? with
      | some c => if test c then go left (index + 1) else index
      | none => index

/-- Takes blanks. -/
def takeBlanks (scan : Scan) : Scan :=
  scan.take (scan.skipWhile (fun c => c == ' ' || c == '\t') scan.place - scan.place)

/-- The number of spaces from an index on. -/
def spacesAt (scan : Scan) (index : Nat) : Nat :=
  scan.skipWhile (· == ' ') index - index

/-- Takes spaces, which indent the line. -/
def takeSpaces (scan : Scan) : Scan :=
  scan.take (scan.spacesAt scan.place)

/-- The index of the first line feed from an index on. -/
def lineFeed? (scan : Scan) (index : Nat) : Option Nat :=
  let last := scan.skipWhile (· != '\n') index
  if last < scan.chars.size then some last else none

/-- The character that stands next on the current line. -/
def inLine? (scan : Scan) : Option Char :=
  match scan.char? 0, scan.char? 1 with
  | some '\n', _ => none
  | some '\r', some '\n' => none
  | c?, _ => c?

/-- The index at which the current line ends, before its line break. -/
def lineEnd (scan : Scan) : Nat :=
  match scan.lineFeed? scan.place with
  | none => scan.chars.size
  | some last =>
    if scan.place < last && scan.chars[last - 1]? == some '\r' then last - 1 else last

/-- Takes the rest of the current line. -/
def takeLine (scan : Scan) : Scan :=
  scan.take (scan.lineEnd - scan.place)

/-- Takes a line break. -/
def takeBreak (scan : Scan) : Scan :=
  match scan.char? 0, scan.char? 1 with
  | some '\n', _ => scan.take 1
  | some '\r', some '\n' => scan.take 2
  | _, _ => scan

/-- Whether only blanks and a comment are left of the current line. -/
def isAtLineEnd (scan : Scan) : Bool :=
  let index := scan.skipWhile (fun c => c == ' ' || c == '\t') scan.place
  match scan.chars[index]?, scan.chars[index + 1]? with
  | none, _ => true
  | some '#', _ => true
  | some '\n', _ => true
  | some '\r', some '\n' => true
  | _, _ => false

/-- Whether a document mark stands at an index. -/
def isMarkAt (scan : Scan) (index : Nat) : Bool :=
  let text := scan.slice index (index + 3)
  (text == ['-', '-', '-'] || text == ['.', '.', '.']) && scan.isGapAt (index + 3)

/-- The index at which a scalar goes on in the line that starts at an index, if it does. -/
def goesOn? (scan : Scan) (index : Nat) : Option Nat :=
  if scan.least = 0 then
    if scan.isMarkAt index then none else some index
  else
    let spaces := scan.spacesAt index
    let next := index + spaces
    match scan.chars[next]?, scan.chars[next + 1]? with
    | some '\r', some '\n' => some (next + 1)
    | some '\n', _ => some next
    | _, _ => if scan.least ≤ spaces then some next else none

/-- Whether a character ends a plain scalar inside brackets. -/
def isBracketMark (c : Char) : Bool :=
  c == ',' || c == '[' || c == ']' || c == '\x7b' || c == '\x7d'

/-- Whether a character may stand in the name of an anchor or an alias. -/
def isNameChar (c : Char) : Bool :=
  !(c == ' ' || isBracketMark c || c == '\n' || c == '\r' || c == '\t')

/-- Takes a mark and the name after it. -/
def takeName (scan : Scan) : Scan :=
  scan.take (scan.skipWhile isNameChar scan.place - scan.place)

/-- Whether a character may stand in a tag as it is. -/
def isTagChar (c : Char) : Bool :=
  c.isAlphanum || "-#;/?:@&=+$_.!~*'()".toList.contains c

/-- The index after a tag that goes on at an index. -/
def tagEnd (scan : Scan) : Nat → Nat → Nat
  | 0, index => index
  | left + 1, index =>
    let isHex (c? : Option Char) : Bool :=
      c?.any fun c => c.isDigit || ('a' ≤ c && c ≤ 'f') || ('A' ≤ c && c ≤ 'F')
    match scan.chars[index]? with
    | none => index
    | some c =>
      if isTagChar c then scan.tagEnd left (index + 1)
      else if c == '%' && isHex scan.chars[index + 1]? && isHex scan.chars[index + 2]? then
        scan.tagEnd left (index + 3)
      else index

/-- Takes a tag. -/
def takeTag (scan : Scan) : Scan :=
  if scan.char? 1 == some '<' then
    let last :=
      scan.skipWhile (fun c => c != '>' && c != ' ' && c != '\n' && c != '\r' && c != '\t')
        (scan.place + 2)
    scan.take ((if scan.chars[last]? == some '>' then last + 1 else last) - scan.place)
  else
    scan.take (scan.tagEnd scan.chars.size (scan.place + 1) - scan.place)

/-- Takes the properties and marks before a node, with the blanks after each. -/
def takeProperties : Nat → Scan → Scan
  | 0, scan => scan
  | fuel + 1, scan =>
    match scan.char? 0 with
    | some '!' => takeProperties fuel scan.takeTag.takeBlanks
    | some '&' => takeProperties fuel scan.takeName.takeBlanks
    | some c =>
      let inBrackets := 0 < scan.depth
      let isMark :=
        (c == '-' || c == '?' || c == ':')
          && (scan.isGapAt (scan.place + 1)
            || (inBrackets && (scan.char? 1).any isBracketMark))
      if isMark then
        let scan :=
          if inBrackets then { scan with isAfterKey := false }
          else { scan with least := scan.column + 1 }
        takeProperties fuel (scan.take 1).takeBlanks
      else scan
    | none => scan

/-- The index after a plain scalar, looking on from an index. `last` is the index after the
scalar as far as it is known.
-/
def plainEnd (scan : Scan) : Nat → Nat → Nat → Nat
  | 0, last, _ => last
  | left + 1, last, index =>
    let inBrackets := 0 < scan.depth
    let isMark (c? : Option Char) : Bool := inBrackets && c?.any isBracketMark
    match scan.chars[index]? with
    | none => last
    | some ':' =>
      if scan.isGapAt (index + 1) || isMark scan.chars[index + 1]? then last
      else scan.plainEnd left (index + 1) (index + 1)
    | some c =>
      if c == ' ' || c == '\t' || c == '\n' || c == '\r' then
        let isPair := c == '\r' && scan.chars[index + 1]? == some '\n'
        let last := if c == '\r' && !isPair then index + 1 else last
        let index := if isPair then index + 1 else index
        let next? := scan.chars[index + 1]?
        if next? == some '#' || isMark next? then last
        else if c == '\n' || isPair then
          match scan.goesOn? (index + 1) with
          | none => last
          | some next => scan.plainEnd left last (max (index + 1) (next - 1))
        else scan.plainEnd left last (index + 1)
      else if isMark (some c) then last
      else scan.plainEnd left (index + 1) (index + 1)

/-- Takes a plain scalar. -/
def takePlain (scan : Scan) : Scan :=
  scan.takeScalar (scan.plainEnd (scan.chars.size + 1) scan.place scan.place)

/-- The index of the quote that closes a scalar, looking on from an index. -/
def closingQuote? (scan : Scan) (quote : Char) : Nat → Nat → Option Nat
  | 0, _ => none
  | left + 1, index =>
    match scan.chars[index]? with
    | none => none
    | some c =>
      if c == '\\' && quote == '"' then scan.closingQuote? quote left (index + 2)
      else if c == quote then
        if quote == '\'' && scan.chars[index + 1]? == some quote then
          scan.closingQuote? quote left (index + 2)
        else some index
      else scan.closingQuote? quote left (index + 1)

/-- The index of the first line feed from an index on, and before `last`, after which a scalar
does not go on.
-/
def brokenAt? (scan : Scan) (last : Nat) : Nat → Nat → Option Nat
  | 0, _ => none
  | left + 1, index =>
    match scan.lineFeed? index with
    | none => none
    | some feed =>
      if last ≤ feed then none
      else
        match scan.goesOn? (feed + 1) with
        | none => some feed
        | some next => scan.brokenAt? last left next

/-- Takes a quoted scalar, or its part before a line that is not indented enough. -/
def takeQuoted (scan : Scan) : Scan :=
  let quote := (scan.char? 0).getD '"'
  let size := scan.chars.size
  match scan.closingQuote? quote size (scan.place + 1) with
  | none => scan.take (size - scan.place)
  | some last =>
    match scan.brokenAt? last size scan.place with
    | none => scan.take (last + 1 - scan.place)
    | some feed =>
      let last := if scan.chars[feed - 1]? == some '\r' then feed - 1 else feed
      scan.take (last - scan.place)

/-- The indentation that the header of a block scalar asks for, less one, and whether it keeps
the line breaks at the end.
-/
def headerFacts (scan : Scan) : Nat → Nat → Option Nat × Bool → Option Nat × Bool
  | 0, _, facts => facts
  | left + 1, index, (indent?, keeps) =>
    match scan.chars[index]? with
    | some '+' => scan.headerFacts left (index + 1) (indent?, true)
    | some '-' => scan.headerFacts left (index + 1) (indent?, keeps)
    | some c =>
      if '1' ≤ c && c ≤ '9' then
        scan.headerFacts left (index + 1) (some (c.toNat - '1'.toNat), keeps)
      else (indent?, keeps)
    | none => (indent?, keeps)

/-- The start of the first line of a block scalar that holds more than spaces, or of the last
line, and the spaces on it. `start` is the start of the current line.
-/
def firstLine (scan : Scan) : Nat → Nat → Nat → Nat × Nat
  | 0, start, index => (start, index - start)
  | left + 1, start, index =>
    match scan.chars[index]?, scan.chars[index + 1]? with
    | some ' ', _ => scan.firstLine left start (index + 1)
    | some '\n', _ => scan.firstLine left (index + 1) (index + 1)
    | some '\r', some '\n' => scan.firstLine left (index + 2) (index + 2)
    | _, _ => (start, index - start)

/-- The start of the first line from one on that is not indented enough; one more than the end
of the text if there is none.
-/
def lastLine (scan : Scan) : Nat → Nat → Nat
  | 0, start => start
  | left + 1, start =>
    match scan.goesOn? start with
    | none => start
    | some next =>
      match scan.lineFeed? next with
      | none => scan.chars.size + 1
      | some feed => scan.lastLine left (feed + 1)

/-- Drops lines of spaces from the end of a block scalar, unless one of them is indented more
than `indent`. `start` is the start of the line after the scalar.
-/
def withoutBlankLines (scan : Scan) (indent : Nat) : Nat → Nat → Nat
  | 0, start => start
  | left + 1, start =>
    if start < scan.place + 2 then start
    else
      let last :=
        if scan.chars[start - 2]? == some '\r' then start - 3 else start - 2
      let first := backOverSpaces scan last last
      if scan.chars[first]? == some '\n' && scan.place ≤ first && last < first + 1 + indent then
        scan.withoutBlankLines indent left (first + 1)
      else start
where
  /-- The index of the last character that is no space, at an index or before it. -/
  backOverSpaces (scan : Scan) : Nat → Nat → Nat
    | 0, index => index
    | left + 1, index =>
      if scan.chars[index]? == some ' ' then backOverSpaces scan left (index - 1) else index

/-- Takes the text of a block scalar, which starts on the line below its header. Blanks that a
tab leads in below the scalar are taken with it, where they will be found wanting.
-/
def takeBlock (indent? : Option Nat) (keeps : Bool) (scan : Scan) : Scan :=
  let size := scan.chars.size
  let (start, indent) := scan.firstLine (size + 1) scan.place scan.place
  let isFilled := decide (scan.least ≤ indent)
  let scan :=
    if isFilled then
      { scan with
        least :=
          match indent? with
          | none => indent
          | some more => more + max scan.least 1 }
    else scan
  let start := if isFilled then scan.lastLine (size + 1) start else start
  let next := start + scan.spacesAt start
  if scan.chars[next]? == some '\t' then
    let isBlank (c : Char) : Bool := c == '\t' || c == ' ' || c == '\r' || c == '\n'
    scan.takeScalar (scan.skipWhile isBlank next)
  else if keeps then scan.takeScalar start
  else scan.takeScalar (scan.withoutBlankLines indent (size + 1) start)

/-- Takes the marks that start the items and entries on a line. -/
def takeMarks : Nat → Scan → Scan
  | 0, scan => scan
  | fuel + 1, scan =>
    match scan.char? 0 with
    | some c =>
      if (c == '-' || c == '?' || c == ':') && scan.isGapAt (scan.place + 1) then
        let taken := (scan.take 1).takeBlanks
        takeMarks fuel
          { taken with
            least := scan.column + 1
            column := scan.column + (taken.place - scan.place) }
      else scan
    | none => scan

/-- Takes what indents a line. A document mark there ends the document, and a line that is
indented less than its node ends the node.
-/
def takeIndent (scan : Scan) : Scan × Region :=
  if scan.isMarkAt scan.place then
    let region := if scan.char? 0 == some '-' then Region.document else .stream
    ({ scan.take 3 with column := 0, least := 0 }, region)
  else
    let taken := scan.takeSpaces
    let column := taken.place - scan.place
    let least :=
      if column < scan.least && !taken.isGapAt (taken.place + 1) then column else scan.least
    (takeMarks scan.chars.size { taken with column, least }, .document)

/-- Takes a line outside documents, or starts a document. -/
def takeOutside (scan : Scan) : Scan × Region :=
  let scan := if scan.char? 0 == some '\ufeff' then scan.take 1 else scan
  if scan.char? 0 == some '%' then
    let line := scan.slice scan.place scan.lineEnd
    let last := directiveEnd ' ' line 0 0
    (((scan.take last).takeBlanks.takeLine).takeBreak, .stream)
  else if scan.isAtLineEnd then (scan.takeBlanks.takeLine.takeBreak, .stream)
  else (scan.note .content).takeIndent
where
  /-- The length of a directive without the comment and the blanks after it. `before` is the
  character before the rest of the line, `length` the length so far and `last` the length up
  to the last character that is no blank.
  -/
  directiveEnd (before : Char) : List Char → Nat → Nat → Nat
    | [], _, last => last
    | c :: rest, length, last =>
      if c == '#' && length != 0 && (before == ' ' || before == '\t') then last
      else
        directiveEnd c rest (length + 1)
          (if c == ' ' || c == '\t' then last else length + 1)

/-- The region after a scalar. -/
def region (scan : Scan) : Region :=
  if 0 < scan.depth then .brackets else .document

/-- Takes what stands next in a document, outside brackets. -/
def takeInside (scan : Scan) : Scan × Region :=
  let scan := takeProperties scan.chars.size scan.takeBlanks
  match scan.inLine? with
  | none => scan.takeBreak.takeIndent
  | some c =>
    if c == '#' then scan.takeLine.takeBreak.takeIndent
    else if c == '\x7b' || c == '[' then
      ({ scan.take 1 with isAfterKey := false, depth := 1 }, .brackets)
    else if c == '\x7d' || c == ']' then (scan.take 1, .document)
    else if c == '*' then (scan.takeName, .document)
    else if c == '"' || c == '\'' then
      let scan := scan.takeQuoted
      (scan, scan.region)
    else if c == '|' || c == '>' then
      let (indent?, keeps) := scan.headerFacts scan.chars.size (scan.place + 1) (none, false)
      let isHeader (c : Char) : Bool :=
        !(c == ' ' || c == '\n' || c == '\r' || c == '\t' || c == '#')
      let scan := scan.take (scan.skipWhile isHeader scan.place - scan.place)
      (takeBlock indent? keeps scan.takeBlanks.takeLine.takeBreak).takeIndent
    else
      let scan := scan.takePlain
      (scan, scan.region)

/-- Takes blanks and line breaks between brackets; with the spaces on the last line, if a line
has begun.
-/
def takeGaps : Nat → Option Nat → Scan → Option Nat × Scan
  | 0, indent?, scan => (indent?, scan)
  | fuel + 1, indent?, scan =>
    let broken := scan.takeBreak
    let (indent?, taken) :=
      if broken.place = scan.place then (indent?, scan.takeBlanks)
      else
        let spaced := broken.takeSpaces
        let column := spaced.place - broken.place
        (some column, { spaced with column }.takeBlanks)
    if taken.place = scan.place then (indent?, scan) else takeGaps fuel indent? taken

/-- Takes commas and the blanks after each. -/
def takeCommas : Nat → Scan → Scan
  | 0, scan => scan
  | fuel + 1, scan =>
    if scan.char? 0 == some ',' then
      takeCommas fuel { (scan.take 1).takeBlanks with isAfterKey := false }
    else scan

/-- Whether a line between brackets, with its indentation, breaks them off. -/
def breaksOff (scan : Scan) (indent : Nat) : Bool :=
  let isClosing := scan.inLine? == some ']' || scan.inLine? == some '\x7d'
  let isShort := decide (indent < scan.least) && scan.inLine? != some '#'
  (isShort || (indent = 0 && scan.isMarkAt scan.place))
    && !(indent + 1 = scan.least && scan.depth = 1 && isClosing)

/-- Takes what stands next between brackets. -/
def takeBracketed (scan : Scan) : Scan × Region :=
  let (indent?, scan) := takeGaps (scan.chars.size + 1) none scan
  if indent?.any scan.breaksOff then
    { scan with depth := 0 }.note .breakOff |>.takeIndent
  else
    let scan := takeProperties scan.chars.size (takeCommas scan.chars.size scan)
    let afterKey (value : Bool) (scan : Scan) : Scan := { scan with isAfterKey := value }
    match scan.inLine? with
    | none => (scan, .brackets)
    | some c =>
      if c == '#' then (scan.takeLine, .brackets)
      else if c == '\x7b' || c == '[' then
        ({ afterKey false (scan.take 1) with depth := scan.depth + 1 }, .brackets)
      else if c == '\x7d' || c == ']' then
        let scan := { afterKey true (scan.take 1) with depth := scan.depth - 1 }
        (scan, scan.region)
      else if c == '*' then (scan.takeName, .brackets)
      else if c == '"' || c == '\'' then ((afterKey true scan).takeQuoted, .brackets)
      else
        let isMark :=
          c == ':'
            && (scan.isAfterKey || scan.isGapAt (scan.place + 1) || scan.char? 1 == some ',')
        if isMark then ((afterKey false scan).take 1 |>.takeBlanks, .brackets)
        else ((afterKey false scan).takePlain, .brackets)

/-- Takes what stands next. -/
def takeNext : Scan × Region → Scan × Region
  | (scan, .stream) => scan.takeOutside
  | (scan, .document) => scan.takeInside
  | (scan, .brackets) => scan.takeBracketed

/-- Takes all that is left. Every second step at least takes a character. -/
def takeAll : Nat → Scan × Region → Scan
  | 0, (scan, _) => scan
  | fuel + 1, (scan, region) =>
    if scan.place < scan.chars.size then takeAll fuel (takeNext (scan, region)) else scan

end Scan

/-- The lexemes of a text: their kinds and their texts. -/
def lexemesOf (text : List Char) : List (Kind × List Char) :=
  let scan := Scan.ofText text
  (Scan.takeAll (3 * scan.chars.size + 3) (scan, .stream)).found.toList

end Stencil.Data.Yaml
