import Stencil.Data.Yaml.Folding
import Stencil.Data.Yaml.Node
import Stencil.Json.Writer
import Stencil.Text

/-!
The text of a list or a map where it is a key: it is written between brackets, with its scalars
as they were spelled where that is possible.
-/

namespace Stencil.Data.Yaml.Node

/-- What is around a text: its indentation, whether the entries around it have no values, whether
it is a key on one line, and the characters before it on its line.
-/
structure Around where
  indent : Nat
  isVoid : Bool
  isKey : Bool
  used? : Option Nat
  deriving Repr, Inhabited

/-- A run of spaces. -/
def spaces (count : Nat) : String :=
  String.ofList (List.replicate count ' ')

/-- The lines of a text. -/
def textLines (text : String) : List String :=
  (Text.splitOn '\n' text.toList).map String.ofList

/-- A comment with its marks. -/
def commentText (comment : String) : String :=
  let mark (line : String) : String :=
    if line = "" then "" else if line = " " then "#" else "#" ++ line
  "\n".intercalate ((textLines comment).map mark)

/-- A comment with its lines indented. -/
def indented (indent : Nat) (comment : String) : String :=
  if comment != "" && comment.toList.all (· == '\n') then String.ofList (comment.toList.drop 1)
  else
    let shift (line : String) : String :=
      if line.toList.all (· == ' ') then line else spaces indent ++ line
    "\n".intercalate ((textLines comment).map shift)

/-- A comment as it follows a text on its line. -/
def lineComment (text : String) (indent : Nat) (comment : String) : String :=
  let comment := commentText comment
  if text.toList.getLast? == some '\n' then indented indent comment
  else if comment.toList.contains '\n' then "\n" ++ indented indent comment
  else if text.toList.getLast? == some ' ' then comment
  else " " ++ comment

/-- The length of a text in 16-bit units. -/
def length (text : String) : Nat :=
  Text.units text.toList

/-! Scalars -/

/-- The escapes of control characters that have a letter. -/
def controlLetters : List (Char × Char) :=
  [('\x00', '0'), ('\x07', 'a'), ('\x08', 'b'), ('\t', 't'), ('\x0b', 'v'), ('\x0c', 'f'),
    ('\r', 'r'), ('\x1b', 'e'), ('"', '"'), ('\\', '\\')]

/-- A character between double quotes. -/
def escaped (c : Char) : List Char :=
  match controlLetters.lookup c with
  | some letter => ['\\', letter]
  | none =>
    if c.toNat < 0x20 then
      ['\\', 'x', Json.hexChar (c.toNat / 16), Json.hexChar (c.toNat % 16)]
    else [c]

/-- The width from which on a text between double quotes is written over several lines. -/
def splitWidth : Nat := 40

/-- What stands between double quotes. Line breaks are escaped or doubled, and so are the
spaces beside them.
-/
def doubleContent (isSplit : Bool) (indent : Nat) : Nat → List Char → List Char
  | 0, _ => []
  | _, [] => []
  | fuel + 1, ' ' :: '\n' :: rest =>
    '\\' :: ' ' :: doubleContent isSplit indent fuel ('\n' :: rest)
  | fuel + 1, '\n' :: rest =>
    if !isSplit || rest.isEmpty then '\\' :: 'n' :: doubleContent isSplit indent fuel rest
    else
      let breaks := rest.takeWhile (· == '\n')
      let breaks := if breaks.length = rest.length then breaks.dropLast else breaks
      let rest := rest.drop breaks.length
      let mark := if rest.head? == some ' ' then ['\\'] else []
      '\n' :: '\n' :: breaks ++ List.replicate indent ' ' ++ mark
        ++ doubleContent isSplit indent fuel rest
  | fuel + 1, c :: rest => escaped c ++ doubleContent isSplit indent fuel rest

/-- Whether a line of a text looks like the start of a document or a directive. -/
def hasMark (text : List Char) : Bool :=
  (Text.splitOn '\n' text).any fun line =>
    ['%'].isPrefixOf line || ['-', '-', '-'].isPrefixOf line || ['.', '.', '.'].isPrefixOf line

/-- The indentation of the lines of a quoted text. -/
def quotedIndent (around : Around) (text : List Char) : Nat :=
  if around.indent = 0 && hasMark text then 2 else around.indent

/-- A text between double quotes. -/
def doubleQuoted (around : Around) (text : List Char) : List Char :=
  let indent := quotedIndent around text
  let isLong := decide (splitWidth ≤ length (Json.quote (String.ofList text)))
  let isSplit := isLong && !around.isKey
  let quoted := '"' :: doubleContent isSplit indent (2 * text.length + 1) text ++ ['"']
  if around.isKey then quoted else Folding.fold true indent around.used? quoted

/-- A text with an indented line break after each run of line breaks. -/
def withBreaks (indent : Nat) : List Char → List Char
  | [] => []
  | '\n' :: rest =>
    match rest with
    | '\n' :: _ => '\n' :: withBreaks indent rest
    | _ => '\n' :: '\n' :: List.replicate indent ' ' ++ withBreaks indent rest
  | c :: rest => c :: withBreaks indent rest

/-- Whether two neighbours in a text pass a test. -/
def hasNeighbours (test : Char → Char → Bool) : List Char → Bool
  | a :: b :: rest => test a b || hasNeighbours test (b :: rest)
  | _ => false

/-- Whether a character is a space or a tab. -/
def isSpacing (c : Char) : Bool :=
  c == ' ' || c == '\t'

/-- A text between single quotes, or between double quotes where it cannot be. -/
def singleQuoted (around : Around) (text : List Char) : List Char :=
  let hasSpacedBreak :=
    hasNeighbours (fun a b => (isSpacing a && b == '\n') || (a == '\n' && isSpacing b)) text
  if (around.isKey && text.contains '\n') || hasSpacedBreak then doubleQuoted around text
  else
    let indent := quotedIndent around text
    let doubled := text.flatMap fun c => if c == '\'' then ['\'', '\''] else [c]
    let quoted := '\'' :: withBreaks indent doubled ++ ['\'']
    if around.isKey then quoted else Folding.fold false indent around.used? quoted

/-- A text between the quotes that it does not hold itself. -/
def quoted (around : Around) (text : List Char) : List Char :=
  if text.contains '"' && !text.contains '\'' then singleQuoted around text
  else doubleQuoted around text

/-- Whether a text would not be read back as a plain scalar. -/
def needsQuotes (text : List Char) : Bool :=
  let isMark (c : Char) : Bool := "\n\t ,[]\x7b\x7d#&*!|>'\"%@\x60".toList.contains c
  let isStart (c : Char) : Bool := c == '?' || c == '-'
  text.head?.any isMark
    || (text.head?.any isStart && (text.drop 1).head?.all isSpacing)
    || hasNeighbours
      (fun a b =>
        ((a == '\n' || a == ':') && isSpacing b) || (isSpacing a && b == '\n')
          || ((a == '\n' || isSpacing a) && b == '#')) text
    || text.getLast?.any fun c => c == '\n' || isSpacing c || c == ':' || c == '-'

/-- A text as a plain scalar, or between quotes where it cannot be one. -/
def plainText (version : Version) (around : Around) (text : List Char) : List Char :=
  let hasBracket := text.any fun c => "[]\x7b\x7d,".toList.contains c
  if (around.isKey && text.contains '\n') || hasBracket || needsQuotes text then
    quoted around text
  else
    let plain := withBreaks around.indent text
    if (Schema.rules version).any fun rule => (rule.read? plain).isSome then quoted around text
    else if around.isKey then plain
    else Folding.fold false around.indent around.used? plain

/-- Whether a character is written between double quotes only. -/
def isControl (c : Char) : Bool :=
  c.toNat < 0x9 || (0xb ≤ c.toNat && c.toNat < 0x20) || (0x7f ≤ c.toNat && c.toNat < 0xa0)

/-- A text in a style. -/
def styled (version : Version) (around : Around) (style : Style) (text : List Char)
    : List Char :=
  if text.any isControl then doubleQuoted around text
  else
    match style with
    | .plain => plainText version around text
    | .single => singleQuoted around text
    | .double => doubleQuoted around text
    | _ => quoted around text

/-- The digits of a natural number in a base. -/
def digitsIn (base : Nat) (n : Nat) : String :=
  String.ofList (Nat.toDigits base n)

/-- The text of a number to the base sixty. -/
def sexagesimalText (n : Int) : String :=
  let total := n.natAbs
  let parts :=
    if total < 60 then [0, total]
    else if total / 60 < 60 then [total / 60, total % 60]
    else [total / 3600, total / 60 % 60, total % 60]
  (if n < 0 then "-" else "") ++ ":".intercalate (parts.map fun n => Date.padded 2 (toString n))

/-- The usual text of a number. -/
def usualText (x : Number) : String :=
  match x with
  | .nan => ".nan"
  | .infinity negative => if negative then "-.inf" else ".inf"
  | .finite negative magnitude =>
    if negative && magnitude.significand = 0 then "-0" else x.text

/-- A number with at least some digits after its point. -/
def withPlaces (places : Nat) (text : String) : String :=
  if places = 0 || text.toList.contains 'e' || !(text.toList.getLast?.any Char.isDigit) then text
  else
    let fraction := (text.toList.dropWhile (· != '.')).drop 1
    let point := if text.toList.contains '.' then "" else "."
    text ++ point ++ String.ofList (List.replicate (places - fraction.length) '0')

/-- A number with an exponent. -/
def exponentText (x : Number) : String :=
  match x with
  | .finite negative magnitude =>
    if magnitude.significand = 0 then "0e+0"
    else Number.signed negative (Decimal.shortest magnitude).scientific
  | x => usualText x

/-- The text of a number in the form in which it was spelled. -/
def numberText (version : Version) (reading : Reading) (isInteger : Bool) (x : Number) : String :=
  let based (base : Nat) (start : String) : String :=
    match x.toInt? with
    | some n => (if n < 0 then "-" else "") ++ start ++ digitsIn base n.natAbs
    | none => usualText x
  match reading.form with
  | .binary => based 2 "0b"
  | .octal => based 8 (if version == .core then "0o" else "0")
  | .hexadecimal => based 16 "0x"
  | .exponent => exponentText x
  | .sexagesimal => (x.toInt?.map sexagesimalText).getD (usualText x)
  | .usual => if isInteger then usualText x else withPlaces reading.places (usualText x)

/-- The text of a truth value, as it was spelled where that has the same value. -/
def booleanText (version : Version) (value : Plain) (source : String) : String :=
  let spelled? :=
    (Schema.rules version).findSome? fun rule =>
      if rule.tag = knownTag "bool" then rule.read? source.toList else none
  match spelled?.map Reading.value, value with
  | some (.boolean a), .boolean b => if a == b then source else if b then "true" else "false"
  | _, value => if value.isTrue then "true" else "false"

/-- The text of nothing, as it was spelled where that is nothing. -/
def nullText (source : String) : String :=
  if (Schema.nothing.read? source.toList).isSome then source else "null"

/-- The text of a scalar by its value. -/
def valueText (version : Version) (around : Around) (reading : Reading) (source : String)
    (style : Style) (isInteger : Bool) : String :=
  match reading.value with
  | .null => nullText source
  | .boolean b => booleanText version (.boolean b) source
  | .number x => numberText version reading isInteger x
  | .time (some millis) => Timestamp.text millis
  | .bytes octets =>
    let style := if style == .double then Style.double else .literal
    String.ofList (styled version around style (Text.Base64.encode octets))
  | .text s => String.ofList (styled version around style s.toList)
  | _ => "<<"

/-- The text of a scalar, by its tag or else by its value. -/
def scalarText (version : Version) (around : Around) (reading : Reading) (source : String)
    (style : Style) (tag? : Option String) : String :=
  let isNumeric := tag? == some (knownTag "int") || tag? == some (knownTag "float")
  match reading.value with
  | .text s =>
    if tag? == some (knownTag "null") then nullText source
    else if tag? == some (knownTag "bool") then booleanText version reading.value source
    else if isNumeric then
      match Number.ofText s.toList with
      | .finite _ _ => Json.quote s
      | x => usualText x
    else valueText version around reading source style false
  | _ => valueText version around reading source style (tag? == some (knownTag "int"))

/-! Nodes -/

/-- Whether the name of an anchor can be written. -/
def isAnchorName (name : String) : Bool :=
  name.toList.all fun c =>
    !(c.toNat ≤ 0x19 || Text.isBlank c || ",[]\x7b\x7d".toList.contains c)

/-- The name of an anchor, if it can be written. -/
def anchorText (mark name : String) : Except Mistake String :=
  if isAnchorName name then .ok (mark ++ name) else refuse "bad name of an anchor" 0

/-- The properties of a node. -/
def propertiesText (directives : Directives) (facts : Facts) : Except Mistake String := do
  let anchor? ← facts.anchor?.mapM fun anchor => anchorText "&" anchor.1
  return " ".intercalate (anchor?.toList ++ (facts.tag?.map directives.tagText).toList)

/-- How the texts of the nodes within a node are made; with the characters that are taken up on
the line afterwards.
-/
abbrev InnerText := Around → Node → Except Mistake (String × Option Nat)

/-- Whether a key is written with a key mark. -/
def isExplicitKey : Node → Bool
  | scalar _ _ style _ => style == .literal || style == .folded
  | _ => true

/-- Whether a value with line breaks starts with properties on a line of their own. -/
def hasPropertyLine (text : String) : Bool :=
  let line := text.toList.takeWhile (· != '\n')
  let words := (Text.splitOn ' ' line).length
  match line with
  | '&' :: rest =>
    let isTagged := ((rest.dropWhile (· != ' ')).drop 1).head? == some '!'
    decide (words ≤ if isTagged then 2 else 1)
  | '!' :: _ => decide (words ≤ 1)
  | _ => false

/-- The blanks and the comment between a key and its value. -/
def beforeValue (around : Around) (isExplicit hasComment : Bool) (value : Node) (text : String)
    : String :=
  let facts := value.facts
  if hasComment || facts.isSpaced || facts.commentBefore != "" then
    let comment :=
      if facts.commentBefore = "" then ""
      else "\n" ++ indented around.indent (commentText facts.commentBefore)
    (if facts.isSpaced then "\n" else "") ++ comment ++ "\n" ++ spaces around.indent
  else if !isExplicit && value.isCollection then
    if text.toList.contains '\n' && !hasPropertyLine text then "\n" ++ spaces around.indent
    else " "
  else if text = "" || text.toList.head? == some '\n' then ""
  else " "

/-- Whether a node is a scalar. -/
def isScalar : Node → Bool
  | scalar _ _ _ _ => true
  | _ => false

/-- The text of an entry. -/
def entryText (inner : InnerText) (around : Around) (key : Node) (value? : Option Node)
    : Except Mistake String := do
  let isExplicit := isExplicitKey key
  let within : Around :=
    { around with
      indent := around.indent + 2, isVoid := false, isKey := !isExplicit && !around.isVoid }
  let (text, used?) ← inner within key
  match around.isVoid, value? with
  | false, some value =>
    let comment := key.facts.comment
    let mark (text : String) : String :=
      if comment = "" then text else text ++ lineComment text within.indent comment
    let text :=
      if isExplicit then "? " ++ mark text ++ "\n" ++ spaces around.indent ++ ":"
      else mark (text ++ ":")
    let used? :=
      if !isExplicit && comment = "" && value.isScalar then some (length text + 1) else used?
    let (found, _) ← inner { within with isKey := false, used? } value
    return text ++ beforeValue within isExplicit (comment != "") value found ++ found
  | _, _ =>
    return if text = "" then "?" else if isExplicit then "? " ++ text else text

/-- What is written between brackets, with the last line first. -/
structure Lines where
  lines : List String
  used? : Option Nat
  isSplit : Bool

/-- Adds the lines before an item. -/
def Lines.addBefore (around : Around) (facts : Facts) (found : Lines) : Lines :=
  let lines := if facts.isSpaced then "" :: found.lines else found.lines
  let comment := indented around.indent (commentText facts.commentBefore)
  if facts.commentBefore = "" then { found with lines }
  else { found with lines := String.ofList (Text.trimStart comment.toList) :: lines }

/-- Adds the text of an item, with a comma after all but the last one. -/
def Lines.addItem (indent count : Nat) (isLast : Bool) (comment text : String) (used? : Option Nat)
    (found : Lines) : Lines :=
  let isSplit :=
    found.isSplit || comment != "" || decide (count < found.lines.length)
      || text.toList.contains '\n'
  let text := if isLast then text else text ++ ","
  let text := if comment = "" then text else text ++ lineComment text indent comment
  ⟨text :: found.lines, used?, isSplit⟩

/-- The text between brackets. -/
def Lines.text (indent : Nat) (opening closing : String) (found : Lines) : String :=
  let lines := found.lines.reverse
  let width := lines.foldl (fun total line => total + length line + 2) 2
  if lines.isEmpty then opening ++ closing
  else if found.isSplit || Folding.lineWidth < width then
    let shift (line : String) : String :=
      if line = "" then "\n" else "\n" ++ spaces (indent + 2) ++ line
    opening ++ String.join (lines.map shift) ++ "\n" ++ spaces indent ++ closing
  else opening ++ " " ++ " ".intercalate lines ++ " " ++ closing

/-- The text of a list. -/
def listText (inner : InnerText) (around : Around) (items : List Node)
    : Except Mistake String := do
  let within : Around := { around with indent := around.indent + 4 }
  let add (found : Lines) (numbered : Node × Nat) : Except Mistake Lines := do
    let (item, index) := numbered
    let count := found.lines.length
    let found := found.addBefore around item.facts
    let (text, used?) ← inner { within with used? := found.used? } item
    return found.addItem within.indent count (index + 1 = items.length) item.facts.comment text
      used?
  let found ← items.zipIdx.foldlM add ⟨[], around.used?, false⟩
  return found.text around.indent "[" "]"

/-- The comment after an entry. -/
def entryComment (key : Node) : Option Node → String
  | some value => value.facts.comment
  | none => key.facts.comment

/-- The text of entries between brackets, which are those of a map or of a list of pairs. -/
def entriesText (inner : InnerText) (around : Around) (isMap : Bool)
    (entries : List (Node × Option Node)) : Except Mistake String := do
  let within : Around :=
    { around with indent := if isMap then around.indent + 2 else around.indent + 4 }
  let add (found : Lines) (numbered : (Node × Option Node) × Nat) : Except Mistake Lines := do
    let ((key, value?), index) := numbered
    let count := found.lines.length
    let found := found.addBefore around key.facts
    let text ← entryText inner { within with used? := found.used? } key value?
    let isSplit :=
      found.isSplit || key.facts.comment != "" || value?.any (·.facts.commentBefore != "")
    return { found with isSplit }.addItem within.indent count (index + 1 = entries.length)
      (entryComment key value?) text found.used?
  let found ← entries.zipIdx.foldlM add ⟨[], around.used?, false⟩
  return if isMap then found.text around.indent "\x7b" "\x7d"
    else found.text around.indent "[" "]"

/-- The text of a list or a map without its properties. -/
def contentText (inner : InnerText) (around : Around) : Node → Except Mistake String
  | list items _ => listText inner around items
  | pairs entries _ _ => entriesText inner around false entries
  | map entries isSet _ =>
    let isVoid := around.isVoid || isSet || entries.all fun entry => entry.2.isNone
    entriesText inner { around with isVoid } true entries
  | _ => .ok ""

/-- The text of a node within another one. -/
def innerText (directives : Directives) : Nat → InnerText
  | 0, _, _ => refuse "nested too deeply" 0
  | fuel + 1, around, node => do
    match node with
    | reference name _ _ =>
      let text ← anchorText "*" name
      return (if around.isKey then text ++ " " else text, around.used?)
    | node =>
      let properties ← propertiesText directives node.facts
      let used? :=
        if properties = "" then around.used?
        else some (around.used?.getD 0 + length properties + 1)
      let around := { around with used? }
      let text ←
        match node with
        | scalar reading source style facts =>
          pure (scalarText directives.version around reading source style facts.tag?)
        | node => contentText (innerText directives fuel) around node
      return (if properties = "" then text else properties ++ " " ++ text, used?)

/-- The text of a list, a map or an alias that is a key. -/
def keyText (directives : Directives) (fuel : Nat) (node : Node) : Except Mistake String :=
  match node with
  | reference name _ _ => anchorText "*" name
  | node => contentText (innerText directives fuel) ⟨0, false, false, none⟩ node

end Stencil.Data.Yaml.Node
