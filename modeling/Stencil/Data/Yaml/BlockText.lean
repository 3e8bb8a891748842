import Stencil.Data.Yaml.Properties

/-!
The texts of block scalars: lines that are indented more than the node around them, with their
line breaks kept or folded, and with the line breaks at the end clipped, stripped or kept.
-/

namespace Stencil.Data.Yaml.BlockText

/-- What becomes of the line breaks at the end. -/
inductive Chomping where
  | clip
  | strip
  | keep
  deriving DecidableEq, Repr, Inhabited

/-- What the header of a block scalar asks for. -/
structure Header where
  isFolded : Bool
  indent? : Option Nat
  chomping? : Option Chomping
  deriving DecidableEq, Repr, Inhabited

/-- Reads a character of a header. -/
def Header.add? (header : Header) (c : Char) : Option Header :=
  if (c == '-' || c == '+') && header.chomping?.isNone then
    some { header with chomping? := some (if c == '-' then .strip else .keep) }
  else if '1' ≤ c && c ≤ '9' && header.indent?.isNone then
    some { header with indent? := some (c.toNat - '0'.toNat) }
  else none

/-- Checks the lexemes on the line of a header, after it. -/
def checkHead (lexemes : List Lexeme) : Except Mistake Unit := do
  let step (hasGap : Bool) (lexeme : Lexeme) : Except Mistake Bool :=
    match lexeme.kind with
    | .blank => .ok true
    | .lineBreak => .ok hasGap
    | .comment =>
      if hasGap then .ok true else refuse "blank before a comment expected" lexeme.offset
    | _ => refuse "end of line expected" lexeme.offset
  let _ ← lexemes.foldlM step false

/-- The header that the lexemes of its line spell, and its comment. -/
def headerOf (head : List Lexeme) : Except Mistake (Header × String) := do
  match head with
  | [] => refuse "block header expected" 0
  | lexeme :: rest =>
    checkHead rest
    let comment :=
      ((rest.filter (·.kind == .comment)).getLast?.map fun lexeme => lexeme.text.drop 1).getD []
    let initial : Header := ⟨lexeme.text.head? == some '>', none, none⟩
    match (lexeme.text.drop 1).foldlM Header.add? initial with
    | some header => return (header, String.ofList comment)
    | none => refuse "bad block header" lexeme.offset

/-- A line: the number of spaces it starts with, and the rest. -/
structure Line where
  indent : Nat
  content : List Char
  deriving DecidableEq, Repr, Inhabited

/-- Whether nothing but a line break stands after the spaces of a line. -/
def Line.isBlank (line : Line) : Bool :=
  line.content.isEmpty || line.content == ['\r']

/-- The spaces of a line beyond an indentation. -/
def Line.spaces (line : Line) (indent : Nat) : List Char :=
  List.replicate (line.indent - indent) ' '

/-- The lines of the text of a block scalar. -/
def linesOf (text : List Char) : List Line :=
  let split := text.foldr (fun c (lines : List (List Char)) =>
    match c, lines with
    | '\n', lines => [] :: lines
    | c, line :: lines => (c :: line) :: lines
    | c, [] => [[c]]) [[]]
  if text.isEmpty then []
  else
    split.map fun line =>
      let content := line.dropWhile (· == ' ')
      ⟨line.length - content.length, content⟩

/-- The indentation of a text whose header asks for none: that of the first line that is not
blank. No blank line before it may be indented more, and an indentation of nothing is allowed
at the top only.
-/
def indentOf (isTop : Bool) (least : Nat) : List Line → Option Nat
  | [] => some least
  | line :: lines =>
    if line.isBlank then indentOf isTop (max least line.indent) lines
    else if line.indent < least || (line.indent = 0 && !isTop) then none
    else some line.indent

/-- The lines without the blank ones at the end, and those. -/
def splitEnd (lines : List Line) : List Line × List Line :=
  let ending := (lines.reverse.takeWhile Line.isBlank).reverse
  (lines.take (lines.length - ending.length), ending)

/-- Splits blank lines at the end after the last one that is indented more than the text. -/
def splitSpaced (indent : Nat) (ending : List Line) : List Line × List Line :=
  let after := (ending.reverse.takeWhile fun line => line.indent ≤ indent).reverse
  (ending.take (ending.length - after.length), after)

/-- A text in the making: `separator` is what the line breaks since the last line come to, and
the chunks of the text are kept with the last one first.
-/
structure Joined where
  chunks : List (List Char)
  separator : List Char
  isMoreIndented : Bool

/-- Adds a line to a text whose line breaks are kept. -/
def Joined.addLiteral (indent : Nat) (joined : Joined) (line : Line) : Joined :=
  ⟨(joined.separator ++ line.spaces indent ++ line.content) :: joined.chunks, ['\n'], false⟩

/-- Adds a line to a text whose line breaks are folded, unless a line is indented more. -/
def Joined.addFolded (indent : Nat) (joined : Joined) (line : Line) : Joined :=
  if indent < line.indent || line.content.head? == some '\t' then
    let separator :=
      if joined.separator == [' '] then ['\n']
      else if !joined.isMoreIndented && joined.separator == ['\n'] then ['\n', '\n']
      else joined.separator
    ⟨(separator ++ line.spaces indent ++ line.content) :: joined.chunks, ['\n'], true⟩
  else if line.content.isEmpty then
    if joined.separator == ['\n'] then { joined with chunks := ['\n'] :: joined.chunks }
    else { joined with separator := ['\n'] }
  else ⟨(joined.separator ++ line.content) :: joined.chunks, [' '], false⟩

/-- A line without the carriage return of its line break. -/
def Line.withoutReturn (line : Line) : Line :=
  if line.content.getLast? == some '\r' then { line with content := line.content.dropLast }
  else line

/-- The text of lines that are not all blank, at an indentation. -/
def textOf (header : Header) (indent : Nat) (lines ending : List Line) : List Char :=
  let leading := lines.takeWhile Line.isBlank
  let (spaced, ending) := splitSpaced indent ending
  let start := leading.flatMap fun line => line.spaces indent ++ ['\n']
  let initial : Joined := ⟨[start], [], false⟩
  let add := if header.isFolded then Joined.addFolded indent else Joined.addLiteral indent
  let content := lines.drop leading.length ++ spaced
  let joined := (content.map Line.withoutReturn).foldl add initial
  let text := joined.chunks.reverse.flatten
  match header.chomping?.getD .clip with
  | .strip => text
  | .clip => text ++ ['\n']
  | .keep =>
    let text := text ++ ending.flatMap fun line => '\n' :: line.spaces indent
    if text.getLast? == some '\n' then text else text ++ ['\n']

/-- The text of a block scalar in a node with an indentation. -/
def read (isTop : Bool) (outer : Nat) (header : Header) (text : List Char) (offset : Nat)
    : Except Mistake String :=
  let lines := linesOf text
  let (content, ending) := splitEnd lines
  if content.isEmpty then
    let count := if lines.isEmpty then 0 else max 1 (lines.length - 1)
    let isKept := header.chomping? == some .keep
    .ok (String.ofList (List.replicate (if isKept then count else 0) '\n'))
  else
    let indent? :=
      match header.indent? with
      | none => indentOf isTop outer content
      | some more =>
        let first? := content.find? fun line => !line.isBlank
        if first?.any fun line => line.indent < outer + more then none else some (outer + more)
    match indent? with
    | none => refuse "bad indentation of a block scalar" offset
    | some indent =>
      let isShort (line : Line) : Bool :=
        !line.withoutReturn.content.isEmpty && decide (line.indent < indent)
      if content.any isShort then refuse "bad indentation of a block scalar" offset
      else .ok (String.ofList (textOf header indent content ending))

end Stencil.Data.Yaml.BlockText
