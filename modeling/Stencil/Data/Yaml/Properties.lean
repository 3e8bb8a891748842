import Stencil.Data.Yaml.Layout

/-!
What stands before a node and after it on its line: properties, marks, comments and gaps, and
the rules on their order and on the blanks between them.
-/

namespace Stencil.Data.Yaml

/-- What the rules ask of the node or lexeme after properties. -/
structure Follower where
  isBrackets : Bool
  isBlock : Bool
  needsGap : Bool
  deriving DecidableEq, Repr, Inhabited

namespace Follower

/-- Nothing follows. -/
def none : Follower := ⟨false, false, false⟩

/-- A node follows. -/
def ofLayout (node : Layout) : Follower where
  isBrackets := node matches .brackets _ _ _ _
  isBlock := node.isBlock
  needsGap :=
    match node with
    | .flat lexeme _ => !(lexeme.kind == .scalar && lexeme.text.isEmpty)
    | _ => true

/-- A lexeme follows. -/
def ofLexeme (lexeme : Lexeme) : Follower where
  isBrackets := false
  isBlock := false
  needsGap :=
    !(lexeme.kind == .blank || lexeme.kind == .lineBreak || lexeme.kind == .comma)

/-- The first of a node and lexemes follows, if there is any. -/
def first (node? : Option Layout) (lexemes? : Option (List Lexeme)) : Follower :=
  match node?, lexemes? with
  | some node, _ => ofLayout node
  | Option.none, some (lexeme :: _) => ofLexeme lexeme
  | _, _ => none

end Follower

/-- What stands before a node. -/
structure Properties where
  comma? : Option Lexeme
  /-- The mark of the node. -/
  mark? : Option Lexeme
  isSpaced : Bool
  comment : String
  hasBreak : Bool
  anchor? : Option Lexeme
  tag? : Option Lexeme
  /-- The offset of the last line break after an anchor or a tag. -/
  break? : Option Nat
  /-- The offset of the first anchor or tag. -/
  start? : Option Nat
  deriving DecidableEq, Repr, Inhabited

namespace Properties

/-- Nothing stands before a node. -/
def none : Properties :=
  ⟨Option.none, Option.none, false, "", false, Option.none, Option.none, Option.none, Option.none⟩

/-- Whether a node has an anchor or a tag. -/
def isTagged (properties : Properties) : Bool :=
  properties.anchor?.isSome || properties.tag?.isSome

end Properties

/-- The place of properties: whether they stand between brackets, the kind of the mark that is
expected among them, what follows them, and the indentation of what they are in.
-/
structure Slot where
  isBracketed : Bool
  mark : Kind
  follower : Follower
  indent : Nat
  deriving Repr

namespace Slot

/-- Properties that have been read up to some lexeme. `isAtBreak` says that only gaps stand on
the line, `separator` holds the line breaks since the last comment, and `tab?` is a blank with
a tab that may turn out to indent a line.
-/
structure Reading where
  found : Properties
  isAtBreak : Bool
  hasGap : Bool
  separator : String
  needsGap : Bool
  tab? : Option Lexeme

/-- The text of a comment. -/
def commentText (lexeme : Lexeme) : String :=
  let text := String.ofList (lexeme.text.drop 1)
  if text = "" then " " else text

/-- Whether a blank may hold a tab. -/
def allowsTabs (slot : Slot) : Bool :=
  slot.isBracketed || (slot.mark == .documentStart && slot.follower.isBrackets)

/-- Checks the blanks before a lexeme. -/
def checkGap (reading : Reading) (lexeme : Lexeme) : Except Mistake Reading := do
  let isSeparator :=
    lexeme.kind == .blank || lexeme.kind == .lineBreak || lexeme.kind == .comma
  if reading.needsGap && !isSeparator then refuse "blank expected" lexeme.offset
  match reading.tab? with
  | some tab =>
    if reading.isAtBreak && lexeme.kind != .comment && lexeme.kind != .lineBreak then
      refuse "tab as indentation" tab.offset
  | none => pure ()
  return { reading with needsGap := false, tab? := none }

/-- Reads a comment. -/
def readComment (reading : Reading) (lexeme : Lexeme) : Except Mistake Reading := do
  if !reading.hasGap then refuse "blank before a comment expected" lexeme.offset
  let text := commentText lexeme
  let before := reading.found.comment
  let comment := if before = "" then text else before ++ reading.separator ++ text
  return { reading with found.comment := comment, separator := "", isAtBreak := false }

/-- Reads a line break. -/
def readBreak (slot : Slot) (reading : Reading) (lexeme : Lexeme) : Reading :=
  let text := String.ofList lexeme.text
  let reading :=
    if !reading.isAtBreak then { reading with separator := reading.separator ++ text }
    else if reading.found.comment != "" then
      { reading with found.comment := reading.found.comment ++ text }
    else if reading.found.mark?.isNone || slot.mark != .itemMark then
      { reading with found.isSpaced := true }
    else reading
  let break? := if reading.found.isTagged then some lexeme.offset else reading.found.break?
  { reading with
    found.break? := break?, found.hasBreak := true, isAtBreak := true, hasGap := true }

/-- Reads one lexeme. -/
def read (slot : Slot) (reading : Reading) (lexeme : Lexeme) : Except Mistake Reading := do
  let reading ← checkGap reading lexeme
  let found := reading.found
  let start? := found.start?.orElse fun _ => some lexeme.offset
  match lexeme.kind with
  | .blank =>
    let hasTab := lexeme.text.contains '\t' && !slot.allowsTabs
    return { reading with tab? := if hasTab then some lexeme else none, hasGap := true }
  | .comment => readComment reading lexeme
  | .lineBreak => return slot.readBreak reading lexeme
  | .anchor =>
    if found.anchor?.isSome then refuse "second anchor" lexeme.offset
    return { reading with
      found.anchor? := some lexeme, found.start? := start?, isAtBreak := false
      hasGap := false, needsGap := true }
  | .tag =>
    if found.tag?.isSome then refuse "second tag" lexeme.offset
    return { reading with
      found.tag? := some lexeme, found.start? := start?, isAtBreak := false
      hasGap := false, needsGap := true }
  | kind =>
    if kind == slot.mark then
      if found.isTagged then refuse "property before a mark" lexeme.offset
      if found.mark?.isSome then refuse "second mark" lexeme.offset
      let isAtBreak := kind == .itemMark || kind == .keyMark
      return { reading with found.mark? := some lexeme, isAtBreak, hasGap := false }
    else if kind == .comma && slot.isBracketed then
      if found.comma?.isSome then refuse "second comma" lexeme.offset
      return { reading with found.comma? := some lexeme, isAtBreak := false, hasGap := false }
    else refuse "unexpected mark" lexeme.offset

/-- The properties that lexemes spell. `isAtBreak` says that they start a line. -/
def properties (slot : Slot) (isAtBreak : Bool) (lexemes : List Lexeme)
    : Except Mistake Properties := do
  let initial : Reading := ⟨Properties.none, isAtBreak, isAtBreak, "", false, none⟩
  let reading ← lexemes.foldlM slot.read initial
  if reading.needsGap && slot.follower.needsGap then refuse "blank expected" 0
  match reading.tab? with
  | some tab =>
    if (reading.isAtBreak && tab.indent ≤ slot.indent) || slot.follower.isBlock then
      refuse "tab as indentation" tab.offset
  | none => pure ()
  return reading.found

end Slot

/-- The comment on the rest of a line. Unless they follow a document, comments need a blank
before them.
-/
def endingComment (needsGap : Bool) (lexemes : List Lexeme) : Except Mistake String := do
  let add (state : String × String × Bool) (lexeme : Lexeme)
      : Except Mistake (String × String × Bool) :=
    let (comment, separator, hasGap) := state
    match lexeme.kind with
    | .blank => .ok (comment, separator, true)
    | .comment =>
      if needsGap && !hasGap then refuse "blank before a comment expected" lexeme.offset
      else
        let text := Slot.commentText lexeme
        .ok (if comment = "" then text else comment ++ separator ++ text, "", hasGap)
    | .lineBreak =>
      let text := String.ofList lexeme.text
      .ok (comment, if comment = "" then separator else separator ++ text, true)
    | _ => refuse "end of line expected" lexeme.offset
  return (← lexemes.foldlM add ("", "", false)).1

end Stencil.Data.Yaml
