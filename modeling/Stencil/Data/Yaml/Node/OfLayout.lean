import Stencil.Data.Yaml.BlockText
import Stencil.Data.Yaml.Node
import Stencil.Data.Yaml.ScalarText

/-!
The nodes that a layout stands for. Here it is checked that the layout is allowed: where marks,
blanks and line breaks may stand, that keys are short, on one line and different, and that
brackets are closed.
-/

namespace Stencil.Data.Yaml

/-- The anchors of the nodes so far, the last one first, and the nodes that have them. -/
structure Anchors where
  numbers : List (String × Nat)
  nodes : Array Node
  deriving Inhabited, Repr

/-- Actions that make nodes. -/
abbrev Compose := StateT Anchors (Except Mistake)

namespace Node

/-- Where a node stands: at the top of a document, as a key, or elsewhere. -/
inductive Place where
  | top
  | key
  | inner
  deriving DecidableEq, Repr, Inhabited

/-- How the nodes within a node are made. -/
abbrev Inner := Place → Properties → Layout → Compose Node

/-- Stops for a mistake. -/
def mistake {α : Type} (reason : String) (offset : Nat) : Compose α :=
  StateT.lift (refuse reason offset)

/-- Stops for a mistake if something holds. -/
def refuseIf (isWrong : Bool) (reason : String) (offset : Nat) : Compose Unit :=
  if isWrong then mistake reason offset else pure ()

/-- Gives a number to the anchor of the node that is made next. -/
def openAnchor (properties : Properties) : Compose (Option (String × Nat)) :=
  match properties.anchor? with
  | none => pure none
  | some lexeme => do
    let name := String.ofList (lexeme.text.drop 1)
    refuseIf (name = "") "empty anchor" lexeme.offset
    let anchors ← get
    let number := anchors.nodes.size
    set (Anchors.mk ((name, number) :: anchors.numbers) (anchors.nodes.push default))
    return some (name, number)

/-- Notes the node that has an anchor. -/
def closeAnchor (node : Node) : Compose Node := do
  match node.facts.anchor? with
  | some (_, number) =>
    modify fun anchors => { anchors with nodes := anchors.nodes.setIfInBounds number node }
  | none => pure ()
  return node

/-- The full name of the tag among properties. -/
def tagOf (directives : Directives) (properties : Properties) : Compose (Option String) :=
  match properties.tag? with
  | none => pure none
  | some lexeme => StateT.lift ((directives.tagName lexeme).map some)

/-- An alias, with the comment after it. -/
def aliasOf (lexeme : Lexeme) (comment : String) : Compose Node := do
  let name := String.ofList (lexeme.text.drop 1)
  refuseIf (name = "") "empty alias" lexeme.offset
  return reference name ((← get).numbers.lookup name) { comment }

/-- A scalar with the text that it spells. -/
def scalarOf (directives : Directives) (place : Place) (properties : Properties) (style : Style)
    (source comment : String) : Compose Node := do
  let anchor? ← openAnchor properties
  let tag? ← tagOf directives properties
  let text := source.toList
  let reading? :=
    match tag? with
    | some tag => Schema.readTagged directives.version tag text
    | none =>
      if style == .plain then some (Schema.readPlain directives.version (place == .key) text)
      else some { value := .text source }
  match reading? with
  | some reading => return scalar reading source style { anchor?, tag?, comment }
  | none => mistake "bad text for a tag" 0

/-- A node with what stands before it noted. -/
def noted (properties : Properties) (isEmpty : Bool) (node : Node) : Node :=
  node.withFacts fun facts =>
    let facts := { facts with isSpaced := properties.isSpaced }
    if properties.comment = "" then facts
    else if isEmpty then { facts with comment := properties.comment }
    else { facts with commentBefore := properties.comment }

/-- The node where nothing is spelled but properties. -/
def empty (directives : Directives) (place : Place) (properties : Properties) : Compose Node := do
  closeAnchor (noted properties true (← scalarOf directives place properties .plain "" ""))

/-- Whether a key goes over a line break. -/
def isBroken : Nat → Layout → Bool
  | _, .flat lexeme ending? =>
    lexeme.text.contains '\n' || hasKind .lineBreak (ending?.getD [])
  | fuel + 1, .brackets _ _ entries _ =>
    entries.any fun entry =>
      hasKind .lineBreak entry.start || hasKind .lineBreak (entry.sep?.getD [])
        || entry.key?.any (isBroken fuel) || entry.value?.any (isBroken fuel)
  | _, _ => true

/-- The most 16-bit units from the start of a key to its value mark. -/
def maxKeyUnits : Nat := 1024

/-- Whether a value mark is too far from the start of its key. -/
def isFar (properties : Properties) (key? : Option Layout) (mark : Lexeme) : Bool :=
  let start := (properties.start?.orElse fun _ => key?.map Layout.offset).getD mark.offset
  start + maxKeyUnits < mark.offset

/-- The node of a layout, if there is one, or else of what stands before it. -/
def inPlace (directives : Directives) (inner : Inner) (place : Place) (properties : Properties)
    : Option Layout → Compose Node
  | some node => inner place properties node
  | none => empty directives place properties

/-- The entries of a map in the making, with the last one first, and the comment of the map. -/
structure Entries where
  entries : List (Node × Option Node)
  comment : String
  /-- Whether gaps that can only end a map have been passed. -/
  isOver : Bool

/-- Checks a key without a key mark. -/
def checkKey (offset indent fuel : Nat) (properties : Properties) (entry : Entry Layout)
    : Compose Unit := do
  match entry.key? with
  | none => pure ()
  | some (.list _ _ _) => mistake "list as a key on one line" offset
  | some (.fault _) => pure ()
  | some key => refuseIf (key.indent != indent) "bad indentation of an entry" key.offset
  if properties.isTagged || entry.sep?.isSome then
    refuseIf (properties.break?.isSome || entry.key?.any (isBroken fuel)) "key over lines" offset

/-- Whether a node is a map without brackets. -/
def isBlockMap : Layout → Bool
  | .map _ _ _ => true
  | _ => false

/-- Adds an entry of a map without brackets. -/
def addEntry (directives : Directives) (inner : Inner) (offset indent fuel : Nat)
    (found : Entries) (entry : Entry Layout) : Compose Entries := do
  let keySlot : Slot :=
    { isBracketed := false, mark := .keyMark
      follower := .first entry.key? entry.sep?, indent }
  let before ← StateT.lift (keySlot.properties true entry.start)
  match before.mark? with
  | none => checkKey offset indent fuel before entry
  | some mark => refuseIf (mark.indent != indent) "bad indentation of an entry" mark.offset
  if before.mark?.isNone && !before.isTagged && entry.sep?.isNone then
    return { found with comment := joinComments found.comment before.comment, isOver := true }
  refuseIf found.isOver "entry after the end of a map" offset
  let key ← inPlace directives inner .key before entry.key?
  refuseIf (found.entries.any fun other => isSameKey other.1 key) "key twice" offset
  let valueSlot : Slot :=
    { isBracketed := false, mark := .valueMark, follower := .first entry.value? none, indent }
  let startsLine :=
    match entry.key? with
    | none => true
    | some (.block _ _ _ _ _) => true
    | some _ => false
  let after ← StateT.lift (valueSlot.properties startsLine (entry.sep?.getD []))
  match after.mark? with
  | some mark =>
    if before.mark?.isNone then
      let isCompact := entry.value?.any isBlockMap && !after.hasBreak
      refuseIf isCompact "map on the line of a key" mark.offset
      refuseIf (isFar before entry.key? mark) "long key" mark.offset
    let value ← inPlace directives inner .inner after entry.value?
    return { found with entries := (key, some value) :: found.entries }
  | none =>
    refuseIf before.mark?.isNone "value expected" offset
    return { found with entries := (key.withComment after.comment, none) :: found.entries }

/-- The map of a layout without brackets. -/
def blockMap (directives : Directives) (inner : Inner) (offset indent fuel : Nat)
    (entries : List (Entry Layout)) : Compose Node := do
  let found ←
    entries.reverse.foldlM (addEntry directives inner offset indent fuel) ⟨[], "", false⟩
  return map found.entries.reverse false { comment := found.comment }

/-- The items of a list in the making, with the last one first, and the comment of the list. -/
structure Items where
  items : List Node
  comment : String

/-- Adds an item of a list without brackets. -/
def addItem (directives : Directives) (inner : Inner) (offset indent : Nat) (found : Items)
    (entry : Entry Layout) : Compose Items := do
  let slot : Slot :=
    { isBracketed := false, mark := .itemMark, follower := .first entry.value? none, indent }
  let before ← StateT.lift (slot.properties true entry.start)
  if before.mark?.isNone then
    refuseIf (before.isTagged || entry.value?.isSome) "item without a mark" offset
    return if before.comment = "" then found else { found with comment := before.comment }
  else
    let item ← inPlace directives inner .inner before entry.value?
    return { found with items := item :: found.items }

/-- The list of a layout without brackets. -/
def blockList (directives : Directives) (inner : Inner) (offset indent : Nat)
    (entries : List (Entry Layout)) : Compose Node := do
  let found ← entries.reverse.foldlM (addItem directives inner offset indent) ⟨[], ""⟩
  return list found.items.reverse { comment := found.comment }

/-- What stands between brackets, with the last item or entry first, and the comment of the
collection.
-/
structure Bracketed where
  items : List Node
  entries : List (Node × Option Node)
  comment : String

/-- The comment on the line of a comma before an item. -/
def commaComment (lexemes : List Lexeme) : String :=
  let isPassed (lexeme : Lexeme) : Bool := lexeme.kind == .comma || lexeme.kind == .blank
  match lexemes.dropWhile isPassed with
  | [] => ""
  | lexeme :: _ =>
    if lexeme.kind == .comment then String.ofList (lexeme.text.drop 1) else ""

/-- What stands between brackets, with one more comment on the last item or entry. -/
def Bracketed.withLastComment (comment : String) (found : Bracketed) : Bracketed :=
  match found.items, found.entries with
  | item :: items, _ => { found with items := item.withComment comment :: items }
  | [], (key, some value) :: entries =>
    { found with entries := (key, some (value.withComment comment)) :: entries }
  | [], (key, none) :: entries =>
    { found with entries := (key.withComment comment, none) :: entries }
  | [], [] => found

/-- Checks the comma before an item, and gives a comment on its line to the item before. -/
def passComma (index : Nat) (entry : Entry Layout) (before : Properties) (found : Bracketed)
    : Compose (Properties × Bracketed) := do
  if index = 0 then
    refuseIf before.comma?.isSome "unexpected comma" 0
    return (before, found)
  else
    refuseIf before.comma?.isNone "comma expected" (entry.key?.map Layout.offset |>.getD 0)
    let comment := commaComment entry.start
    if before.comment = "" || comment = "" then return (before, found)
    else
      let rest := String.ofList (before.comment.toList.drop (comment.length + 1))
      return ({ before with comment := rest }, found.withLastComment comment)

/-- Checks the value of a pair between brackets. -/
def checkPair (isMap : Bool) (entry : Entry Layout) (before after : Properties)
    : Compose Unit := do
  let sep := entry.sep?.getD []
  match after.mark? with
  | some mark =>
    if !isMap && before.mark?.isNone then
      let isSplit := hasKind .lineBreak (sep.takeWhile (· != mark))
      refuseIf isSplit "key over lines" mark.offset
      refuseIf (isFar before entry.key? mark) "long key" mark.offset
  | none => refuseIf entry.value?.isSome "comma or value mark expected" 0

/-- Adds what stands between two commas. -/
def addBracketed (directives : Directives) (inner : Inner) (isMap : Bool)
    (indent fuel count : Nat) (found : Bracketed) (numbered : Entry Layout × Nat)
    : Compose Bracketed := do
  let (entry, index) := numbered
  let keySlot : Slot :=
    { isBracketed := true, mark := .keyMark, follower := .first entry.key? entry.sep?, indent }
  let before ← StateT.lift (keySlot.properties false entry.start)
  let isGap := before.mark?.isNone && !before.isTagged && entry.sep?.isNone && entry.value?.isNone
  if isGap then
    refuseIf (index = 0 && before.comma?.isSome) "unexpected comma" 0
    refuseIf (decide (index + 1 < count)) "item expected" 0
    return { found with comment := joinComments found.comment before.comment }
  if before.mark?.isNone && !isMap then
    refuseIf (entry.key?.any (isBroken fuel)) "key over lines" 0
  let (before, found) ← passComma index entry before found
  if !isMap && entry.sep?.isNone && before.mark?.isNone then
    refuseIf (entry.value?.any Layout.isBlock) "block collection between brackets" 0
    let item ← inPlace directives inner .inner before entry.value?
    return { found with items := item :: found.items }
  let key ← inPlace directives inner .key before entry.key?
  refuseIf (entry.key?.any Layout.isBlock) "block collection between brackets" 0
  let valueSlot : Slot :=
    { isBracketed := true, mark := .valueMark, follower := .first entry.value? none, indent }
  let after ← StateT.lift (valueSlot.properties false (entry.sep?.getD []))
  checkPair isMap entry before after
  refuseIf (entry.value?.any Layout.isBlock) "block collection between brackets" 0
  let pair ←
    if after.mark?.isSome then do
      let value ← inPlace directives inner .inner after entry.value?
      pure (key, some value)
    else pure (key.withComment after.comment, none)
  if isMap then
    refuseIf (found.entries.any fun other => isSameKey other.1 key) "key twice" 0
    return { found with entries := pair :: found.entries }
  else return { found with items := map [pair] false {} :: found.items }

/-- The collection of a layout in brackets. -/
def bracketed (directives : Directives) (inner : Inner) (opening : Lexeme) (indent fuel : Nat)
    (entries : List (Entry Layout)) (closing : List Lexeme) : Compose Node := do
  let isMap := opening.kind == .mapOpen
  let found ←
    entries.reverse.zipIdx.foldlM
      (addBracketed directives inner isMap indent fuel entries.length) ⟨[], [], ""⟩
  match closing with
  | [] => mistake "closing bracket expected" opening.offset
  | lexeme :: rest =>
    refuseIf (lexeme.kind != if isMap then Kind.mapClose else .listClose) "other bracket expected"
      lexeme.offset
    let ending ← StateT.lift (endingComment true rest)
    let comment := joinComments found.comment ending
    return if isMap then map found.entries.reverse false { comment }
      else list found.items.reverse { comment }

/-- The pair that an item of a list of pairs is: the entry of a map, or a key without a value. -/
def pairOf (item : Node) : Compose (Node × Option Node) :=
  match item with
  | map entries _ facts =>
    match entries with
    | _ :: _ :: _ => mistake "one pair in each item expected" 0
    | entries =>
      let nothing := scalar { value := .null } "" .plain {}
      let (key, value?) := entries.headD (nothing, none)
      let key := key.withFacts fun own =>
        { own with commentBefore := joinComments facts.commentBefore own.commentBefore }
      let add (node : Node) : Node := node.withFacts fun own =>
        { own with comment := joinComments facts.comment own.comment }
      match value? with
      | some value => pure (key, some (add value))
      | none => pure (add key, none)
  | item => pure (item, none)

/-- Whether two of some keys are the same scalar. -/
def hasSameKeys : List (Node × Option Node) → Bool
  | [] => false
  | entry :: entries =>
    entries.any (fun other => isSameKey entry.1 other.1) || hasSameKeys entries

/-- What the tag of a collection makes of it. -/
def collectionOf (tag? : Option String) (node : Node) : Compose Node :=
  match node, tag? with
  | map entries _ facts, some tag =>
    if tag = knownTag "set" then do
      refuseIf (!entries.all fun entry => isVoid entry.2) "items without values expected" 0
      return map entries true { facts with tag? }
    else return map entries false { facts with tag? := if tag = "!" then knownTag "map" else tag }
  | list items facts, some tag =>
    if tag = knownTag "omap" || tag = knownTag "pairs" then do
      let entries ← items.mapM pairOf
      let isOrdered := decide (tag = knownTag "omap")
      refuseIf (isOrdered && hasSameKeys entries) "key twice" 0
      return pairs entries isOrdered { facts with tag? }
    else return list items { facts with tag? := if tag = "!" then knownTag "seq" else tag }
  | node, _ => pure node

/-- Checks that a line break follows the properties of a list without brackets. -/
def checkListProperties (properties : Properties) : Compose Unit :=
  let offsets := (properties.anchor?.toList ++ properties.tag?.toList).map Lexeme.offset
  match offsets.max? with
  | none => pure ()
  | some last => refuseIf (!properties.break?.any (last ≤ ·)) "line break expected" last

/-- A collection with its properties. -/
def collection (directives : Directives) (properties : Properties) (isList : Bool)
    (content : Compose Node) : Compose Node := do
  let tag? ← tagOf directives properties
  if isList then checkListProperties properties
  let anchor? ← openAnchor properties
  let node ← collectionOf tag? (← content)
  let node := node.withFacts fun facts => { facts with anchor? }
  closeAnchor (noted properties false node)

/-- The style that a lexeme shows, and the text that it spells. -/
def flowText (lexeme : Lexeme) : Except Mistake (Style × String) :=
  match lexeme.kind with
  | .singleQuoted => (ScalarText.single lexeme).map (.single, ·)
  | .doubleQuoted => (ScalarText.double lexeme).map (.double, ·)
  | _ => (ScalarText.plain lexeme).map (.plain, ·)

/-- The node of a layout in a place, with its properties. -/
def compose (directives : Directives) : Nat → Inner
  | 0, _, _, node => mistake "nested too deeply" node.offset
  | fuel + 1, place, properties, node =>
    let inner : Inner := compose directives fuel
    match node with
    | .fault offset => mistake "unexpected mark" offset
    | .flat lexeme ending? => do
      let comment ← StateT.lift (endingComment true (ending?.getD []))
      if lexeme.kind == .reference then
        refuseIf properties.isTagged "alias with properties" lexeme.offset
        return noted properties false (← aliasOf lexeme comment)
      else
        let (style, text) ← StateT.lift (flowText lexeme)
        let node ← scalarOf directives place properties style text comment
        let isEmpty := lexeme.kind == .scalar && lexeme.text.isEmpty
        closeAnchor (noted properties isEmpty node)
    | .block head text offset indent isBroken => do
      refuseIf isBroken "unexpected mark" offset
      let (header, comment) ← StateT.lift (BlockText.headerOf head)
      let text ←
        StateT.lift (BlockText.read (place == .top) indent header text offset)
      let style := if header.isFolded then Style.folded else .literal
      closeAnchor
        (noted properties false (← scalarOf directives place properties style text comment))
    | .map offset indent entries =>
      collection directives properties false
        (blockMap directives inner offset indent fuel entries)
    | .list offset indent entries =>
      collection directives properties true (blockList directives inner offset indent entries)
    | .brackets opening indent entries closing =>
      collection directives properties false
        (bracketed directives inner opening indent fuel entries closing)

end Node

end Stencil.Data.Yaml
