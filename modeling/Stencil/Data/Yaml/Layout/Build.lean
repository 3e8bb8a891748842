import Stencil.Data.Yaml.Layout
import Stencil.Text

/-!
Building the layout of a YAML text from its lexemes, one lexeme after the other. The nodes that
have begun are kept with the innermost one first; a lexeme that does not go on with it ends it
and is tried on the node around it.
-/

namespace Stencil.Data.Yaml

/-- A document: the lexemes before its node, its node, and the lexemes after it. -/
structure Document where
  start : List Lexeme
  value? : Option Layout
  ending? : Option (List Lexeme)
  deriving Repr, Inhabited

/-- What stands next to another at the top of a text. -/
inductive Part where
  | directive (text : List Char)
  | document (document : Document)
  /-- The mark of the end of a document, with the lexemes after it. -/
  | ending (rest : List Lexeme)
  /-- A lexeme that belongs to no document. -/
  | fault (offset : Nat)
  deriving Repr, Inhabited

/-- What is around the nodes that have begun. -/
inductive Base where
  | stream
  | document (document : Document)
  | ending (rest : List Lexeme)
  deriving Repr, Inhabited

/-- A layout in the making. `isKeyLine` says that a key stands on the current line, and
`isNewLine` that nothing but indentation stands on it; `parts` has the last part first.
-/
structure Build where
  offset : Nat
  indent : Nat
  isNewLine : Bool
  isKeyLine : Bool
  nodes : List Layout
  base : Base
  parts : List Part
  deriving Inhabited

namespace Build

/-- The layout of no lexemes. -/
def initial : Build := ⟨0, 0, true, false, [], .stream, []⟩

/-- Adds a part. -/
def emit (part : Part) (build : Build) : Build :=
  { build with parts := part :: build.parts }

/-- Begins a node. -/
def begin (node : Layout) (build : Build) : Build :=
  { build with nodes := node :: build.nodes }

/-- Replaces the innermost node. -/
def replace (node : Layout) (build : Build) : Build :=
  { build with nodes := node :: build.nodes.tail }

/-- Says whether a key stands on the current line. -/
def onKeyLine (isKeyLine : Bool) (build : Build) : Build :=
  { build with isKeyLine }

/-- A node as it is once it is part of the innermost node that has begun. -/
def adapted (node : Layout) (build : Build) : Layout :=
  let around := (build.nodes.head?.map Layout.indent).getD 0
  match node with
  | .block _ _ _ _ _ => node.withIndent around
  | .brackets _ _ _ _ =>
    if build.nodes.isEmpty && build.base matches .document _ then (node.withIndent 0).closed
    else node.closed
  | node => node

/-- An entry for gaps that follow a node, before other entries. -/
def gapEntry (gaps? : Option (List Lexeme)) (entries : List (Entry Layout))
    : List (Entry Layout) :=
  (gaps?.map Entry.opened).toList ++ entries

/-- Makes a node part of the innermost node that has begun, which is no flow scalar. -/
def place (node : Layout) (build : Build) : Build :=
  let node := build.adapted node
  let (rest, gaps?) :=
    match node.splitGaps? with
    | some (rest, gaps) => (rest, some gaps)
    | none => (node, none)
  match build.nodes with
  | [] =>
    match build.base with
    | .document document =>
      let ending? := gaps?.orElse fun _ => document.ending?
      { build with base := .document { document with value? := some rest, ending? } }
    | _ => build.emit (.fault node.offset)
  | .block head text offset indent _ :: _ =>
    build.replace (.block head text offset indent true)
  | .map offset indent (entry :: others) :: _ =>
    if entry.value?.isSome then
      (build.replace (.map offset indent (.keyed [] (some node) [] :: entry :: others))).onKeyLine
        true
    else if entry.sep?.isSome then
      let entries := { entry with value? := some rest } :: others
      build.replace (.map offset indent (gapEntry gaps? entries))
    else
      let entry := { entry with key? := some node, sep? := some [] }
      (build.replace (.map offset indent (entry :: others))).onKeyLine (!entry.isExplicit)
  | .list offset indent (entry :: others) :: _ =>
    let entries :=
      if entry.value?.isSome then .item rest :: entry :: others
      else { entry with value? := some rest } :: others
    build.replace (.list offset indent (gapEntry gaps? entries))
  | .brackets opening indent entries closing :: _ =>
    let entries :=
      match entries with
      | [] => [.keyed [] (some node) []]
      | entry :: others =>
        if entry.value?.isSome then .keyed [] (some node) [] :: entry :: others
        else if entry.sep?.isSome then { entry with value? := some node } :: others
        else { entry with key? := some node, sep? := some [] } :: others
    build.replace (.brackets opening indent entries closing)
  | _ => build.emit (.fault node.offset)

/-- Makes a node part of the innermost node that has begun. A flow scalar has no parts and is
ended first.
-/
def give (node : Layout) (build : Build) : Build :=
  match build.nodes with
  | .flat lexeme ending? :: around =>
    ({ build with nodes := around }.place (.flat lexeme ending?)).place node
  | [] =>
    match build.base with
    | .ending rest => ({ build with base := .stream }.emit (.ending rest)).place node
    | _ => build.place node
  | _ => build.place node

/-- Ends the innermost node, or the document if no node has begun. -/
def close (build : Build) : Build :=
  match build.nodes with
  | node :: around => { build with nodes := around }.give node
  | [] =>
    match build.base with
    | .document document => { build with base := .stream }.emit (.document document)
    | .ending rest => { build with base := .stream }.emit (.ending rest)
    | .stream => build.emit (.fault build.offset)

/-- Ends all that has begun. -/
def closeAll (build : Build) : Build :=
  go (build.nodes.length + 1) build
where
  /-- Ends up to a number of nodes. -/
  go : Nat → Build → Build
    | 0, build => build
    | left + 1, build =>
      match build.nodes, build.base with
      | [], .stream => build
      | _, _ => go left build.close

/-- The lexemes that may hold the properties of the node that begins next. -/
def propertySlot (build : Build) : List Lexeme :=
  match build.nodes with
  | [] =>
    match build.base with
    | .document document => document.start
    | _ => []
  | .map _ _ (entry :: _) :: _ => entry.sep?.getD entry.start
  | .list _ _ (entry :: _) :: _ => entry.start
  | _ => []

/-- Replaces the lexemes that may hold the properties of the node that begins next. -/
def withPropertySlot (lexemes : List Lexeme) (build : Build) : Build :=
  match build.nodes with
  | [] =>
    match build.base with
    | .document document => { build with base := .document { document with start := lexemes } }
    | _ => build
  | .map offset indent (entry :: others) :: _ =>
    let entry :=
      if entry.sep?.isSome then { entry with sep? := some lexemes }
      else { entry with start := lexemes }
    build.replace (.map offset indent (entry :: others))
  | .list offset indent (entry :: others) :: _ =>
    build.replace (.list offset indent ({ entry with start := lexemes } :: others))
  | _ => build

/-- Splits lexemes before the properties of the first key of a map that begins after them. -/
def splitProperties (lexemes : List Lexeme) : List Lexeme × List Lexeme :=
  let isEdge (lexeme : Lexeme) : Bool :=
    [Kind.documentStart, .keyMark, .valueMark, .itemMark, .lineBreak].contains lexeme.kind
  let after := (lexemes.reverse.takeWhile fun lexeme => !isEdge lexeme).reverse
  let properties := after.dropWhile (·.kind == .blank)
  (lexemes.take (lexemes.length - properties.length), properties)

/-- Takes the properties of the first key of a map that begins next from where they stand. -/
def takeKeyProperties (build : Build) : List Lexeme × Build :=
  let (kept, properties) := splitProperties build.propertySlot
  (properties, if properties.isEmpty then build else build.withPropertySlot kept)

/-- Begins the node that a lexeme starts, if it starts one. -/
def beginWith? (lexeme : Lexeme) (build : Build) : Option Build :=
  match lexeme.kind with
  | .reference => some (build.begin (.flat lexeme none))
  | .scalar => some (build.begin (.flat lexeme none))
  | .singleQuoted => some (build.begin (.flat lexeme none))
  | .doubleQuoted => some (build.begin (.flat lexeme none))
  | .blockHeader => some (build.begin (.block [lexeme] [] lexeme.offset build.indent false))
  | .mapOpen => some (build.begin (.brackets lexeme build.indent [] []))
  | .listOpen => some (build.begin (.brackets lexeme build.indent [] []))
  | .itemMark =>
    some (build.begin (.list lexeme.offset build.indent [.opened [lexeme]]))
  | .keyMark =>
    let (start, build) := build.takeKeyProperties
    let entry := { Entry.opened (start ++ [lexeme]) with isExplicit := true }
    some ((build.begin (.map lexeme.offset build.indent [entry])).onKeyLine true)
  | .valueMark =>
    let (start, build) := build.takeKeyProperties
    let entry := Entry.keyed start none [lexeme]
    some ((build.begin (.map lexeme.offset build.indent [entry])).onKeyLine true)
  | _ => none

/-- What a step does with a lexeme: it is taken, or it is left for another step. -/
inductive Outcome where
  | taken (build : Build)
  | left (build : Build)

/-- Begins the node that a lexeme starts, or leaves the lexeme and ends the innermost node. -/
def beginOrClose (lexeme : Lexeme) (build : Build) : Outcome :=
  match build.beginWith? lexeme with
  | some build => .taken build
  | none => .left build.close

/-- A lexeme outside documents. -/
def stepStream (lexeme : Lexeme) (build : Build) : Build :=
  match lexeme.kind with
  | .directive => build.emit (.directive lexeme.text)
  | .byteOrderMark => build
  | .blank => build
  | .comment => build
  | .lineBreak => build
  | .content => { build with base := .document ⟨[], none, none⟩ }
  | .documentStart => { build with base := .document ⟨[lexeme], none, none⟩ }
  | _ => build.emit (.fault lexeme.offset)

/-- A lexeme after a node on its line: it is added to the node's ending, or it ends the node. -/
def stepEnding (lexeme : Lexeme) (add : Build → Build) (build : Build) : Outcome :=
  match lexeme.kind with
  | .comma => .left build.close
  | .documentStart => .left build.close
  | .documentEnd => .left build.close
  | .listClose => .left build.close
  | .mapClose => .left build.close
  | .valueMark => .left build.close
  | .lineBreak => .taken (add (build.onKeyLine false)).close
  | _ => .taken (add build)

/-- A lexeme in a document in which no node has begun. -/
def stepDocument (lexeme : Lexeme) (document : Document) (build : Build) : Outcome :=
  let started : Build :=
    { build with base := .document { document with start := document.start ++ [lexeme] } }
  if document.value?.isSome then
    let ending := document.ending?.getD [] ++ [lexeme]
    build.stepEnding lexeme fun build =>
      { build with base := .document { document with ending? := some ending } }
  else
    match lexeme.kind with
    | .documentStart =>
      if document.start.all Lexeme.isGap then .taken started else .left build.close
    | .anchor => .taken started
    | .tag => .taken started
    | .blank => .taken started
    | .comment => .taken started
    | .lineBreak => .taken started
    | _ => .taken ((build.beginWith? lexeme).getD (build.emit (.fault lexeme.offset)))

/-- A lexeme after an alias or a flow scalar: a value mark makes it the key of a map. -/
def stepFlat (lexeme : Lexeme) (node : Lexeme) (ending? : Option (List Lexeme)) (build : Build)
    : Outcome :=
  if lexeme.kind == .valueMark then
    let (start, around) := { build with nodes := build.nodes.tail }.takeKeyProperties
    let entry :=
      Entry.keyed start (some (Layout.flat node none)) (ending?.getD [] ++ [lexeme])
    .taken ((around.begin (.map node.offset node.indent [entry])).onKeyLine true)
  else
    let ending := ending?.getD [] ++ [lexeme]
    build.stepEnding lexeme (·.replace (.flat node (some ending)))

/-- A lexeme after the header of a block scalar. -/
def stepBlock (lexeme : Lexeme) (head : List Lexeme) (offset indent : Nat) (isBroken : Bool)
    (build : Build) : Outcome :=
  match lexeme.kind with
  | .blank => .taken (build.replace (.block (head ++ [lexeme]) [] offset indent isBroken))
  | .comment => .taken (build.replace (.block (head ++ [lexeme]) [] offset indent isBroken))
  | .lineBreak => .taken (build.replace (.block (head ++ [lexeme]) [] offset indent isBroken))
  | .scalar =>
    let build := build.replace (.block head lexeme.text offset indent isBroken)
    .taken { build with isNewLine := true, indent := 0 }.close
  | _ => .left build.close

/-- Splits the gaps off that stand after a key without a value and belong to the entry below:
those from the second line break on, unless something follows them that is indented.
-/
def splitSeparator (indent : Nat) (sep : List Lexeme) : List Lexeme × List Lexeme :=
  let breaks :=
    sep.zipIdx.foldl (fun (breaks : List Nat) (lexeme, index) =>
      match lexeme.kind with
      | .lineBreak => breaks ++ [index]
      | .blank => breaks
      | .comment => if indent < lexeme.indent then [] else breaks
      | _ => []) []
  match breaks with
  | _ :: second :: _ => (sep.take second, sep.drop second)
  | _ => (sep, [])

/-- The entries of a block collection after a gap, which goes to the last comment before it or
begins an entry. -/
def withGap (lexeme : Lexeme) (entry : Entry Layout) (others : List (Entry Layout))
    : List (Entry Layout) :=
  let ending := (entry.value?.bind Layout.ending?).getD []
  if lexeme.kind == .lineBreak && ending.getLast?.any (·.kind == .comment) then
    { entry with value? := entry.value?.map (·.withEnding (ending ++ [lexeme])) } :: others
  else .opened [lexeme] :: entry :: others

/-- The entries of a block collection after a comment that is indented below its last value, if
there is a place for the comment there.
-/
def withIndentedComment? (lexeme : Lexeme) (indent lineIndent : Nat) (entry : Entry Layout)
    (others : List (Entry Layout)) : Option (List (Entry Layout)) :=
  let isPlain := entry.start.all fun lexeme => lexeme.kind == .lineBreak || lexeme.kind == .blank
  if lexeme.kind == .comment && indent < lineIndent && isPlain then
    match others with
    | previous :: before =>
      match previous.value? with
      | some value =>
        value.ending?.map fun ending =>
          { previous with
            value? := some (value.withEnding (ending ++ entry.start ++ [lexeme])) } :: before
      | none => none
    | [] => none
  else none

/-- An entry with a lexeme added where it has come to. -/
def extended (lexeme : Lexeme) (entry : Entry Layout) : Entry Layout :=
  match entry.sep? with
  | some sep => { entry with sep? := some (sep ++ [lexeme]) }
  | none => { entry with start := entry.start ++ [lexeme] }

/-- A value mark in the last entry of a block map. `later` are the lexemes that were split off
the separator.
-/
def stepValueMark (lexeme : Lexeme) (offset indent : Nat) (isNext : Bool) (later : List Lexeme)
    (entry : Entry Layout) (others : List (Entry Layout)) (build : Build) : Build :=
  let here (entries : List (Entry Layout)) : Build := build.replace (.map offset indent entries)
  let inner (entry : Entry Layout) (outer : Build) : Build :=
    outer.begin (.map lexeme.offset build.indent [entry])
  let marked : Entry Layout := { entry with key? := none, sep? := some [lexeme] }
  match entry.sep? with
  | none =>
    if entry.isExplicit && !hasKind .lineBreak entry.start then
      let (start, properties) := splitProperties entry.start
      inner (.keyed properties none [lexeme]) (here ({ entry with start } :: others))
    else here (marked :: others)
  | some sep =>
    if entry.isExplicit then
      if entry.value?.isSome then here (.keyed [] none [lexeme] :: entry :: others)
      else if hasKind .valueMark sep then
        inner (.keyed later none [lexeme]) (here (entry :: others))
      else if entry.key?.any Layout.isFlow && !hasKind .lineBreak sep then
        let (start, properties) := splitProperties entry.start
        inner (.keyed properties entry.key? (sep ++ [lexeme]))
          (here ({ entry with start, key? := none, sep? := none } :: others))
      else here ({ entry with sep? := some (sep ++ later ++ [lexeme]) } :: others)
    else if entry.value?.isSome || isNext then
      here (.keyed later none [lexeme] :: entry :: others)
    else if hasKind .valueMark sep then inner (.keyed [] none [lexeme]) (here (entry :: others))
    else here ({ entry with sep? := some (sep ++ [lexeme]) } :: others)

/-- A lexeme that is indented enough for a block map. -/
def stepMapEntry (lexeme : Lexeme) (offset indent : Nat) (entry : Entry Layout)
    (others : List (Entry Layout)) (build : Build) : Outcome :=
  let isAligned := !build.isKeyLine && build.indent = indent
  let isNext :=
    isAligned && (entry.sep?.isSome || entry.isExplicit) && lexeme.kind != .itemMark
  let (entry, later) :=
    if isNext && entry.value?.isNone then
      match entry.sep? with
      | some sep =>
        let (sep, later) := splitSeparator indent sep
        ({ entry with sep? := some sep }, later)
      | none => (entry, [])
    else (entry, [])
  let here (entries : List (Entry Layout)) : Build := build.replace (.map offset indent entries)
  let isOver := isNext || entry.value?.isSome
  let property : Outcome :=
    if isOver then
      .taken ((here (.opened (later ++ [lexeme]) :: entry :: others)).onKeyLine true)
    else .taken (here (extended lexeme entry :: others))
  let flow : Outcome :=
    let node := Layout.flat lexeme none
    if isOver then
      .taken ((here (.keyed later (some node) [] :: entry :: others)).onKeyLine true)
    else if entry.sep?.isSome then .taken ((here (entry :: others)).begin node)
    else
      let entry := { entry with key? := some node, sep? := some [] }
      .taken ((here (entry :: others)).onKeyLine true)
  match lexeme.kind with
  | .anchor => property
  | .tag => property
  | .reference => flow
  | .scalar => flow
  | .singleQuoted => flow
  | .doubleQuoted => flow
  | .keyMark =>
    let explicit (start : List Lexeme) : Entry Layout :=
      { Entry.opened start with isExplicit := true }
    let build :=
      if entry.sep?.isNone && !entry.isExplicit then
        here ({ entry with start := entry.start ++ [lexeme], isExplicit := true } :: others)
      else if isOver then here (explicit (later ++ [lexeme]) :: entry :: others)
      else
        (here (entry :: others)).begin (.map lexeme.offset build.indent [explicit [lexeme]])
    .taken (build.onKeyLine true)
  | .valueMark =>
    .taken
      ((build.stepValueMark lexeme offset indent isNext later entry others).onKeyLine true)
  | .itemMark =>
    let isOnKeyLine :=
      !entry.isExplicit && entry.sep?.any fun sep => !hasKind .lineBreak sep
    if isOnKeyLine then .taken ((here (entry :: others)).give (.fault lexeme.offset))
    else (here (entry :: others)).beginOrClose lexeme
  | .blockHeader | .mapOpen | .listOpen =>
    let entries := if isAligned then .opened later :: entry :: others else entry :: others
    (here entries).beginOrClose lexeme
  | _ => .left (here (entry :: others)).close

/-- A lexeme in a block map. -/
def stepMap (lexeme : Lexeme) (offset indent : Nat) (entries : List (Entry Layout))
    (build : Build) : Outcome :=
  match entries with
  | [] => .left build.close
  | entry :: others =>
    let here (entries : List (Entry Layout)) : Build := build.replace (.map offset indent entries)
    let gap (build : Build) : Outcome :=
      .taken (build.replace (.map offset indent
        (if entry.value?.isSome then withGap lexeme entry others
        else if entry.sep?.isSome then extended lexeme entry :: others
        else
          (withIndentedComment? lexeme indent build.indent entry others).getD
            (extended lexeme entry :: others))))
    match lexeme.kind with
    | .lineBreak => gap (build.onKeyLine false)
    | .blank => gap build
    | .comment => gap build
    | _ =>
      if indent ≤ build.indent then build.stepMapEntry lexeme offset indent entry others
      else .left (here (entry :: others)).close

/-- A lexeme in a block list. -/
def stepList (lexeme : Lexeme) (offset indent : Nat) (entries : List (Entry Layout))
    (build : Build) : Outcome :=
  match entries with
  | [] => .left build.close
  | entry :: others =>
    let here (entries : List (Entry Layout)) : Outcome :=
      .taken (build.replace (.list offset indent entries))
    let gap : Outcome :=
      here
        (if entry.value?.isSome then withGap lexeme entry others
        else
          (withIndentedComment? lexeme indent build.indent entry others).getD
            (extended lexeme entry :: others))
    let other : Outcome :=
      if indent < build.indent then build.beginOrClose lexeme else .left build.close
    match lexeme.kind with
    | .lineBreak => gap
    | .blank => gap
    | .comment => gap
    | .anchor | .tag =>
      if entry.value?.isSome || build.indent ≤ indent then other
      else here (extended lexeme entry :: others)
    | .itemMark =>
      if build.indent != indent then other
      else if entry.value?.isSome || hasKind .itemMark entry.start then
        here (.opened [lexeme] :: entry :: others)
      else here (extended lexeme entry :: others)
    | _ => other

/-- Ends the brackets that have begun, up to a number of them. -/
def breakOff : Nat → Build → Build
  | 0, build => build
  | left + 1, build =>
    match build.nodes with
    | .brackets _ _ _ _ :: _ => breakOff left build.close
    | _ => build

/-- A lexeme between brackets. -/
def stepOpen (lexeme : Lexeme) (opening : Lexeme) (indent : Nat) (entries : List (Entry Layout))
    (build : Build) : Outcome :=
  let here (entries : List (Entry Layout)) : Outcome :=
    .taken (build.replace (.brackets opening indent entries []))
  let gap : Outcome :=
    match entries with
    | [] => here [.opened [lexeme]]
    | entry :: others =>
      if entry.value?.isSome then here (.opened [lexeme] :: entries)
      else here (extended lexeme entry :: others)
  let flow : Outcome :=
    let node := Layout.flat lexeme none
    match entries with
    | [] => here [.keyed [] (some node) []]
    | entry :: others =>
      if entry.value?.isSome then here (.keyed [] (some node) [] :: entries)
      else if entry.sep?.isSome then .taken (build.begin node)
      else here ({ entry with key? := some node, sep? := some [] } :: others)
  match lexeme.kind with
  | .comma | .keyMark =>
    match entries with
    | [] => here [.opened [lexeme]]
    | entry :: others =>
      if entry.sep?.isSome then here (.opened [lexeme] :: entries)
      else here ({ entry with start := entry.start ++ [lexeme] } :: others)
  | .valueMark =>
    match entries with
    | [] => here [.keyed [] none [lexeme]]
    | entry :: others =>
      if entry.value?.isSome then here (.keyed [] none [lexeme] :: entries)
      else if entry.sep?.isSome then here (extended lexeme entry :: others)
      else here ({ entry with key? := none, sep? := some [lexeme] } :: others)
  | .blank => gap
  | .comment => gap
  | .lineBreak => gap
  | .anchor => gap
  | .tag => gap
  | .reference => flow
  | .scalar => flow
  | .singleQuoted => flow
  | .doubleQuoted => flow
  | .mapClose => .taken (build.replace (.brackets opening indent entries [lexeme]))
  | .listClose => .taken (build.replace (.brackets opening indent entries [lexeme]))
  | _ => build.beginOrClose lexeme

/-- Whether a lexeme after a closing bracket is left to the map around the brackets. -/
def isForMap (lexeme : Lexeme) (indent : Nat) : Option Layout → Bool
  | some (.map _ outer (entry :: _)) =>
    (lexeme.kind == .valueMark && outer = indent)
      || (lexeme.kind == .lineBreak && entry.sep?.isNone)
  | _ => false

/-- A lexeme after a closing bracket: a value mark makes the collection the key of a map. -/
def stepClosed (lexeme : Lexeme) (opening : Lexeme) (indent : Nat)
    (entries : List (Entry Layout)) (closing : List Lexeme) (build : Build) : Outcome :=
  let around := build.nodes.tail.head?
  if isForMap lexeme indent around then .left build.close
  else if lexeme.kind == .valueMark && !(around matches some (.brackets _ _ _ _)) then
    let (start, outer) := { build with nodes := build.nodes.tail }.takeKeyProperties
    let key := (Layout.brackets opening indent entries (closing.take 1)).closed
    let entry := Entry.keyed start (some key) (closing.drop 1 ++ [lexeme])
    .taken ((outer.begin (.map opening.offset indent [entry])).onKeyLine true)
  else
    build.stepEnding lexeme (·.replace (.brackets opening indent entries (closing ++ [lexeme])))

/-- A lexeme in the innermost node. -/
def stepNode (lexeme : Lexeme) (build : Build) : Layout → Outcome
  | .flat node ending? => build.stepFlat lexeme node ending?
  | .block head _ offset indent isBroken => build.stepBlock lexeme head offset indent isBroken
  | .map offset indent entries => build.stepMap lexeme offset indent entries
  | .list offset indent entries => build.stepList lexeme offset indent entries
  | .brackets opening indent entries closing =>
    if lexeme.kind == .breakOff then .taken (breakOff build.nodes.length build)
    else if closing.isEmpty then build.stepOpen lexeme opening indent entries
    else build.stepClosed lexeme opening indent entries closing
  | .fault _ => .left build.close

/-- A lexeme after the mark of the end of a document. -/
def stepEnded (lexeme : Lexeme) (rest : List Lexeme) (build : Build) : Build :=
  if lexeme.kind == .content then build
  else
    let build := { build with base := .ending (rest ++ [lexeme]) }
    if lexeme.kind == .lineBreak then build.close else build

/-- Tries a lexeme on the innermost node and then on those around it. -/
def step (lexeme : Lexeme) : Nat → Build → Build
  | 0, build => build
  | fuel + 1, build =>
    let go : Outcome → Build
      | .taken build => build
      | .left build => step lexeme fuel build
    match build.nodes, build.base with
    | [], .ending rest => build.stepEnded lexeme rest
    | node :: _, base =>
      if lexeme.kind == .documentEnd then { build.closeAll with base := .ending [] }
      else if base matches .ending _ then build.emit (.fault lexeme.offset)
      else go (build.stepNode lexeme node)
    | [], base =>
      if lexeme.kind == .documentEnd then { build.closeAll with base := .ending [] }
      else
        match base with
        | .document document => go (build.stepDocument lexeme document)
        | _ => build.stepStream lexeme

/-- Takes the next lexeme, and notes how it indents its line. -/
def add (build : Build) (lexeme : Kind × List Char) : Build :=
  let (kind, text) := lexeme
  let steps (build : Build) : Build :=
    build.step ⟨kind, text, build.offset, build.indent⟩ (build.nodes.length + 3)
  let passed (build : Build) : Build := { build with offset := build.offset + Text.units text }
  match kind with
  | .scalar => passed (steps { build with isNewLine := false })
  | .stray => passed (build.give (.fault build.offset))
  | .lineBreak => passed { steps build with isNewLine := true, indent := 0 }
  | .blank =>
    let build := steps build
    let isIndent := build.isNewLine && text.head? == some ' '
    passed { build with indent := if isIndent then build.indent + text.length else build.indent }
  | .keyMark | .valueMark | .itemMark =>
    let build := steps build
    passed { build with indent := if build.isNewLine then build.indent + 1 else build.indent }
  | .content => steps build
  | .breakOff => steps build
  | _ => passed { steps build with isNewLine := false }

end Build

/-- The parts of a text that consists of lexemes. -/
def partsOf (lexemes : List (Kind × List Char)) : List Part :=
  (lexemes.foldl Build.add .initial).closeAll.parts.reverse

end Stencil.Data.Yaml
