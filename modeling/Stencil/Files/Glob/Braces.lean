import Stencil.Files.Glob.Range

/-!
Braces: a text with alternatives in braces stands for several texts, one for each choice.
Braces without a comma or a range in them stand for themselves. A backslash takes a mark its
meaning and stays; quotes do the same for what is between them and vanish.
-/

namespace Stencil.Files.Glob.Braces

/-- The parts of a text with braces. -/
inductive Part where
  | text (text : List Char)
  /-- A dot in braces. -/
  | dot
  /-- Two dots between the ends of a range. -/
  | range
  /-- A comma between alternatives. -/
  | comma
  /-- What stands in parentheses, with them and with the text right after them. -/
  | inner (parts : List Part)
  /-- What stands in braces, and the numbers of commas and ranges in them. -/
  | group (parts : List Part) (commas ranges : Nat) (isLiteral : Bool)
  deriving Repr

mutual

/-- The text of a part. -/
def Part.spelling : Part → List Char
  | .text text => text
  | .dot => ['.']
  | .range => ['.', '.']
  | .comma => [',']
  | .inner parts => spellingOf parts
  | .group parts _ _ _ => '\x7b' :: (spellingOf parts ++ ['\x7d'])

/-- The text of parts. -/
def spellingOf : List Part → List Char
  | [] => []
  | part :: parts => part.spelling ++ spellingOf parts

end

/-! Reading -/

/-- What a frame is for. -/
inductive FrameKind where
  | top
  | parentheses
  | braces
  deriving DecidableEq, Repr

/-- What has been read since an opening mark, the last part first. -/
structure Frame where
  kind : FrameKind
  parts : List Part
  commas : Nat
  ranges : Nat
  isLiteral : Bool
  hasDollar : Bool
  deriving Repr

/-- A frame in which nothing has been read. -/
def Frame.start (kind : FrameKind) : Frame := ⟨kind, [], 0, 0, false, false⟩

/-- Adds a text to parts. -/
def addText (text : List Char) : List Part → List Part
  | .text before :: parts => .text (before ++ text) :: parts
  | .dot :: parts => .text ('.' :: text) :: parts
  | .inner within :: parts => .inner (within ++ [.text text]) :: parts
  | parts => .text text :: parts

/-- Adds a text to a frame. -/
def Frame.add (frame : Frame) (text : List Char) : Frame :=
  { frame with parts := addText text frame.parts }

/-- Whether what has been read in a frame ends with a dollar sign. -/
def Frame.endsWithDollar (frame : Frame) : Bool :=
  match frame.parts with
  | [] => false
  | part :: _ => part.spelling.getLast? == some '$'

/-- Adds a comma to braces. It ends a range, which then is text. -/
def Frame.addComma (frame : Frame) : Frame :=
  let parts :=
    if 0 < frame.ranges then [.text (spellingOf frame.parts.reverse)] else frame.parts
  { frame with parts := .comma :: parts, commas := frame.commas + 1, ranges := 0 }

/-- Adds a dot to braces without a comma. Two make a range if they stand after one part, or
after a range and a part; else the braces stand for themselves.
-/
def Frame.addDot (frame : Frame) : Frame :=
  match frame.parts with
  | .dot :: parts =>
    if parts.length = 1 || parts.length = 3 then
      { frame with parts := .range :: parts, ranges := frame.ranges + 1 }
    else { frame with parts := .text ['.', '.'] :: parts, ranges := 0, isLiteral := true }
  | .range :: .text before :: parts =>
    { frame with parts := .text (before ++ "...".toList) :: parts, ranges := frame.ranges - 1 }
  | .range :: _ :: parts =>
    { frame with parts := .text "undefined...".toList :: parts, ranges := frame.ranges - 1 }
  | parts => { frame with parts := .dot :: parts }

/-- The frames around a place, the innermost one first, within the top one. -/
structure Frames where
  inner : List Frame
  top : Frame
  deriving Repr

namespace Frames

/-- The innermost frame. -/
def current (frames : Frames) : Frame := frames.inner.headD frames.top

/-- Changes the innermost frame. -/
def change (f : Frame → Frame) (frames : Frames) : Frames :=
  match frames.inner with
  | [] => { frames with top := f frames.top }
  | frame :: inner => { frames with inner := f frame :: inner }

/-- Adds a text to the innermost frame. -/
def add (frames : Frames) (text : List Char) : Frames := frames.change (·.add text)

/-- Opens parentheses. -/
def openParentheses (frames : Frames) : Frames :=
  { frames with inner := (Frame.start .parentheses).add ['('] :: frames.inner }

/-- Opens braces, which stand for themselves after a dollar sign and within such braces. -/
def openBraces (frames : Frames) : Frames :=
  let frame := frames.current
  let hasDollar := frame.hasDollar || frame.endsWithDollar
  let braces := { Frame.start .braces with hasDollar, isLiteral := hasDollar }
  { frames with inner := braces :: frames.inner }

/-- Adds a part to the innermost frame. -/
def addPart (part : Part) (frames : Frames) : Frames :=
  frames.change fun frame => { frame with parts := part :: frame.parts }

/-- Closes the innermost frame if it is of a kind, with a text. -/
def close (kind : FrameKind) (text : List Char) (frames : Frames) : Frames :=
  match frames.inner with
  | [] => frames.add text
  | frame :: inner =>
    if frame.kind ≠ kind then frames.add text
    else
      let outer : Frames := { frames with inner }
      if kind = .braces then
        outer.addPart (.group frame.parts.reverse frame.commas frame.ranges frame.isLiteral)
      else outer.addPart (.inner (frame.add text).parts.reverse)

end Frames

/-- The parts of frames that are not closed, as a part of the top. -/
def unclosedParts (frame : Frame) : List Part :=
  let parts := frame.parts.reverse.map fun part =>
    match part with
    | .comma => .text [',']
    | part => part
  if frame.kind = .braces then .text ['\x7b'] :: parts else parts

/-- The parts of frames that are not closed, the outermost first. Parentheses that are closed
cannot stand in braces that are not.
-/
def partsWithin (isInBraces : Bool) : List Frame → Except GlobFault (List Part)
  | [] => .ok []
  | frame :: frames =>
    let isInBraces := isInBraces || frame.kind = .braces
    if isInBraces && frame.parts.any (· matches .inner _) then .error .strayParentheses
    else (partsWithin isInBraces frames).map (unclosedParts frame ++ ·)

/-- The parts of the frames at the end of a text. -/
def Frames.parts (frames : Frames) : Except GlobFault (List Part) :=
  partsWithin false (frames.inner ++ [frames.top]).reverse

/-- The text up to the bracket that closes an opening one, that bracket included, and the rest.
A backslash at the end is followed by no character.
-/
def bracketed : Nat → List Char → List Char × List Char
  | _, [] => ([], [])
  | _, ['\\'] => ("\\undefined".toList, [])
  | depth, '\\' :: c :: rest =>
    let (text, rest) := bracketed depth rest
    ('\\' :: c :: text, rest)
  | depth, c :: rest =>
    if c == ']' && depth = 0 then ([c], rest)
    else
      let next :=
        if c == '[' then depth + 1 else if c == ']' then depth - 1 else depth
      let (text, rest) := bracketed next rest
      (c :: text, rest)

/-- The text up to a quote, which is dropped, and the rest. -/
def quoted (quote : Char) : List Char → List Char × List Char
  | [] => ([], [])
  | ['\\'] => ("\\undefined".toList, [])
  | '\\' :: c :: rest =>
    let (text, rest) := quoted quote rest
    ('\\' :: c :: text, rest)
  | c :: rest =>
    if c == quote then ([], rest)
    else
      let (text, rest) := quoted quote rest
      (c :: text, rest)

/-- Whether a character opens and closes a quotation. -/
def isQuote (c : Char) : Bool := c == '"' || c == '\'' || c == '\x60'

/-- Whether a character is left out. -/
def isIgnored (c : Char) : Bool := c == '\ufeff' || c == '\u00a0'

/-- Reads a character and what belongs to it. -/
def readNext (frames : Frames) (c : Char) (rest : List Char) : Frames × List Char :=
  if isIgnored c then (frames, rest)
  else if c == '\\' then
    match rest with
    | [] => (frames.add "\\undefined".toList, [])
    | c :: rest => (frames.add ['\\', c], rest)
  else if c == ']' then (frames.add ['\\', ']'], rest)
  else if c == '[' then
    let (text, rest) := bracketed 0 rest
    (frames.add ('[' :: text), rest)
  else if isQuote c then
    let (text, rest) := quoted c rest
    (frames.add text, rest)
  else if c == '(' then (frames.openParentheses, rest)
  else if c == ')' then (frames.close .parentheses [c], rest)
  else if c == '\x7b' then (frames.openBraces, rest)
  else if c == '\x7d' then (frames.close .braces [c], rest)
  else
    let frame := frames.current
    if c == ',' && frame.kind = .braces then (frames.change Frame.addComma, rest)
    else if c == '.' && frame.kind = .braces && frame.commas = 0 then
      (frames.change Frame.addDot, rest)
    else (frames.add [c], rest)

/-- Reads a text, with a bound on its length. -/
def readWithin : Nat → Frames → List Char → Frames
  | fuel + 1, frames, c :: rest =>
    let (frames, rest) := readNext frames c rest
    readWithin fuel frames rest
  | _, frames, _ => frames

/-- The parts of a text. -/
def read (text : List Char) : Except GlobFault (List Part) :=
  (readWithin text.length ⟨[], .start .top⟩ text).parts

/-! Expansion -/

/-- The alternatives of a frame, each with the texts that it stands for, the last one first. -/
abbrev Alternatives := List (List (List Char))

/-- Continues the last alternative by any of some texts. -/
def continueBy (texts : List (List Char)) : Alternatives → Alternatives
  | [] => [if texts.isEmpty then [[]] else texts]
  | last :: before =>
    if texts.isEmpty then last :: before
    else (last.flatMap fun text => texts.map (text ++ ·)) :: before

/-- Continues the last alternative by a text, if it has characters. -/
def continueByText (text : List Char) (found : Alternatives) : Alternatives :=
  if text.isEmpty then found else continueBy [text] found

/-- The texts of parts that are text. -/
def ownTexts (parts : List Part) : List (List Char) :=
  parts.filterMap fun part =>
    match part with
    | .text text => some text
    | _ => none

/-- A text in braces. -/
def inBraces (text : List Char) : List Char := '\x7b' :: (text ++ ['\x7d'])

mutual

/-- Continues the alternatives by a part. A comma starts a new alternative; one at the start
two of them.
-/
def expandPart (isFirst : Bool) : Part → Alternatives → Except GlobFault Alternatives
  | .text text, found => .ok (continueByText text found)
  | .dot, found => .ok (continueByText ['.'] found)
  | .range, found => .ok (continueByText ['.', '.'] found)
  | .comma, found => .ok ([[]] :: if isFirst then [[]] :: found else found)
  | .inner parts, found => expandParts false parts found
  | .group parts commas ranges isLiteral, found => do
    let spelling := inBraces (spellingOf parts)
    if isLiteral || parts.isEmpty then return continueByText spelling found
    else if 0 < ranges then
      let texts ← Range.texts (ownTexts parts)
      return continueBy (if texts.isEmpty then [spelling] else texts) found
    else
      let texts := (← expandParts true parts []).reverse.flatten
      return continueBy (if commas = 0 then texts.map inBraces else texts) found

/-- Continues the alternatives by parts. -/
def expandParts (isFirst : Bool) : List Part → Alternatives → Except GlobFault Alternatives
  | [], found => .ok found
  | part :: parts, found => do expandParts false parts (← expandPart isFirst part found)

end

/-- Whether a text has an opening brace and a closing one behind it. -/
def hasBraces (text : List Char) : Bool :=
  (text.dropWhile (· != '\x7b')).contains '\x7d'

/-- Puts a text behind those that are not longer. -/
def insertByLength (text : List Char) : List (List Char) → List (List Char)
  | [] => [text]
  | other :: others =>
    if Text.units other ≤ Text.units text then other :: insertByLength text others
    else text :: other :: others

/-- The texts with characters that a text stands for, each once, shorter ones first. -/
def expand (text : List Char) : Except GlobFault (List (List Char)) := do
  if !hasBraces text then return [text].filter (· ≠ [])
  else if text.length < 3 then return [text]
  else if GlobFault.maxLength < Text.units text then throw (.tooLong (Text.units text))
  else
    let texts := (← expandParts false (← read text) []).reverse.flatten
    return (texts.eraseDups.foldl (fun found text => insertByLength text found) []).filter
      (· ≠ [])

end Stencil.Files.Glob.Braces
