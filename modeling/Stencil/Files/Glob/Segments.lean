/-!
The segments of patterns: what stands between the slashes that are not in braces, brackets or
parentheses.
-/

namespace Stencil.Files.Glob

namespace Segments

/-- A place in a pattern, and the slashes before it, the last one first. -/
structure Place where
  index : Nat
  rest : List Char
  last? : Option Char
  /-- Where the pattern starts, after marks of negation and the like. -/
  start : Nat
  slashes : List Nat
  /-- Whether a mark that may match several texts stands before the place. -/
  isOpen : Bool
  /-- Whether an escaped brace stands right before the place. -/
  isInEscapedBrace : Bool
  deriving Repr

namespace Place

/-- Passes over characters. -/
def skip (count : Nat) (place : Place) : Place :=
  { place with
    index := place.index + (place.rest.take count).length
    last? := (place.rest.take count).getLast?
    rest := place.rest.drop count }

/-- The number of characters up to a closing mark, that included. A given mark takes the next
character its meaning.
-/
def lengthUpTo (closing escape : Char) : List Char → Nat
  | c :: next :: rest =>
    if c == escape then lengthUpTo closing escape rest + 2
    else if c == closing then 1
    else lengthUpTo closing escape (next :: rest) + 1
  | rest => rest.length

/-- The number of characters of braces, after the opening one, and whether there is a choice in
them or their end. Escaped braces hold no choice.
-/
def lengthOfBraces (isEscaped : Bool) : Nat → Nat → List Char → Nat × Bool
  | 0, _, _ => (0, false)
  | _ + 1, _, [] => (0, false)
  | fuel + 1, depth, c :: rest =>
    let go (count depth : Nat) (isOpen : Bool) (rest : List Char) : Nat × Bool :=
      let (more, opens) := lengthOfBraces isEscaped fuel depth rest
      (count + more, isOpen || opens)
    let atMark (count : Nat) (c : Char) (rest : List Char) : Nat × Bool :=
      if c == ',' && !isEscaped then go count depth true rest
      else if c == '\x7d' then
        if depth ≤ 1 then (count, true) else go count (depth - 1) false rest
      else go count depth false rest
    if c == '\\' then go (1 + (rest.take 1).length) depth false (rest.drop 1)
    else if c == '\x7b' then go 1 (depth + 1) false rest
    else if c == '.' && !isEscaped then
      match rest with
      | [] => (1, false)
      | '.' :: rest => go 2 depth true rest
      | c :: rest => atMark 2 c rest
    else atMark 1 c rest

/-- Reads a slash. A dot and a slash at the start are passed over. -/
def readSlash (index : Nat) (last? : Option Char) (place : Place) : Place :=
  let place := { place with slashes := index :: place.slashes }
  if !place.isOpen && last? == some '.' && index = place.start + 1 then
    { place with start := place.start + 2 }
  else place

/-- Reads a character and what belongs to it. -/
def readNext (c : Char) (place : Place) : Place :=
  let index := place.index
  let after := place.skip 1
  let opened := { after with isOpen := true }
  if c == '\\' then
    let isBrace := after.rest.head? == some '\x7b'
    { after.skip 1 with isInEscapedBrace := place.isInEscapedBrace || isBrace }
  else if place.isInEscapedBrace || c == '\x7b' then
    let (count, isOpen) :=
      lengthOfBraces place.isInEscapedBrace (after.rest.length + 1) 1 after.rest
    { after.skip count with
      isOpen := after.isOpen || isOpen, isInEscapedBrace := place.isInEscapedBrace && !isOpen }
  else if c == '/' then after.readSlash index place.last?
  else if "+@*?!".toList.contains c && after.rest.head? == some '(' then
    opened.skip (lengthUpTo ')' '\\' after.rest)
  else if c == '*' || c == '?' then opened
  else if c == '[' then opened.skip (lengthUpTo ']' '\\' after.rest)
  else if c == '!' && index = place.start then { after with start := place.start + 1 }
  else if c == '(' then opened.skip (lengthUpTo ')' '(' after.rest)
  else after

/-- Reads a pattern, with a bound on its length. -/
def readWithin : Nat → Place → Place
  | 0, place => place
  | fuel + 1, place =>
    match place.rest with
    | [] => place
    | c :: _ => readWithin fuel (place.readNext c)

end Place

/-- The text from one place to another. -/
def slice (text : List Char) (first last : Nat) : List Char :=
  (text.take last).drop first

/-- The parts of a text between slashes, given the place after the last slash or where the text
starts. An empty part at the start is left out.
-/
def between (text : List Char) (start : Nat) : Nat → List Nat → List (List Char)
  | last, [] => if last = 0 || text.length ≤ last + 1 then [] else [text.drop (last + 1)]
  | last, slash :: slashes =>
    slice text (if last = 0 then start else last + 1) slash :: between text start slash slashes

/-- The parts of a pattern between its slashes. -/
def parts (text : List Char) : List (List Char) :=
  let place := Place.readWithin text.length ⟨0, text, none, 0, [], false, false⟩
  match between text place.start 0 place.slashes.reverse with
  | [] :: parts => parts
  | parts => parts

end Segments

/-- The segments of a pattern. A slash at the start has an empty segment before it. -/
def segmentsOf (text : List Char) : List (List Char) :=
  match Segments.parts text with
  | [] => if text.head? == some '/' then [[], text.drop 1] else [text]
  | first :: parts =>
    if first.head? == some '/' then [] :: first.drop 1 :: parts else first :: parts

end Stencil.Files.Glob
