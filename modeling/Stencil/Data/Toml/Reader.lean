import Stencil.Data.Toml.Document
import Stencil.Data.Toml.Scalar
import Stencil.Data.Toml.Text

/-!
Reading TOML texts: lines of headers and of keys with values.
-/

namespace Stencil.Data.Toml

/-- The characters at the start of a text up to a line end, a comment or one of the given
marks.
-/
def takeBare (marks : List Char) : List Char → List Char
  | [] => []
  | c :: rest =>
    if c == '#' || marks.contains c || atNewline (c :: rest) then []
    else c :: takeBare marks rest

/-- A value without quotes or brackets, up to one of the given marks. -/
def readBareValue (marks text : List Char) : Except Fault (Plain × List Char) :=
  let bare := takeBare marks text
  let isSpace (c : Char) : Bool := c == ' ' || c == '\t'
  match bareValue? (bare.reverse.dropWhile isSpace).reverse with
  | some data => .ok (data, text.drop bare.length)
  | none => fail "value expected" text

/-- How deep values may stand in each other. -/
def maxDepth : Nat := 1000

mutual

/-- A value, with the depth that is left. A value without quotes ends before one of the given
marks. The fuel bounds the number of nested and following values.
-/
def readValue : Nat → Nat → List Char → Reader Plain
  | 0, _, _, text => fail "value too long" text
  | _, 0, _, text => fail "nested too deeply" text
  | fuel + 1, depth + 1, marks, text =>
    match text with
    | '[' :: rest => readItems fuel depth [] rest
    | '\x7b' :: rest => readInline fuel depth [] rest
    | '"' :: _ =>
      match readQuoted text with
      | .error fault => .error fault
      | .ok (s, rest) => .ok (.text s, rest)
    | '\'' :: _ =>
      match readQuoted text with
      | .error fault => .error fault
      | .ok (s, rest) => .ok (.text s, rest)
    | _ => readBareValue marks text

/-- The items of an array after those already found in reverse. -/
def readItems : Nat → Nat → List Plain → Reader Plain
  | 0, _, _, text => fail "array too long" text
  | fuel + 1, depth, found, text =>
    match skipBlankLines text with
    | .error fault => .error fault
    | .ok (']' :: rest) => .ok (.list found.reverse, rest)
    | .ok text =>
      match readValue fuel depth [',', ']'] text with
      | .error fault => .error fault
      | .ok (item, rest) =>
        match skipBlankLines rest with
        | .error fault => .error fault
        | .ok (',' :: rest) => readItems fuel depth (item :: found) rest
        | .ok (']' :: rest) => .ok (.list (item :: found).reverse, rest)
        | .ok rest => fail "comma or end of array expected" rest

/-- The entries of an inline table after those already found. -/
def readInline : Nat → Nat → Entries → Reader Plain
  | 0, _, _, text => fail "inline table too long" text
  | fuel + 1, depth, found, text =>
    match skipBlankLines text with
    | .error fault => .error fault
    | .ok ('\x7d' :: rest) => .ok (.ofPairs (entriesToPairs found), rest)
    | .ok text =>
      match readKey (text.length + 1) [] text with
      | .error fault => .error fault
      | .ok (key, '=' :: rest) =>
        match readValue fuel depth [',', '\x7d'] (skipSpaces rest) with
        | .error fault => .error fault
        | .ok (data, rest) =>
          match Entries.setValue? key data found, skipBlankLines rest with
          | none, _ => fail "key defined twice" text
          | _, .error fault => .error fault
          | some found, .ok (',' :: rest) => readInline fuel depth found rest
          | some found, .ok ('\x7d' :: rest) =>
            .ok (.ofPairs (entriesToPairs found), rest)
          | _, .ok rest => fail "comma or end of inline table expected" rest
      | .ok (_, rest) => fail "equals sign expected" rest

end

/-- A document while it is read: all entries, and the path of the table that keys go to. -/
structure Document where
  entries : Entries
  current : List String

/-- The document with a header applied. -/
def Document.openHeader (isArray : Bool) (path : List String) (document : Document)
    : Option Document :=
  (document.entries.openHeader? isArray path).map fun entries => ⟨entries, path⟩

/-- The document with a value set in the current table. -/
def Document.setValue (path : List String) (data : Plain) (document : Document)
    : Option Document := do
  let entries ←
    document.entries.alter? .header (Entries.setValue? path data) document.current
  some { document with entries }

/-- A header line after its opening bracket. -/
def readHeader (document : Document) (text : List Char)
    : Except Fault (Document × List Char) :=
  let (isArray, start) :=
    match text with
    | '[' :: rest => (true, rest)
    | _ => (false, text)
  match readKey (text.length + 1) [] start with
  | .error fault => .error fault
  | .ok (path, rest) =>
    let after? :=
      match isArray, rest with
      | true, ']' :: ']' :: rest => some rest
      | false, ']' :: rest => some rest
      | _, _ => none
    match after?, document.openHeader isArray path with
    | none, _ => fail "end of header expected" rest
    | _, none => fail "table defined twice" text
    | some rest, some document => .ok (document, rest)

/-- A line with a key and its value. -/
def readPair (document : Document) (text : List Char)
    : Except Fault (Document × List Char) :=
  match readKey (text.length + 1) [] text with
  | .error fault => .error fault
  | .ok (path, '=' :: rest) =>
    match readValue (text.length + 1) maxDepth [] (skipSpaces rest) with
    | .error fault => .error fault
    | .ok (data, rest) =>
      match document.setValue path data with
      | some document => .ok (document, rest)
      | none => fail "key defined twice" text
  | .ok (_, rest) => fail "equals sign expected" rest

/-- The lines of a document. The fuel bounds their number. -/
def readLines : Nat → Document → List Char → Except Fault Document
  | 0, _, text => fail "document too long" text
  | fuel + 1, document, text =>
    match skipBlankLines text with
    | .error fault => .error fault
    | .ok [] => .ok document
    | .ok text =>
      let line :=
        match text with
        | '[' :: rest => readHeader document rest
        | _ => readPair document text
      match line with
      | .error fault => .error fault
      | .ok (document, rest) =>
        match skipLine rest with
        | .error fault => .error fault
        | .ok [] => .ok document
        | .ok rest =>
          match afterNewline? rest with
          | some rest => readLines fuel document rest
          | none => fail "end of line expected" rest

/-- A text without the byte order mark at its start. -/
def skipByteOrderMark : List Char → List Char
  | '\ufeff' :: rest => rest
  | text => text

/-- The plain data of a TOML text. -/
def read (text : List Char) : Except Fault Plain :=
  match readLines (text.length + 1) ⟨[], []⟩ (skipByteOrderMark text) with
  | .error fault => .error fault
  | .ok document => .ok (.ofPairs (entriesToPairs document.entries))

end Stencil.Data.Toml
