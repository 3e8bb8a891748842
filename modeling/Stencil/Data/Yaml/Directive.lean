import Stencil.Data.Yaml.Lexeme
import Stencil.Files.Encoding
import Stencil.Number.Literal
import Stencil.Text.Search

/-!
Directives, and the full names of tags: a directive names the version of a document, or gives a
handle for the start of tag names.
-/

namespace Stencil.Data.Yaml

/-- The versions that a document may ask for. -/
inductive Version where
  | legacy
  | core
  deriving DecidableEq, Repr, Inhabited

/-- What directives say about the document after them. -/
structure Directives where
  version : Version
  handles : List (String × String)
  deriving DecidableEq, Repr, Inhabited

/-- The start of the names of the tags that every document knows. -/
def tagNamespace : String := "tag:yaml.org,2002:"

/-- The full name of a tag that every document knows. -/
def knownTag (name : String) : String :=
  tagNamespace ++ name

namespace Directives

/-- What holds without directives. -/
def none : Directives := ⟨.core, [("!!", tagNamespace)]⟩

/-- The words of a text between spaces and tabs. -/
def wordsOf (text : List Char) : List String :=
  let spaced := text.map fun c => if c == '\t' then ' ' else c
  ((Text.splitOn ' ' spaced).filter (!·.isEmpty)).map String.ofList

/-- The version that a directive names. Versions that are not known change nothing. -/
def version? (directives : Directives) (text : String) : Except Mistake Directives :=
  let isNumber (part : List Char) : Bool := !part.isEmpty && part.all Char.isDigit
  if text = "1.1" then .ok { directives with version := .legacy }
  else if text = "1.2" then .ok { directives with version := .core }
  else
    match Text.splitOn '.' text.toList with
    | [major, minor] =>
      if isNumber major && isNumber minor then .ok directives
      else refuse "unsupported version" 0
    | _ => refuse "unsupported version" 0

/-- Sets what a handle stands for. -/
def withHandle (handle start : String) : List (String × String) → List (String × String)
  | [] => [(handle, start)]
  | known :: others =>
    if known.1 = handle then (handle, start) :: others
    else known :: withHandle handle start others

/-- Adds a directive. Directives that are not known change nothing. -/
def add (directives : Directives) (line : List Char) : Except Mistake Directives :=
  match wordsOf (Text.trim line) with
  | "%TAG" :: [handle, start] =>
    .ok { directives with handles := withHandle handle start directives.handles }
  | "%TAG" :: _ => refuse "tag directive without two parts" 0
  | "%YAML" :: [text] => directives.version? text
  | "%YAML" :: _ => refuse "version directive without one part" 0
  | _ => .ok directives

/-- The bytes that a text with percent escapes spells. -/
def unescape? : List Char → Option Files.Bytes
  | [] => some []
  | '%' :: high :: low :: rest => do
    let high ← Number.digitValue? high
    let low ← Number.digitValue? low
    let bytes ← unescape? rest
    some (UInt8.ofNat (16 * high + low) :: bytes)
  | '%' :: _ => Option.none
  | c :: rest => (unescape? rest).map (String.utf8EncodeChar c ++ ·)

/-- The text that a text with percent escapes spells, unless that is no text. -/
def decode? (text : List Char) : Option String := do
  let bytes ← unescape? text
  let decoded := Files.Encoding.decode bytes
  if Files.Encoding.encode decoded = bytes then some decoded else Option.none

/-- The tag after a handle: the longest start that ends in an exclamation mark, and the rest. -/
def splitHandle (tag : List Char) : List Char × List Char :=
  let suffix := (tag.reverse.takeWhile (· != '!')).reverse
  (tag.take (tag.length - suffix.length), suffix)

/-- The full name of a tag. -/
def tagName (directives : Directives) (tag : Lexeme) : Except Mistake String :=
  match tag.text with
  | ['!'] => .ok "!"
  | '!' :: '<' :: rest =>
    if rest.getLast? != some '>' then refuse "verbatim tag without an end" tag.offset
    else
      let name := rest.dropLast
      if name = ['!'] || name = ['!', '!'] then refuse "verbatim tag without a name" tag.offset
      else .ok (String.ofList name)
  | text =>
    let (handle, suffix) := splitHandle text
    if suffix.isEmpty then refuse "tag without a name" tag.offset
    else
      match directives.handles.lookup (String.ofList handle) with
      | some start =>
        match decode? suffix with
        | some name => .ok (start ++ name)
        | Option.none => refuse "tag with a bad escape" tag.offset
      | Option.none =>
        if handle = ['!'] then .ok (String.ofList tag.text)
        else refuse "tag with an unknown handle" tag.offset

/-- The marks that are escaped in tags. -/
def escapes : List (Char × String) :=
  [('!', "%21"), (',', "%2C"), ('[', "%5B"), (']', "%5D"), ('\x7b', "%7B"), ('\x7d', "%7D")]

/-- A full name of a tag as a tag of the document. -/
def tagText (directives : Directives) (name : String) : String :=
  let escape (c : Char) : String := (escapes.lookup c).getD (String.singleton c)
  let handle? := directives.handles.find? fun handle =>
    handle.2.toList.isPrefixOf name.toList
  match handle? with
  | some (handle, start) =>
    handle ++ String.join ((name.toList.drop start.length).map escape)
  | Option.none => if name.toList.head? == some '!' then name else "!<" ++ name ++ ">"

end Directives

end Stencil.Data.Yaml
