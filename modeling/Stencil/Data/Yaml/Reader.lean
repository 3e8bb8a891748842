import Stencil.Data.Fault
import Stencil.Data.Yaml.Layout.Build
import Stencil.Data.Yaml.Node.Data
import Stencil.Data.Yaml.Node.OfLayout
import Stencil.Data.Yaml.Scan

/-!
Reading YAML: a text has at most one document, before which directives may stand.
-/

namespace Stencil.Data.Yaml

/-- The node of a document, with the nodes of its anchors. Directives ask for the mark that
starts a document.
-/
def composeDocument (directives : Directives) (hasDirectives : Bool) (fuel : Nat)
    (document : Document) : Except Mistake (Node × Node.Scope) := do
  let slot : Slot :=
    { isBracketed := false, mark := .documentStart
      follower := .first document.value? document.ending?, indent := 0 }
  let before ← slot.properties true document.start
  match before.mark? with
  | some mark =>
    if !before.hasBreak && document.value?.any Layout.isBlock then
      refuse "collection on the line of a document mark" mark.offset
  | none => if hasDirectives then refuse "document mark expected" 0
  let inner := Node.compose directives fuel
  let (node, anchors) ←
    (Node.inPlace directives inner .top before document.value?).run ⟨[], #[]⟩
  discard (endingComment false (document.ending?.getD []))
  return (node, ⟨directives, anchors.nodes⟩)

/-- What the parts of a text have come to. -/
structure Parsed where
  directives : Directives
  hasDirectives : Bool
  document? : Option (Node × Node.Scope)

/-- Reads the next part of a text. -/
def addPart (fuel : Nat) (parsed : Parsed) (part : Part) : Except Mistake Parsed := do
  match part with
  | .directive text =>
    return { parsed with directives := ← parsed.directives.add text, hasDirectives := true }
  | .document document =>
    if parsed.document?.isSome then refuse "second document" 0
    let document ← composeDocument parsed.directives parsed.hasDirectives fuel document
    return { parsed with hasDirectives := false, document? := some document }
  | .ending rest =>
    if parsed.document?.isNone then refuse "end of a document before its start" 0
    discard (endingComment true rest)
    return parsed
  | .fault offset => refuse "unexpected text" offset

/-- The data that the parts of a text stand for. Without a document there is nothing. -/
def dataOf (fuel : Nat) (parts : List Part) : Except Mistake Plain := do
  let parsed ← parts.foldlM (addPart fuel) ⟨Directives.none, false, none⟩
  match parsed.document? with
  | some (node, scope) => Node.data scope fuel node
  | none => if parsed.hasDirectives then refuse "document expected" 0 else return .null

/-- The text after an offset in 16-bit units. -/
def textAfter : Nat → List Char → List Char
  | 0, text => text
  | _, [] => []
  | offset, c :: text => textAfter (offset - Text.unitWidth c) text

/-- The data of a YAML text. -/
def read (text : List Char) : Except Fault Plain :=
  let lexemes := lexemesOf text
  match dataOf (4 * lexemes.length + 8) (partsOf lexemes) with
  | .ok data => .ok data
  | .error mistake => fail mistake.reason (textAfter mistake.offset text)

end Stencil.Data.Yaml
