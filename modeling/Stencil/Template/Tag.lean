import Stencil.Path
import Stencil.Template.Error
import Stencil.Text

/-!
Tags: what the content between two delimiters means once its outer blanks are removed.
-/

namespace Stencil.Template

/-- A tag that is not escaped. -/
inductive Tag where
  | placeholder (path : Path)
  | loopStart (path : Path) (binding : String)
  | loopEnd
  deriving DecidableEq, Repr

namespace Tag

/-- The word that opens a loop header. -/
def loopWord : List Char := ['e', 'a', 'c', 'h']

/-- The whole content of a loop end. -/
def loopEndWord : List Char := '/' :: loopWord

/-- What follows the loop word, if the content is that word alone or continues with a
blank.
-/
def afterLoopWord? (content : List Char) : Option (List Char) :=
  if loopWord.isPrefixOf content then
    let rest := content.drop loopWord.length
    match rest with
    | [] => some []
    | c :: _ => if Text.isBlank c then some rest else none
  else none

/-- The text between the two bars that end a loop header, if the text is one bar, a
stretch without bars and a last bar.
-/
def betweenBars? : List Char → Option (List Char)
  | '|' :: rest =>
    let name := rest.takeWhile (· != '|')
    if rest.drop name.length = ['|'] then some name else none
  | _ => none

/-- The path and the variable of a loop header, read from what follows the loop word:
a path, optional blanks, and the variable between bars with optional blanks around it.
-/
def loopHeader? (text : List Char) : Option (Path × String) := do
  let text := Text.trimStart text
  let source := text.takeWhile fun c => !Text.isBlank c && c != '|'
  let path ← Path.ofText? source
  let name ← betweenBars? (Text.trimStart (text.drop source.length))
  let name := Text.trim name
  if Path.isNameText name then some (path, String.ofList name) else none

/-- The fault of a content that opens no loop, ends none and spells no path. -/
def faultOf (content : List Char) : TagFault :=
  match content with
  | [] => .empty
  | '/' :: _ => .unknownClosing (String.ofList content)
  | _ => .notAPath (String.ofList content)

/-- The tag with a given content. -/
def ofContent (content : List Char) : Except TagFault Tag :=
  let content := Text.trim content
  if content = loopEndWord then .ok loopEnd
  else match afterLoopWord? content with
    | some rest =>
      match loopHeader? rest with
      | some (path, binding) => .ok (loopStart path binding)
      | none => .error (.malformedLoop (String.ofList content))
    | none =>
      match Path.ofText? content with
      | some path => .ok (placeholder path)
      | none => .error (faultOf content)

end Tag

end Stencil.Template
