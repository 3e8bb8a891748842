import Stencil.Config
import Stencil.Files.PathText

/-!
Which files of a source directory are templates, what their outputs are called, and where the
outputs go. A template has the suffix before its final extension.
-/

namespace Stencil.Config

/-- The path of the output of a template: the path without the suffix before its final
extension. Nothing for a path without that suffix, or with nothing else in its last name.
-/
def Naming.outputName? (naming : Naming) (path : String) : Option String :=
  let text := path.toList
  let suffix := naming.suffix.toList
  let extension := Files.PathText.extension text
  let stem := text.take (text.length - extension.length)
  if extension.isEmpty || !suffix.isSuffixOf stem
      || Files.PathText.baseName stem == suffix then none
  else some (String.ofList (stem.take (stem.length - suffix.length) ++ extension))

/-- Whether a path is that of a template. -/
def Naming.isTemplate (naming : Naming) (path : String) : Bool :=
  (naming.outputName? path).isSome

/-- The pattern of the files that may be templates. -/
def Naming.pattern (naming : Naming) : String :=
  "**/*" ++ naming.suffix ++ ".*"

/-- The absolute source directory of a target. -/
def Target.sourceDir (target : Target) (root : String) : String :=
  Files.PathText.resolve root target.source

/-- The absolute output directory of a target: its own, or the one named for all, below its
source directory.
-/
def Target.outputDir (target : Target) (root : String) (naming : Naming) : String :=
  match target.output with
  | some (some output) => Files.PathText.resolve root output
  | _ => Files.PathText.resolve (target.sourceDir root) naming.outputDir

end Stencil.Config
