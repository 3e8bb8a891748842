import Stencil.Proofs.Template.Nesting

/-! Assembling tokens with a look at the token that a loop end belongs to. The assembly takes the
index of the innermost open loop for that of a loop start; here the token there is looked at
first, and any other token is a fault. No text has the fault.
-/

namespace Stencil.Template

/-- What keeps a text from being tokenized with the look at loop starts. -/
inductive AssemblyFault where
  /-- Something is wrong with the text. -/
  | text (cause : Error)
  /-- The token at the index of an open loop is no loop start. -/
  | noLoopStart (index : Nat)
  deriving DecidableEq, Repr

namespace Assembly

/-- A loop end more, which completes the body of the innermost open loop. The loop start is made
anew from the token at its index.
-/
def closeLoopChecked (assembly : Assembly) (position : Position)
    : Except AssemblyFault Assembly :=
  match assembly.openLoops with
  | [] => .error (.text (.strayLoopEnd position))
  | innermost :: outer =>
    match assembly.tokens[innermost.index]? with
    | some (.loopStart path binding _ start) =>
      let size := assembly.tokens.size
      let closed := Token.loopStart path binding ⟨innermost.index + 1, size⟩ start
      .ok
        { tokens :=
            (assembly.tokens.setIfInBounds innermost.index closed).push
              (.loopEnd innermost.index position)
          openLoops := outer }
    | _ => .error (.noLoopStart innermost.index)

/-- The assembly after one more piece, with the look at loop starts. -/
def addChecked (assembly : Assembly) (piece : Piece × Position)
    : Except AssemblyFault Assembly :=
  match piece with
  | (.tag content, position) =>
    match Tag.ofContent content with
    | .ok .loopEnd => assembly.closeLoopChecked position
    | _ => (assembly.add piece).mapError .text
  | _ => (assembly.add piece).mapError .text

end Assembly

/-- The tokens of a template text, with the look at loop starts. -/
def tokenizeChecked (text : String) : Except AssemblyFault (Array Token) := do
  let assembly ← (Piece.scan text.toList).foldlM Assembly.addChecked .empty
  assembly.finish.mapError .text

namespace Nest

/-- The token at the index of the innermost open loop of a nest is its loop start, whose body is
empty as yet.
-/
theorem getElem?_openTokens (level : Level) (outer : List Level) (current : Blocks)
    : let before := level.before.writtenAfter (openTokens outer)
      (current.writtenAfter (openTokens (level :: outer)))[before.length]?
        = some (.loopStart level.path level.binding ⟨before.length + 1, before.length + 1⟩
          level.position) := by
  intro before
  simp [Blocks.writtenAfter, openTokens, before]

/-- In the assembly of a nest a loop is closed with the look at its start as it is without. -/
theorem closeLoopChecked_assembly (nest : Nest) (position : Position)
    : nest.assembly.closeLoopChecked position
      = (nest.assembly.closeLoop position).mapError .text := by
  obtain ⟨levels, current⟩ := nest
  cases levels with
  | nil => rfl
  | cons level outer =>
      have start := getElem?_openTokens level outer current
      simp only [assembly, Assembly.closeLoopChecked, Assembly.closeLoop, openLoops,
        List.getElem?_toArray, start]
      refine congrArg Except.ok ?_
      simp only [openTokens]
      generalize level.before.writtenAfter (openTokens outer) = tokens
      simp [Blocks.writtenAfter, modify_append_cons, Token.closeBody]

/-- In the assembly of a nest a piece is added with the look at loop starts as it is without. -/
theorem addChecked_assembly (nest : Nest) (piece : Piece × Position)
    : nest.assembly.addChecked piece = (nest.assembly.add piece).mapError .text := by
  obtain ⟨piece, position⟩ := piece
  cases piece with
  | literal text => rfl
  | escaped content => rfl
  | unclosed escaped => rfl
  | tag content =>
      simp only [Assembly.addChecked, Assembly.add]
      cases Tag.ofContent content with
      | error fault => rfl
      | ok tag =>
          cases tag with
          | placeholder path => rfl
          | loopStart path binding => rfl
          | loopEnd => exact closeLoopChecked_assembly nest position

/-- The look at loop starts changes nothing on the way through pieces, by induction on them. -/
theorem foldlM_addChecked (nest : Nest) (pieces : List (Piece × Position))
    : pieces.foldlM Assembly.addChecked nest.assembly
      = (pieces.foldlM Assembly.add nest.assembly).mapError .text := by
  induction pieces generalizing nest with
  | nil => rfl
  | cons piece pieces ih =>
      simp only [List.foldlM_cons, addChecked_assembly, assembly_add]
      cases nest.add piece with
      | error cause => rfl
      | ok next => exact ih next

end Nest

/-- A text is tokenized with the look at loop starts as it is without: the fault that a token is no
loop start never comes.
-/
theorem tokenizeChecked_eq (text : String)
    : tokenizeChecked text = (tokenize text).mapError .text := by
  have same := Nest.foldlM_addChecked .empty (Piece.scan text.toList).toList
  rw [Nest.assembly_empty] at same
  simp only [tokenizeChecked, tokenize, ← Array.foldlM_toList, same]
  cases (Piece.scan text.toList).toList.foldlM Assembly.add .empty with
  | error cause => rfl
  | ok assembly => rfl

end Stencil.Template
