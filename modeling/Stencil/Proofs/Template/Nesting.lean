import Stencil.Proofs.Template.Blocks
import Stencil.Template.Tokenize

/-! Assembling tokens keeps a nest: the loops that are still open, each with the blocks before
it, and the blocks behind the innermost open one. Each step of the assembly is a step of the
nest, so a finished assembly holds the tokens of blocks.
-/

namespace Stencil.Template

/-- An open loop with the blocks before it, back to the loop around it. -/
structure Level where
  before : Blocks
  path : Path
  binding : String
  position : Position
  deriving Repr

/-- The open loops, innermost first, and the blocks behind the innermost one. -/
structure Nest where
  levels : List Level
  current : Blocks
  deriving Repr

namespace Nest

/-- No loop and no block. -/
def empty : Nest := ⟨[], .done⟩

/-- The tokens up to the start of the innermost open loop. Open loops have empty bodies. -/
def openTokens : List Level → List Token
  | [] => []
  | level :: outer =>
    let tokens := level.before.writtenAfter (openTokens outer)
    tokens
      ++ [.loopStart level.path level.binding ⟨tokens.length + 1, tokens.length + 1⟩
        level.position]

/-- The open loops as the assembly keeps them. -/
def openLoops : List Level → List OpenLoop
  | [] => []
  | level :: outer =>
    ⟨(level.before.writtenAfter (openTokens outer)).length, level.path, level.position⟩
      :: openLoops outer

/-- The assembly that a nest stands for. -/
def assembly (nest : Nest) : Assembly where
  tokens := (nest.current.writtenAfter (openTokens nest.levels)).toArray
  openLoops := openLoops nest.levels

/-- A leaf more. -/
def push (nest : Nest) (first : Leaf) : Nest :=
  { nest with current := nest.current ++ .leaf first .done }

/-- A loop start more. -/
def openLoop (nest : Nest) (path : Path) (binding : String) (position : Position) : Nest :=
  ⟨⟨nest.current, path, binding, position⟩ :: nest.levels, .done⟩

/-- A loop end more, if a loop is open. -/
def closeLoop (nest : Nest) (position : Position) : Except Error Nest :=
  match nest.levels with
  | [] => .error (.strayLoopEnd position)
  | level :: outer =>
    .ok
      ⟨outer,
        level.before
          ++ .loop level.path level.binding level.position nest.current position .done⟩

/-- The nest after one more piece. -/
def add (nest : Nest) (piece : Piece × Position) : Except Error Nest :=
  match piece with
  | (.literal text, position) => .ok (nest.push (.literal (String.ofList text) position))
  | (.escaped content, position) =>
    .ok (nest.push (.escaped (String.ofList (opening ++ content ++ closing)) position))
  | (.unclosed escaped, position) => .error (.unclosedTag escaped position)
  | (.tag content, position) =>
    match Tag.ofContent content with
    | .error fault => .error (.invalidTag fault position)
    | .ok (.placeholder path) => .ok (nest.push (.placeholder path position))
    | .ok (.loopStart path binding) => .ok (nest.openLoop path binding position)
    | .ok .loopEnd => nest.closeLoop position

-----------------------------------------------------------------------------------------
-- A step of the nest is a step of the assembly
-----------------------------------------------------------------------------------------

@[simp] theorem assembly_empty : empty.assembly = .empty := rfl

/-- A token pushed on the assembly is a leaf behind the current blocks. -/
theorem assembly_push (nest : Nest) (first : Leaf)
    : nest.assembly.push first.token = (nest.push first).assembly := by
  simp only [assembly, Assembly.push, push, Blocks.writtenAfter_append]
  simp [Blocks.writtenAfter, Blocks.tokensFrom]

/-- A loop opened in the assembly is a level more, with the current blocks before it. -/
theorem assembly_openLoop (nest : Nest) (path : Path) (binding : String)
    (position : Position)
    : nest.assembly.openLoop path binding position
      = (nest.openLoop path binding position).assembly := by
  simp [assembly, Assembly.openLoop, openLoop, openTokens, openLoops, Blocks.writtenAfter,
    Blocks.tokensFrom]

/-- Modifying a list behind its first part modifies the item there, by induction on that part. -/
theorem modify_append_cons (left right : List Token) (token : Token) (f : Token → Token)
    : (left ++ token :: right).modify left.length f = left ++ f token :: right := by
  induction left with
  | nil => rfl
  | cons first left ih => simp [ih]

/-- A loop closed in the assembly becomes a block behind those before it: the loop start, which
is found by its index, gets the index of the loop end as the stop of its body.
-/
theorem assembly_closeLoop (nest : Nest) (position : Position)
    : nest.assembly.closeLoop position = (nest.closeLoop position).map assembly := by
  obtain ⟨levels, current⟩ := nest
  cases levels with
  | nil => rfl
  | cons level outer =>
      simp only [closeLoop, Except.map, Assembly.closeLoop, assembly, openLoops, openTokens,
        Blocks.writtenAfter_append]
      generalize level.before.writtenAfter (openTokens outer) = tokens
      simp [Blocks.writtenAfter, Blocks.tokensFrom, modify_append_cons, Token.closeBody]
      omega

/-- Adding a piece to the assembly of a nest gives the assembly of the nest with the piece. -/
theorem assembly_add (nest : Nest) (piece : Piece × Position)
    : nest.assembly.add piece = (nest.add piece).map assembly := by
  obtain ⟨piece, position⟩ := piece
  cases piece with
  | literal text => simp [Assembly.add, add, Except.map, ← assembly_push, Leaf.token]
  | escaped content => simp [Assembly.add, add, Except.map, ← assembly_push, Leaf.token]
  | unclosed escaped => rfl
  | tag content =>
      simp only [Assembly.add, add]
      cases Tag.ofContent content with
      | error fault => rfl
      | ok tag =>
          cases tag with
          | placeholder path => simp [Except.map, ← assembly_push, Leaf.token]
          | loopStart path binding => simp [Except.map, assembly_openLoop]
          | loopEnd => exact assembly_closeLoop nest position

/-- Assembling pieces from the assembly of a nest is adding them to the nest, by induction on
the pieces.
-/
theorem foldlM_assembly (nest : Nest) (pieces : List (Piece × Position))
    : pieces.foldlM Assembly.add nest.assembly = (pieces.foldlM add nest).map assembly := by
  induction pieces generalizing nest with
  | nil => rfl
  | cons piece pieces ih =>
      simp only [List.foldlM_cons, assembly_add]
      cases nest.add piece with
      | error cause => rfl
      | ok next => exact ih next

/-- The nest of a template text, or the first thing wrong with its pieces. -/
def ofText (text : String) : Except Error Nest :=
  (Piece.scan text.toList).toList.foldlM add empty

/-- Tokenizing a text is finishing the assembly of its nest. -/
theorem tokenize_eq (text : String)
    : tokenize text = (ofText text).bind fun nest => nest.assembly.finish := by
  simp only [tokenize, ofText, ← Array.foldlM_toList, ← assembly_empty, foldlM_assembly]
  cases (Piece.scan text.toList).toList.foldlM add empty with
  | error cause => rfl
  | ok nest => rfl

/-- An assembly is finished exactly if its nest has no open loop, and then it holds the tokens of
the current blocks.
-/
theorem finish_assembly_eq_ok_iff {nest : Nest} {tokens : Array Token}
    : nest.assembly.finish = .ok tokens
      ↔ nest.levels = [] ∧ tokens = (nest.current.tokensFrom 0).toArray := by
  obtain ⟨levels, current⟩ := nest
  cases levels with
  | nil => simp [assembly, Assembly.finish, openLoops, openTokens, Blocks.writtenAfter, eq_comm]
  | cons level outer =>
      cases last : (openLoops (level :: outer)).getLast? with
      | none => simp [openLoops] at last
      | some outermost => simp [assembly, Assembly.finish, last]

/-- A text is tokenized exactly if its nest has no open loop, and its tokens are those of the
blocks of the nest.
-/
theorem tokenize_eq_ok_iff {text : String} {tokens : Array Token}
    : tokenize text = .ok tokens
      ↔ ∃ blocks,
          ofText text = .ok ⟨[], blocks⟩ ∧ tokens = (blocks.tokensFrom 0).toArray := by
  rw [tokenize_eq]
  cases ofText text with
  | error cause => simp [Except.bind]
  | ok nest =>
      simp only [Except.bind, finish_assembly_eq_ok_iff]
      constructor
      · rintro ⟨none, rfl⟩
        exact ⟨nest.current, by rw [← none], rfl⟩
      · rintro ⟨blocks, ⟨⟩, rfl⟩
        exact ⟨rfl, rfl⟩

/-- The tokens of a text are those of the blocks that are read off their loop spans. -/
theorem tokens_eq_of_tokenize {text : String} {tokens : Array Token}
    (h : tokenize text = .ok tokens)
    : tokens = ((Blocks.ofTokens tokens).tokensFrom 0).toArray := by
  obtain ⟨blocks, _, rfl⟩ := tokenize_eq_ok_iff.1 h
  rw [Blocks.ofTokens_tokensFrom]

end Nest

end Stencil.Template
