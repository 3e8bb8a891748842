import Stencil.Template.Render

/-! Blocks: the tree that a sequence of tokens with nested loops stands for. Written out from an
index on, blocks give their tokens with the loop spans; read off the spans, the tokens give the
blocks back.

What blocks mean is their recursive evaluation against named values, without indexes, frames or a
budget. It says which tokens are visited, in order, and what comes of it.
-/

namespace Stencil.Template

/-- A token outside the loop brackets. -/
inductive Leaf where
  | literal (text : String) (position : Position)
  | escaped (text : String) (position : Position)
  | placeholder (path : Path) (position : Position)
  deriving DecidableEq, Repr

/-- The token that a leaf is. -/
def Leaf.token : Leaf → Token
  | literal text position => .literal text position
  | escaped text position => .escaped text position
  | placeholder path position => .placeholder path position

/-- The leaf that a token is, if it is no loop bracket. -/
def Token.leaf? : Token → Option Leaf
  | literal text position => some (.literal text position)
  | escaped text position => some (.escaped text position)
  | placeholder path position => some (.placeholder path position)
  | loopStart _ _ _ _ => none
  | loopEnd _ _ => none

/-- A sequence of leaves and loops, each loop with the positions of its start and its end and
with the blocks of its body.
-/
inductive Blocks where
  | done
  | leaf (first : Leaf) (rest : Blocks)
  | loop (path : Path) (binding : String) (start : Position) (body : Blocks)
    (stop : Position) (rest : Blocks)
  deriving Repr

namespace Blocks

/-- The number of tokens that blocks stand for. -/
@[simp] def size : Blocks → Nat
  | done => 0
  | leaf _ rest => rest.size + 1
  | loop _ _ _ body _ rest => body.size + rest.size + 2

/-- The tokens of blocks of which the first token has an index. -/
def tokensFrom (index : Nat) : Blocks → List Token
  | done => []
  | leaf first rest => first.token :: rest.tokensFrom (index + 1)
  | loop path binding start body stop rest =>
    .loopStart path binding ⟨index + 1, index + 1 + body.size⟩ start
      :: (body.tokensFrom (index + 1)
        ++ .loopEnd index stop :: rest.tokensFrom (index + body.size + 2))

/-- One sequence of blocks after the other. -/
def append : Blocks → Blocks → Blocks
  | done, more => more
  | leaf first rest, more => leaf first (rest.append more)
  | loop path binding start body stop rest, more =>
    loop path binding start body stop (rest.append more)

instance : Append Blocks := ⟨append⟩

@[simp] theorem done_append (more : Blocks) : done ++ more = more := rfl

@[simp] theorem leaf_append (first : Leaf) (rest more : Blocks)
    : leaf first rest ++ more = leaf first (rest ++ more) :=
  rfl

@[simp] theorem loop_append (path : Path) (binding : String) (start stop : Position)
    (body rest more : Blocks)
    : loop path binding start body stop rest ++ more
      = loop path binding start body stop (rest ++ more) :=
  rfl

@[simp] theorem append_done (blocks : Blocks) : blocks ++ done = blocks := by
  induction blocks with
  | done => rfl
  | leaf first rest ih => simp [ih]
  | loop path binding start body stop rest _ ih => simp [ih]

theorem append_assoc (first second third : Blocks)
    : first ++ second ++ third = first ++ (second ++ third) := by
  induction first with
  | done => rfl
  | leaf first rest ih => simp [ih]
  | loop path binding start body stop rest _ ih => simp [ih]

@[simp] theorem length_tokensFrom (index : Nat) (blocks : Blocks)
    : (blocks.tokensFrom index).length = blocks.size := by
  induction blocks generalizing index with
  | done => rfl
  | leaf first rest ih => simp [tokensFrom, ih]
  | loop path binding start body stop rest bodyIH ih =>
      simp [tokensFrom, ih, bodyIH]
      omega

/-- The second sequence of blocks starts at the index behind the first one. -/
theorem tokensFrom_append (index : Nat) (first second : Blocks)
    : (first ++ second).tokensFrom index
      = first.tokensFrom index ++ second.tokensFrom (index + first.size) := by
  induction first generalizing index with
  | done => simp [tokensFrom]
  | leaf first rest ih =>
      simp only [leaf_append, tokensFrom, ih, size, List.cons_append]
      rw [show index + 1 + rest.size = index + (rest.size + 1) by omega]
  | loop path binding start body stop rest _ ih =>
      simp only [loop_append, tokensFrom, ih, size, List.cons_append, List.append_assoc]
      rw [show index + body.size + 2 + rest.size = index + (body.size + rest.size + 2) by omega]

/-- Tokens with those of the blocks behind them. -/
def writtenAfter (blocks : Blocks) (tokens : List Token) : List Token :=
  tokens ++ blocks.tokensFrom tokens.length

theorem writtenAfter_append (first second : Blocks) (tokens : List Token)
    : (first ++ second).writtenAfter tokens = second.writtenAfter (first.writtenAfter tokens) := by
  simp [writtenAfter, tokensFrom_append]

-----------------------------------------------------------------------------------------
-- Blocks in a sequence of tokens
-----------------------------------------------------------------------------------------

/-- The tokens from an index on are those of the blocks, each loop with its span. -/
def At (tokens : Array Token) : Nat → Blocks → Prop
  | _, done => True
  | index, leaf first rest =>
    tokens[index]? = some first.token ∧ rest.At tokens (index + 1)
  | index, loop path binding start body stop rest =>
    tokens[index]? = some (.loopStart path binding ⟨index + 1, index + 1 + body.size⟩ start)
    ∧ body.At tokens (index + 1)
    ∧ tokens[index + 1 + body.size]? = some (.loopEnd index stop)
    ∧ rest.At tokens (index + body.size + 2)

/-- Behind the first part of what is left of a list, the second part is left. -/
theorem drop_add_length {tokens second : List Token} {index : Nat} (first : List Token)
    (h : tokens.drop index = first ++ second)
    : tokens.drop (index + first.length) = second := by
  rw [← List.drop_drop, h, List.drop_left]

/-- Where the tokens of blocks stand the blocks stand, by induction over the blocks. -/
theorem at_of_drop {tokens : Array Token} {blocks : Blocks} {index : Nat} {right : List Token}
    (h : tokens.toList.drop index = blocks.tokensFrom index ++ right)
    : blocks.At tokens index := by
  have head {i : Nat} {token : Token} {more : List Token}
      (eq : tokens.toList.drop i = token :: more)
      : tokens[i]? = some token := by
    rw [← Array.getElem?_toList, ← List.head?_drop, eq, List.head?_cons]
  induction blocks generalizing index right with
  | done => trivial
  | leaf first rest ih =>
      exact ⟨head h, ih (drop_add_length [first.token] h)⟩
  | loop path binding start body stop rest bodyIH ih =>
      have next : index + body.size + 2 = index + 1 + body.size + 1 := by omega
      simp only [tokensFrom, List.cons_append, List.append_assoc, next] at h
      have inside := drop_add_length [_] h
      have behind := drop_add_length _ inside
      rw [length_tokensFrom] at behind
      have after := drop_add_length [_] behind
      refine ⟨head h, bodyIH inside, head behind, ?_⟩
      rw [next]
      exact ih after

/-- The blocks of the tokens from `start` up to `stop`, read off the loop spans. Reading ends
where a token is missing, a loop end stands without its start or a span leads nowhere.
-/
def read (tokens : Array Token) (start stop : Nat) : Blocks :=
  if start < stop then
    match tokens[start]? with
    | some (.loopStart path binding body position) =>
      match tokens[body.stop]? with
      | some (.loopEnd _ stopPosition) =>
        if start < body.start ∧ body.start ≤ body.stop ∧ body.stop < stop then
          loop path binding position (read tokens body.start body.stop) stopPosition
            (read tokens (body.stop + 1) stop)
        else done
      | _ => done
    | some token =>
      match token.leaf? with
      | some first => leaf first (read tokens (start + 1) stop)
      | none => done
    | none => done
  else done
  termination_by stop - start

/-- The blocks of a whole sequence of tokens, read off the loop spans. -/
def ofTokens (tokens : Array Token) : Blocks :=
  read tokens 0 tokens.size

/-- Reading finds the blocks that stand in the tokens, by induction over the blocks. -/
theorem read_of_at {tokens : Array Token} {blocks : Blocks} {index : Nat}
    (h : blocks.At tokens index)
    : read tokens index (index + blocks.size) = blocks := by
  induction blocks generalizing index with
  | done =>
      rw [read]
      simp
  | leaf first rest ih =>
      rw [read]
      have later := ih h.2
      rw [show index + 1 + rest.size = index + (rest.size + 1) by omega] at later
      cases first <;> simp [h.1, Leaf.token, Token.leaf?, later]
  | loop path binding start body stop rest bodyIH ih =>
      obtain ⟨starts, inside, ends, after⟩ := h
      rw [read]
      have later := ih after
      rw [show index + body.size + 2 + rest.size = index + (body.size + rest.size + 2) by omega,
        show index + body.size + 2 = index + 1 + body.size + 1 by omega] at later
      have bounds : index + 1 + body.size < index + (body.size + rest.size + 2) := by omega
      simp [starts, ends, bodyIH inside, later, bounds]

/-- Blocks stand at the tokens that they give. -/
theorem at_tokensFrom (blocks : Blocks) : blocks.At (blocks.tokensFrom 0).toArray 0 := by
  have whole : (blocks.tokensFrom 0).toArray.toList.drop 0 = blocks.tokensFrom 0 ++ [] := by
    simp
  exact at_of_drop whole

/-- Blocks are read off the tokens that they give. -/
theorem ofTokens_tokensFrom (blocks : Blocks)
    : ofTokens (blocks.tokensFrom 0).toArray = blocks := by
  simpa [ofTokens] using read_of_at blocks.at_tokensFrom

end Blocks

-----------------------------------------------------------------------------------------
-- What blocks mean
-----------------------------------------------------------------------------------------

/-- The value that a path leads to: its first segment is the name of an entry, the first entry
of a name counts, and every further segment is an entry of a table.
-/
def valueAt (entries : Table) : Path → Option Value
  | [] => none
  | path => path.foldlM Value.member? (.table entries)

/-- The scalar that a path leads to. -/
def scalarAt (entries : Table) (path : Path) (position : Position) : Except Error Scalar :=
  match valueAt entries path with
  | none => .error (.unknownKey path.format (some position))
  | some (.scalar scalar) => .ok scalar
  | some value => .error (.kindMismatch path.format .scalar value.kind (some position))

/-- The items of the list that a path leads to. -/
def itemsAt (entries : Table) (path : Path) (position : Position)
    : Except Error (List Value) :=
  match valueAt entries path with
  | none => .error (.unknownKey path.format (some position))
  | some (.list items) => .ok items
  | some value => .error (.kindMismatch path.format .list value.kind (some position))

/-- An evaluation: the positions of the tokens it visits, in order, and the text or the first
error that comes of it. An error comes of the token visited last.
-/
structure Visit where
  visited : List Position
  outcome : Except Error String

namespace Visit

/-- Nothing is visited, and no text comes of it. -/
def nothing : Visit := ⟨[], .ok ""⟩

/-- One token is visited. -/
def one (position : Position) (outcome : Except Error String) : Visit := ⟨[position], outcome⟩

/-- One evaluation after the other. An error ends both. -/
def andThen (first second : Visit) : Visit :=
  match first.outcome with
  | .error _ => first
  | .ok text => ⟨first.visited ++ second.visited, second.outcome.map (text ++ ·)⟩

/-- Evaluations one after the other. -/
def sequence (visits : List Visit) : Visit := visits.foldr andThen nothing

end Visit

/-- Evaluates a leaf against entries. -/
def Leaf.visit (entries : Table) : Leaf → Visit
  | literal text position => .one position (.ok text)
  | escaped text position => .one position (.ok text)
  | placeholder path position =>
    .one position ((scalarAt entries path position).map Scalar.text)

/-- Evaluates blocks against entries: the values of the loop variables, innermost first, and
those of the root. A loop looks its list up once, then evaluates its body and visits its end for
every item, with the item in front of the entries.
-/
def Blocks.visit (entries : Table) : Blocks → Visit
  | done => .nothing
  | leaf first rest => (first.visit entries).andThen (rest.visit entries)
  | loop path binding start body stop rest =>
    match itemsAt entries path start with
    | .error cause => .one start (.error cause)
    | .ok items =>
      let turns := items.map fun item =>
        (body.visit ((binding, item) :: entries)).andThen (.one stop (.ok ""))
      ((Visit.one start (.ok "")).andThen (.sequence turns)).andThen (rest.visit entries)

end Stencil.Template
