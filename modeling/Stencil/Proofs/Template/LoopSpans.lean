import Mathlib
import Stencil.Proofs.Template.CheckedAssembly
import Stencil.Proofs.Template.LoopMatching

/-! The loop spans of a tokenized template: loop starts and loop ends point to each other in
pairs, the spans of two loops are disjoint or one contains the other, and the tokens in a span are
balanced. All of it is read off the blocks that stand at the tokens.
-/

namespace Stencil.Template

/-- The indexes of the one span are all before or all behind those of the other. -/
def Span.Disjoint (first second : Span) : Prop :=
  first.stop ≤ second.start ∨ second.stop ≤ first.start

/-- The indexes of the second span are among those of the first. -/
def Span.Contains (outer inner : Span) : Prop :=
  outer.start ≤ inner.start ∧ inner.stop ≤ outer.stop

/-- The live tag that a token stands for, with its position. -/
def Token.tag? : Token → Option (Tag × Position)
  | literal _ _ => none
  | escaped _ _ => none
  | placeholder path position => some (.placeholder path, position)
  | loopStart path binding _ position => some (.loopStart path binding, position)
  | loopEnd _ position => some (.loopEnd, position)

/-- The tags among the tokens in a span. -/
def tagsIn (tokens : Array Token) (span : Span) : Tags :=
  (tokens.extract span.start span.stop).toList.filterMap Token.tag?

/-- Loop starts and loop ends belong together in pairs, and the loops are nested. -/
structure LoopsNest (tokens : Array Token) : Prop where
  /-- The body of a loop starts right behind the loop start and stops at a loop end, which
  points back.
  -/
  startsPoint
    : ∀ {index : Nat} {path binding body position},
        tokens[index]? = some (.loopStart path binding body position)
        → body.start = index + 1
          ∧ index < body.stop
          ∧ body.stop < tokens.size
          ∧ ∃ stopPosition, tokens[body.stop]? = some (.loopEnd index stopPosition)
  /-- A loop end points to a loop start, which points back. -/
  endsPoint
    : ∀ {index : Nat} {start position},
        tokens[index]? = some (.loopEnd start position)
        → ∃ path binding body startPosition,
            tokens[start]? = some (.loopStart path binding body startPosition)
            ∧ body.stop = index
  nested
    : ∀ {index index' : Nat} {path path' binding binding' body body' position position'},
        tokens[index]? = some (.loopStart path binding body position)
        → tokens[index']? = some (.loopStart path' binding' body' position')
        → body.Disjoint body' ∨ body.Contains body' ∨ body'.Contains body
  balanced
    : ∀ {index : Nat} {path binding body position},
        tokens[index]? = some (.loopStart path binding body position)
        → (tagsIn tokens body).Balanced

namespace Blocks

variable {tokens : Array Token}

-----------------------------------------------------------------------------------------
-- The tokens of blocks are balanced
-----------------------------------------------------------------------------------------

/-- The tags of blocks are balanced, by induction over the blocks. -/
theorem balanced_tokensFrom (blocks : Blocks) (index : Nat)
    : Tags.Balanced ((blocks.tokensFrom index).filterMap Token.tag?) := by
  induction blocks generalizing index with
  | done => exact Tags.balanced_nil
  | leaf first rest ih =>
      have later := ih (index + 1)
      cases first with
      | literal text position =>
          simpa [tokensFrom, Leaf.token, Token.tag?, List.filterMap_cons] using later
      | escaped text position =>
          simpa [tokensFrom, Leaf.token, Token.tag?, List.filterMap_cons] using later
      | placeholder path position =>
          simpa [tokensFrom, Leaf.token, Token.tag?]
            using (Tags.balanced_placeholder path position).append later
  | loop path binding start body stop rest bodyIH ih =>
      have inside := (bodyIH (index + 1)).enclose path binding start stop
      simpa [tokensFrom, Token.tag?] using inside.append (ih (index + body.size + 2))

/-- Where blocks stand, so many tokens are theirs, by induction over the blocks. -/
theorem At.take_drop {blocks : Blocks} {index : Nat} (h : blocks.At tokens index)
    : (tokens.toList.drop index).take blocks.size = blocks.tokensFrom index := by
  have first {i : Nat} {token : Token} (at_ : tokens[i]? = some token)
      : tokens.toList.drop i = token :: tokens.toList.drop (i + 1) := by
    rw [← Array.getElem?_toList] at at_
    obtain ⟨inside, rfl⟩ := List.getElem?_eq_some_iff.1 at_
    exact List.drop_eq_getElem_cons inside
  induction blocks generalizing index with
  | done => rfl
  | leaf head rest ih => rw [first h.1, size, List.take_succ_cons, ih h.2, tokensFrom]
  | loop path binding start body stop rest bodyIH ih =>
      obtain ⟨starts, inside, ends, after⟩ := h
      have split : tokens.toList.drop (index + 1)
          = body.tokensFrom (index + 1)
            ++ .loopEnd index stop :: tokens.toList.drop (index + body.size + 2) := by
        rw [← List.take_append_drop body.size (tokens.toList.drop (index + 1)), bodyIH inside,
          List.drop_drop, first ends]
        simp only [show index + 1 + body.size + 1 = index + body.size + 2 by omega]
      have length : (body.tokensFrom (index + 1)).length = body.size := by simp
      rw [first starts, split, tokensFrom, size,
        show body.size + rest.size + 2 = (body.size + (rest.size + 1)) + 1 by omega,
        List.take_succ_cons, List.take_append, length, List.take_of_length_le (by omega),
        Nat.add_sub_cancel_left, List.take_succ_cons, ih after]

/-- The tags in the span at which blocks stand are balanced. -/
theorem At.balanced {blocks : Blocks} {index : Nat} (h : blocks.At tokens index)
    : (tagsIn tokens ⟨index, index + blocks.size⟩).Balanced := by
  have same := balanced_tokensFrom blocks index
  rw [← h.take_drop] at same
  simpa [tagsIn, Array.toList_extract, List.extract_eq_take_drop] using same

-----------------------------------------------------------------------------------------
-- The loops among the tokens of blocks
-----------------------------------------------------------------------------------------

/-- A loop start among the tokens of blocks has a body of blocks, and its loop end stands right
behind them, by induction over the blocks around it.
-/
theorem At.exists_body {blocks : Blocks} {first index : Nat} {path : Path} {binding : String}
    {span : Span} {position : Position} (h : blocks.At tokens first) (least : first ≤ index)
    (most : index < first + blocks.size)
    (starts : tokens[index]? = some (.loopStart path binding span position))
    : ∃ body : Blocks,
        body.At tokens (index + 1)
        ∧ span = ⟨index + 1, index + 1 + body.size⟩
        ∧ index + 1 + body.size < first + blocks.size
        ∧ ∃ stop, tokens[index + 1 + body.size]? = some (.loopEnd index stop) := by
  induction blocks generalizing first with
  | done => simp at most; omega
  | leaf head rest ih =>
      rcases Nat.eq_or_lt_of_le least with rfl | later
      · rw [h.1] at starts
        cases head <;> simp [Leaf.token] at starts
      · have bound : first + 1 + rest.size = first + (rest.size + 1) := by omega
        simpa [bound] using ih h.2 later (by simp at most; omega)
  | loop path' binding' start body stop rest bodyIH ih =>
      obtain ⟨starts', inside, ends, after⟩ := h
      simp only [size] at most ⊢
      rcases Nat.eq_or_lt_of_le least with rfl | later
      · rw [starts'] at starts
        cases starts
        exact ⟨body, inside, rfl, by omega, stop, ends⟩
      · rcases Nat.lt_trichotomy index (first + 1 + body.size) with within | rfl | behind
        · obtain ⟨inner, at_, eq, bound, ends'⟩ := bodyIH inside later within
          exact ⟨inner, at_, eq, by omega, ends'⟩
        · simp [ends] at starts
        · obtain ⟨inner, at_, eq, bound, ends'⟩ := ih after (by omega) (by omega)
          exact ⟨inner, at_, eq, by omega, ends'⟩

/-- A loop end among the tokens of blocks belongs to a loop start that points to it, by induction
over the blocks around it.
-/
theorem At.exists_start {blocks : Blocks} {first index start : Nat} {position : Position}
    (h : blocks.At tokens first) (least : first ≤ index) (most : index < first + blocks.size)
    (ends : tokens[index]? = some (.loopEnd start position))
    : ∃ path binding span startPosition,
        tokens[start]? = some (.loopStart path binding span startPosition)
        ∧ span.stop = index := by
  induction blocks generalizing first with
  | done => simp at most; omega
  | leaf head rest ih =>
      rcases Nat.eq_or_lt_of_le least with rfl | later
      · rw [h.1] at ends
        cases head <;> simp [Leaf.token] at ends
      · exact ih h.2 later (by simp at most; omega)
  | loop path binding startPosition body stop rest bodyIH ih =>
      obtain ⟨starts, inside, ends', after⟩ := h
      simp only [size] at most
      rcases Nat.eq_or_lt_of_le least with rfl | later
      · simp [starts] at ends
      · rcases Nat.lt_trichotomy index (first + 1 + body.size) with within | rfl | behind
        · exact bodyIH inside later within
        · rw [ends'] at ends
          cases ends
          exact ⟨path, binding, _, startPosition, starts, rfl⟩
        · exact ih after (by omega) (by omega)

/-- Of two loop starts among the tokens of blocks, the later one is behind the loop end of the
earlier one, or its loop ends before that.
-/
theorem At.nested {blocks : Blocks} (h : blocks.At tokens 0) (whole : tokens.size = blocks.size)
    {index index' : Nat} {path path' : Path} {binding binding' : String} {span span' : Span}
    {position position' : Position}
    (starts : tokens[index]? = some (.loopStart path binding span position))
    (starts' : tokens[index']? = some (.loopStart path' binding' span' position'))
    (later : index < index')
    : span.Disjoint span' ∨ span.Contains span' := by
  have inside {i : Nat} {token : Token} (at_ : tokens[i]? = some token)
      : i < 0 + blocks.size := by
    have := (Array.getElem?_eq_some_iff.1 at_).1
    omega
  obtain ⟨body, bodyAt, rfl, _, stop, ends⟩ :=
    h.exists_body (Nat.zero_le _) (inside starts) starts
  rcases Nat.lt_trichotomy index' (index + 1 + body.size) with within | rfl | behind
  · obtain ⟨_, _, rfl, bound, _⟩ := bodyAt.exists_body later within starts'
    exact .inr ⟨by simp only; omega, by simp only; omega⟩
  · simp [ends] at starts'
  · obtain ⟨_, _, rfl, _, _⟩ := h.exists_body (Nat.zero_le _) (inside starts') starts'
    exact .inl (.inl (by simp only; omega))

/-- The loops among the tokens of blocks nest. -/
theorem loopsNest_tokensFrom (blocks : Blocks)
    : LoopsNest (blocks.tokensFrom 0).toArray := by
  have stands := blocks.at_tokensFrom
  have whole : (blocks.tokensFrom 0).toArray.size = blocks.size := by simp
  have inside {i : Nat} {token : Token} (at_ : (blocks.tokensFrom 0).toArray[i]? = some token)
      : i < 0 + blocks.size := by
    have := (Array.getElem?_eq_some_iff.1 at_).1
    omega
  refine ⟨?_, ?_, ?_, ?_⟩
  · intro index path binding body position starts
    obtain ⟨_, _, rfl, bound, stop, ends⟩ :=
      stands.exists_body (Nat.zero_le _) (inside starts) starts
    exact ⟨rfl, by simp only; omega, by simp only; omega, stop, ends⟩
  · intro index start position ends
    exact stands.exists_start (Nat.zero_le _) (inside ends) ends
  · intro index index' path path' binding binding' body body' position position' starts starts'
    rcases Nat.lt_trichotomy index index' with before | rfl | behind
    · exact (stands.nested whole starts starts' before).imp_right .inl
    · rw [starts] at starts'
      cases starts'
      exact .inr (.inl ⟨Nat.le_refl _, Nat.le_refl _⟩)
    · rcases stands.nested whole starts' starts behind with disjoint | contains
      · exact .inl disjoint.symm
      · exact .inr (.inr contains)
  · intro index path binding body position starts
    obtain ⟨_, bodyAt, rfl, _⟩ := stands.exists_body (Nat.zero_le _) (inside starts) starts
    exact bodyAt.balanced

end Blocks

/-- Tokenizing never meets the index of an open loop without a loop start there, and the loops of
the tokens nest.
-/
theorem loopsNest_of_tokenize (text : String)
    : tokenizeChecked text = (tokenize text).mapError .text
      ∧ ∀ tokens, tokenize text = .ok tokens → LoopsNest tokens := by
  refine ⟨tokenizeChecked_eq text, fun tokens tokenized => ?_⟩
  obtain ⟨blocks, _, rfl⟩ := Nest.tokenize_eq_ok_iff.1 tokenized
  exact blocks.loopsNest_tokensFrom

/-- A loop that holds another loop and a literal. -/
theorem loopsNest_of_tokenize_inner
    : let text :=
        "\x7b\x7beach a|x|\x7d\x7d\x7b\x7beach x|y|\x7d\x7d\x7b\x7b/each\x7d\x7d-\x7b\x7b/each\x7d\x7d"
      let tokens : Array Token :=
        #[.loopStart ["a"] "x" ⟨1, 4⟩ ⟨0, 1, 1⟩, .loopStart ["x"] "y" ⟨2, 2⟩ ⟨13, 1, 14⟩,
          .loopEnd 1 ⟨26, 1, 27⟩, .literal "-" ⟨35, 1, 36⟩, .loopEnd 0 ⟨36, 1, 37⟩]
      tokenize text = .ok tokens
        ∧ tokenizeChecked text = .ok tokens
        ∧ LoopsNest tokens := by
  intro text tokens
  have tokenized : tokenize text = .ok tokens := by cbv
  obtain ⟨checked, nest⟩ := loopsNest_of_tokenize text
  rw [tokenized] at checked
  exact ⟨tokenized, checked, nest tokens tokenized⟩

end Stencil.Template
