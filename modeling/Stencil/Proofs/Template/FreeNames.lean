import Stencil.Proofs.Template.BlockRuns
import Stencil.Proofs.Template.LoopSpans

/-! The names that a template takes from the root: those at the head of a path that is in the body
of no loop over the name. What the root holds under any other name has no part in a rendering.
-/

namespace Stencil.Template

/-- The name that is looked up first for a token. -/
def Token.head? : Token → Option String
  | literal _ _ => none
  | escaped _ _ => none
  | placeholder path _ => path.head?
  | loopStart path _ _ _ => path.head?
  | loopEnd _ _ => none

/-- An index is in the body of a loop that starts at one of the indexes from `first` up to `stop`
and has the name as its variable.
-/
def IsBound (tokens : Array Token) (first stop index : Nat) (name : String) : Prop :=
  ∃ start path body position,
    first ≤ start
    ∧ start < stop
    ∧ tokens[start]? = some (.loopStart path name body position)
    ∧ body.start ≤ index
    ∧ index < body.stop

/-- One of the tokens from `first` up to `stop` looks a name up that is no variable of a loop
around it, of those that start there as well.
-/
def IsFreeIn (tokens : Array Token) (first stop : Nat) (name : String) : Prop :=
  ∃ index token,
    first ≤ index
    ∧ index < stop
    ∧ tokens[index]? = some token
    ∧ token.head? = some name
    ∧ ¬ IsBound tokens first stop index name

/-- A name is free in a sequence of tokens. -/
def IsFree (tokens : Array Token) (name : String) : Prop := IsFreeIn tokens 0 tokens.size name

/-- A name that is free in a part of some tokens is free in these, if loops that start in front of
the part or behind it bind nothing in it.
-/
theorem IsFreeIn.widen {tokens : Array Token} {name : String} {first stop first' stop' : Nat}
    (h : IsFreeIn tokens first stop name) (least : first' ≤ first) (most : stop ≤ stop')
    (inner : ∀ index, first ≤ index → index < stop → IsBound tokens first' stop' index name →
      IsBound tokens first stop index name)
    : IsFreeIn tokens first' stop' name := by
  obtain ⟨index, token, least', most', at_, isHead, unbound⟩ := h
  exact ⟨index, token, by omega, by omega, at_, isHead, mt (inner index least' most') unbound⟩

namespace Blocks

variable {tokens : Array Token} {name : String}

/-- Blocks look a name up that none of their loops around the place has as its variable. -/
def Reads (name : String) : Blocks → Prop
  | done => False
  | leaf first rest => first.token.head? = some name ∨ rest.Reads name
  | loop path binding _ body _ rest =>
    path.head? = some name ∨ (binding ≠ name ∧ body.Reads name) ∨ rest.Reads name

-----------------------------------------------------------------------------------------
-- Evaluation
-----------------------------------------------------------------------------------------

theorem valueAt_congr {entries entries' : Table} {path : Path}
    (agree : ∀ name, path.head? = some name → entries.lookup name = entries'.lookup name)
    : valueAt entries path = valueAt entries' path := by
  cases path with
  | nil => rfl
  | cons head rest =>
      have same := agree head rfl
      simp only [valueAt, List.foldlM_cons, Value.member?, same]

theorem scalarAt_congr {entries entries' : Table} {path : Path} (position : Position)
    (agree : ∀ name, path.head? = some name → entries.lookup name = entries'.lookup name)
    : scalarAt entries path position = scalarAt entries' path position := by
  rw [scalarAt, scalarAt, valueAt_congr agree]

theorem itemsAt_congr {entries entries' : Table} {path : Path} (position : Position)
    (agree : ∀ name, path.head? = some name → entries.lookup name = entries'.lookup name)
    : itemsAt entries path position = itemsAt entries' path position := by
  rw [itemsAt, itemsAt, valueAt_congr agree]

/-- Blocks are evaluated the same against entries that agree on the names that they read. By
induction over the blocks: in the body of a loop both sides have the item under its variable.
-/
theorem visit_congr {blocks : Blocks} {entries entries' : Table}
    (agree : ∀ name, blocks.Reads name → entries.lookup name = entries'.lookup name)
    : blocks.visit entries = blocks.visit entries' := by
  induction blocks generalizing entries entries' with
  | done => rfl
  | leaf first rest ih =>
      have here : first.visit entries = first.visit entries' := by
        cases first with
        | literal text position => rfl
        | escaped text position => rfl
        | placeholder path position =>
            simp only [Leaf.visit]
            rw [scalarAt_congr position fun name isHead => agree name (.inl isHead)]
      have later := ih fun name reads => agree name (.inr reads)
      rw [visit, visit, here, later]
  | loop path binding start body stop rest bodyIH ih =>
      have items := itemsAt_congr start fun name isHead => agree name (.inl isHead)
      have later := ih fun name reads => agree name (.inr (.inr reads))
      have inside (item : Value)
          : body.visit ((binding, item) :: entries) = body.visit ((binding, item) :: entries') := by
        apply bodyIH
        intro name reads
        rw [List.lookup_cons, List.lookup_cons]
        split
        · rfl
        · rename_i other
          refine agree name (.inr (.inl ⟨?_, reads⟩))
          rintro rfl
          simp at other
      simp only [visit, items, inside, later]

-----------------------------------------------------------------------------------------
-- The tokens of blocks
-----------------------------------------------------------------------------------------

/-- A loop that starts among the tokens of blocks has its body behind its start, and ends among
them.
-/
theorem At.bounds {blocks : Blocks} {first start : Nat} {path : Path} {binding : String}
    {body : Span} {position : Position} (h : blocks.At tokens first) (least : first ≤ start)
    (most : start < first + blocks.size)
    (starts : tokens[start]? = some (.loopStart path binding body position))
    : body.start = start + 1 ∧ body.stop < first + blocks.size := by
  obtain ⟨_, _, rfl, bound, _⟩ := h.exists_body least most starts
  exact ⟨rfl, bound⟩

/-- An index among the tokens of blocks is in the body of no loop that starts behind the index. -/
theorem At.start_lt {blocks : Blocks} {first start index : Nat} {path : Path} {binding : String}
    {body : Span} {position : Position} (h : blocks.At tokens first) (least : first ≤ start)
    (most : start < first + blocks.size)
    (starts : tokens[start]? = some (.loopStart path binding body position))
    (inside : body.start ≤ index)
    : start < index := by
  have behind := (h.bounds least most starts).1
  omega

/-- A name at the head of the first of the tokens of blocks is free in them. -/
theorem At.isFreeIn_head {blocks : Blocks} {first : Nat} {token : Token}
    (h : blocks.At tokens first) (nonempty : 0 < blocks.size) (here : tokens[first]? = some token)
    (isHead : token.head? = some name)
    : IsFreeIn tokens first (first + blocks.size) name := by
  refine ⟨first, token, Nat.le_refl _, by omega, here, isHead, ?_⟩
  rintro ⟨start, path, body, position, least, most, starts, inside, _⟩
  have before := h.start_lt least most starts inside
  omega

/-- A name that blocks read is free in their tokens, by induction over the blocks. -/
theorem At.isFreeIn {blocks : Blocks} {first : Nat} (h : blocks.At tokens first)
    (reads : blocks.Reads name)
    : IsFreeIn tokens first (first + blocks.size) name := by
  have whole := h
  induction blocks generalizing first with
  | done => exact reads.elim
  | leaf head rest ih =>
      obtain ⟨here, later⟩ := h
      rcases reads with isHead | reads
      · exact whole.isFreeIn_head (by simp only [size]; omega) here isHead
      · refine (ih later reads later).widen (by omega) (by simp only [size]; omega) ?_
        rintro index _ _ ⟨start, path, body, position, least, most, starts, inside⟩
        simp only [size] at most
        rcases Nat.eq_or_lt_of_le least with rfl | behind
        · rw [here] at starts
          cases head <;> cases starts
        · exact ⟨start, path, body, position, behind, by omega, starts, inside⟩
  | loop path binding startPosition body stop rest bodyIH ih =>
      obtain ⟨starts, inside, ends, after⟩ := h
      rcases reads with isHead | ⟨other, reads⟩ | reads
      · exact whole.isFreeIn_head (by simp only [size]; omega) starts isHead
      · refine (bodyIH inside reads inside).widen (by omega) (by simp only [size]; omega) ?_
        rintro index _ _ ⟨start, path', body', position, least, most, starts', inBody⟩
        have before := whole.start_lt least most starts' inBody.1
        rcases Nat.eq_or_lt_of_le least with rfl | behind
        · rw [starts] at starts'
          cases starts'
          exact absurd rfl other
        · exact ⟨start, path', body', position, behind, by omega, starts', inBody⟩
      · refine (ih after reads after).widen (by omega) (by simp only [size]; omega) ?_
        rintro index _ _ ⟨start, path', body', position, least, most, starts', inBody⟩
        simp only [size] at most
        -- A loop that starts before the rest is this one or one in its body, and ends before it.
        rcases Nat.lt_trichotomy start (first + 1 + body.size) with before | rfl | behind
        · rcases Nat.eq_or_lt_of_le least with rfl | within
          · rw [starts] at starts'
            cases starts'
            simp only at inBody
            omega
          · have bound := (inside.bounds within before starts').2
            omega
        · rw [ends] at starts'
          cases starts'
        · exact ⟨start, path', body', position, by omega, by omega, starts', inBody⟩

end Blocks

/-- What the root holds under names that are not free has no part in a rendering: contexts that
agree on the free names give the same text or the same error, and so does a context in which an
entry has been set whose name is not free.
-/
theorem renderTokens_eq_of_agree {text : String} {tokens : Array Token}
    (tokenized : tokenize text = .ok tokens) (budget : Nat)
    : (∀ root root' : Table,
        (∀ name, IsFree tokens name → root.lookup name = root'.lookup name)
        → renderTokens tokens root budget = renderTokens tokens root' budget)
      ∧ ∀ (root : Table) (name : String) (value : Value),
          ¬ IsFree tokens name
          → renderTokens tokens (root.put name value) budget = renderTokens tokens root budget := by
  have key (root root' : Table)
      (agree : ∀ name, IsFree tokens name → root.lookup name = root'.lookup name)
      : renderTokens tokens root budget = renderTokens tokens root' budget := by
    obtain ⟨blocks, _, rfl⟩ := Nest.tokenize_eq_ok_iff.1 tokenized
    have same : blocks.visit root = blocks.visit root' := by
      apply Blocks.visit_congr
      intro name reads
      apply agree
      simpa [IsFree] using blocks.at_tokensFrom.isFreeIn reads
    rw [renderTokens_tokensFrom, renderTokens_tokensFrom, same]
  refine ⟨key, fun root name value unread => key _ _ fun other isFree => ?_⟩
  rw [Table.lookup_put, if_neg]
  rintro rfl
  exact unread isFree

/-- The only free name of a loop over `xs` that writes its variable `x` is `xs`, so an entry `x` of
the root is not read, whatever it holds.
-/
theorem renderTokens_eq_of_agree_shadowed
    : let tokens : Array Token :=
        #[.loopStart ["xs"] "x" ⟨1, 2⟩ ⟨0, 1, 1⟩, .placeholder ["x"] ⟨15, 1, 16⟩,
          .loopEnd 0 ⟨20, 1, 21⟩]
      let root : Table := [("xs", .list [.scalar (.string "a")])]
      tokenize "\x7b\x7beach xs |x|\x7d\x7d\x7b\x7bx\x7d\x7d\x7b\x7b/each\x7d\x7d" = .ok tokens
        ∧ (∀ name, IsFree tokens name → name = "xs")
        ∧ renderTokens tokens (("x", .list []) :: root) 3 = renderTokens tokens root 3
        ∧ renderTokens tokens (root.put "x" (.list [])) 3 = renderTokens tokens root 3 := by
  intro tokens root
  have tokenized
      : tokenize "\x7b\x7beach xs |x|\x7d\x7d\x7b\x7bx\x7d\x7d\x7b\x7b/each\x7d\x7d" = .ok tokens := by
    cbv
  have free : ∀ name, IsFree tokens name → name = "xs" := by
    rintro name ⟨index, token, _, most, at_, isHead, unbound⟩
    rcases index with _ | _ | _ | index
    · cases at_
      exact (Option.some.inj isHead).symm
    · cases at_
      obtain rfl : "x" = name := Option.some.inj isHead
      exact (unbound ⟨0, _, _, _, Nat.le_refl _, by decide, rfl, by decide, by decide⟩).elim
    · cases at_
      cases isHead
    · exact absurd most (Nat.not_lt_of_le (Nat.le_add_left 3 index))
  obtain ⟨agreeing, setting⟩ := renderTokens_eq_of_agree tokenized 3
  refine ⟨tokenized, free, agreeing _ _ fun name isFree => ?_, setting _ _ _ fun isFree => ?_⟩
  · rw [free name isFree]
    rfl
  · exact absurd (free _ isFree) (by decide)

end Stencil.Template
