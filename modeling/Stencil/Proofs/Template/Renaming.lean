import Stencil.Proofs.Template.RenamedBlocks

/-! A loop variable may be renamed. The tokens that take the new name are those whose innermost
loop over the old one is the loop itself; they are the tokens of the blocks with the new name, so the
scope that is read off the tokens is the one that an evaluation has.
-/

namespace Stencil.Template

/-- The loop start with another variable; any other token unchanged. -/
def Token.bindAs (new : String) : Token → Token
  | loopStart path _ body position => loopStart path new body position
  | token => token

/-- The token with a new name at the head of its path in the place of an old one. -/
def Token.renameHead (old new : String) : Token → Token
  | literal text position => literal text position
  | escaped text position => escaped text position
  | placeholder path position => placeholder (Template.renameHead old new path) position
  | loopStart path binding body position =>
    loopStart (Template.renameHead old new path) binding body position
  | loopEnd start position => loopEnd start position

/-- A loop over the name starts at `start` and has the index in its body. -/
def Encloses (tokens : Array Token) (name : String) (start index : Nat) : Prop :=
  match tokens[start]? with
  | some (.loopStart _ binding body _) => binding = name ∧ body.start ≤ index ∧ index < body.stop
  | _ => False

instance (tokens : Array Token) (name : String) (start index : Nat)
    : Decidable (Encloses tokens name start index) := by
  unfold Encloses
  split <;> infer_instance

/-- The innermost loop over the name around the index starts at `start`. -/
def IsInnermost (tokens : Array Token) (name : String) (start index : Nat) : Prop :=
  Encloses tokens name start index
  ∧ ∀ later, later < index → start < later → ¬ Encloses tokens name later index

instance (tokens : Array Token) (name : String) (start index : Nat)
    : Decidable (IsInnermost tokens name start index) :=
  inferInstanceAs (Decidable (_ ∧ _))

/-- The tokens with a new name for the variable of the loop that starts at `start`: in its start,
and at the head of the paths whose innermost loop over the old name it is.
-/
def renameVariable (tokens : Array Token) (start : Nat) (old new : String) : Array Token :=
  tokens.mapIdx fun index token =>
    if index = start then token.bindAs new
    else if IsInnermost tokens old start index then token.renameHead old new
    else token

/-- The same text, or errors that differ at most in the name at the head of their paths. -/
inductive RendersAlike (old new : String) : Except Stop String → Except Stop String → Prop
  | ok (text : String) : RendersAlike old new (.ok text) (.ok text)
  | error {cause cause' : Error} (renamed : RenamedError old new cause cause')
    : RendersAlike old new (.error (.error cause)) (.error (.error cause'))

variable {tokens : Array Token} {old new : String}

-----------------------------------------------------------------------------------------
-- The loops around an index
-----------------------------------------------------------------------------------------

theorem encloses_iff {name : String} {start index : Nat}
    : Encloses tokens name start index
      ↔ ∃ path body position,
          tokens[start]? = some (.loopStart path name body position)
          ∧ body.start ≤ index
          ∧ index < body.stop := by
  unfold Encloses
  constructor
  · intro h
    split at h
    · rename_i path binding body position starts
      obtain ⟨rfl, inside⟩ := h
      exact ⟨path, body, position, starts, inside⟩
    · exact h.elim
  · rintro ⟨path, body, position, starts, inside⟩
    simp only [starts]
    exact ⟨trivial, inside⟩

/-- A loop that starts among the tokens of blocks has no index behind them in its body. -/
theorem Blocks.At.not_encloses {name : String} {blocks : Blocks} {first start index : Nat}
    (h : blocks.At tokens first) (least : first ≤ start) (most : start < first + blocks.size)
    (behind : first + blocks.size ≤ index)
    : ¬ Encloses tokens name start index := by
  intro encloses
  obtain ⟨path, body, position, starts, _, inside⟩ := encloses_iff.1 encloses
  have bound := (h.bounds least most starts).2
  omega

/-- A token that is no loop start over the name has no index in a body. -/
theorem not_encloses_of_binding? {name : String} {start index : Nat} {token : Token}
    (h : tokens[start]? = some token) (other : token.binding? ≠ some name)
    : ¬ Encloses tokens name start index := by
  intro encloses
  obtain ⟨path, body, position, starts, _⟩ := encloses_iff.1 encloses
  rw [h] at starts
  cases starts
  exact other rfl

/-- A number of indexes in the body of the loop over the name that starts at `start`, with no loop
over the name around them that starts between the two.
-/
structure DirectlyIn (tokens : Array Token) (name : String) (start first size : Nat) : Prop where
  before : start < first
  inside : ∀ index, first ≤ index → index < first + size → Encloses tokens name start index
  direct : ∀ index, first ≤ index → index < first + size →
    ∀ between, start < between → between < first → ¬ Encloses tokens name between index

theorem DirectlyIn.innermost {name : String} {start first size : Nat}
    (h : DirectlyIn tokens name start first size) (positive : 0 < size)
    : IsInnermost tokens name start first := by
  refine ⟨h.inside first (Nat.le_refl first) (by omega), fun between less more => ?_⟩
  exact h.direct first (Nat.le_refl first) (by omega) between more less

/-- Some of the indexes, where none of those before them starts a loop over the name around them. -/
theorem DirectlyIn.later {name : String} {start first size first' size' : Nat}
    (h : DirectlyIn tokens name start first size) (least : first ≤ first')
    (most : first' + size' ≤ first + size)
    (passed : ∀ between, first ≤ between → between < first' →
      ∀ index, first' ≤ index → index < first' + size' → ¬ Encloses tokens name between index)
    : DirectlyIn tokens name start first' size' := by
  refine ⟨Nat.lt_of_lt_of_le h.before least, fun index least' most' => ?_, ?_⟩
  · exact h.inside index (by omega) (by omega)
  · intro index least' most' between more less
    rcases Nat.lt_or_ge between first with less' | among
    · exact h.direct index (by omega) (by omega) between more less'
    · exact passed between among less index least' most'

-----------------------------------------------------------------------------------------
-- The tokens under the new name
-----------------------------------------------------------------------------------------

section

variable {start index : Nat} {token : Token}

theorem getElem?_renameVariable_start (h : tokens[start]? = some token)
    : (renameVariable tokens start old new)[start]? = some (token.bindAs new) := by
  simp [renameVariable, h]

theorem getElem?_renameVariable_inside (h : tokens[index]? = some token) (other : index ≠ start)
    (innermost : IsInnermost tokens old start index)
    : (renameVariable tokens start old new)[index]? = some (token.renameHead old new) := by
  simp [renameVariable, h, other, innermost]

theorem getElem?_renameVariable_outside (other : index ≠ start)
    (outer : ¬ IsInnermost tokens old start index)
    : (renameVariable tokens start old new)[index]? = tokens[index]? := by
  cases h : tokens[index]? with
  | none => simp [renameVariable, h]
  | some token => simp [renameVariable, h, other, outer]

/-- A loop end is a loop end under any names. -/
theorem getElem?_renameVariable_loopEnd {opened : Nat} {position : Position}
    (h : tokens[index]? = some (.loopEnd opened position))
    : (renameVariable tokens start old new)[index]? = some (.loopEnd opened position) := by
  by_cases here : index = start
  · subst here
    exact getElem?_renameVariable_start h
  · by_cases innermost : IsInnermost tokens old start index
    · exact getElem?_renameVariable_inside h here innermost
    · rw [getElem?_renameVariable_outside here innermost, h]

end

namespace Blocks

/-- Blocks stand in all tokens that are the same at their indexes, by induction over the blocks. -/
theorem At.congr {tokens' : Array Token} {blocks : Blocks} {first : Nat}
    (h : blocks.At tokens first)
    (same : ∀ index, first ≤ index → index < first + blocks.size → tokens'[index]? = tokens[index]?)
    : blocks.At tokens' first := by
  induction blocks generalizing first with
  | done => trivial
  | leaf head rest ih =>
      simp only [size] at same
      refine ⟨(same first (by omega) (by omega)).trans h.1, ih h.2 ?_⟩
      intro index least most
      exact same index (by omega) (by omega)
  | loop path binding position body stop rest bodyIH ih =>
      obtain ⟨starts, inside, ends, after⟩ := h
      simp only [size] at same
      refine ⟨(same _ (by omega) (by omega)).trans starts, bodyIH inside ?_,
        (same _ (by omega) (by omega)).trans ends, ih after ?_⟩
      · intro index least most
        exact same index (by omega) (by omega)
      · intro index least most
        exact same index (by omega) (by omega)

/-- In the body of a loop, blocks stand with the new name in the tokens with the new name if no loop
over the old name between the two is around them. By induction over the blocks: in the body of a
loop over the old name the tokens are the same as before.
-/
theorem At.renameFree {blocks : Blocks} {first start : Nat} (h : blocks.At tokens first)
    (inBody : DirectlyIn tokens old start first blocks.size)
    : (blocks.renameFree old new).At (renameVariable tokens start old new) first := by
  have before := inBody.before
  induction blocks generalizing first with
  | done => trivial
  | leaf head rest ih =>
      obtain ⟨here, later⟩ := h
      simp only [size] at inBody
      have renamed : (renameVariable tokens start old new)[first]?
          = some (head.token.renameHead old new) :=
        getElem?_renameVariable_inside here (by omega) (inBody.innermost (by omega))
      refine ⟨?_, ih later (inBody.later (by omega) (by omega) ?_) (by omega)⟩
      · rw [renamed]
        cases head <;> rfl
      · intro between least less index _ _
        obtain rfl : between = first := by omega
        exact not_encloses_of_binding? here (by cases head <;> nofun)
  | loop path binding position body stop rest bodyIH ih =>
      have whole : (loop path binding position body stop .done).At tokens first :=
        ⟨h.1, h.2.1, h.2.2.1, trivial⟩
      obtain ⟨starts, inner, ends, after⟩ := h
      simp only [size] at inBody
      have renamed : (renameVariable tokens start old new)[first]?
          = some (.loopStart (Template.renameHead old new path) binding
              ⟨first + 1, first + 1 + body.size⟩ position) :=
        getElem?_renameVariable_inside starts (by omega) (inBody.innermost (by omega))
      have size_eq : (if binding = old then body else body.renameFree old new).size = body.size := by
        split <;> simp
      refine ⟨?_, ?_, ?_, ?_⟩
      · rw [renamed, size_eq]
      · split
        · rename_i rebinds
          refine inner.congr fun index least most => ?_
          refine getElem?_renameVariable_outside (by omega) fun innermost => ?_
          refine innermost.2 first (by omega) before (encloses_iff.2 ?_)
          exact ⟨path, _, position, rebinds ▸ starts, least, most⟩
        · rename_i other
          refine bodyIH inner (inBody.later (by omega) (by omega) ?_) (by omega)
          intro between least less index _ _
          obtain rfl : between = first := by omega
          exact not_encloses_of_binding? starts fun same => other (Option.some.inj same)
      · rw [size_eq]
        exact getElem?_renameVariable_loopEnd ends
      · rw [size_eq]
        refine ih after (inBody.later (by omega) (by omega) ?_) (by omega)
        intro between least less index least' _
        exact whole.not_encloses least (by simpa only [size] using by omega)
          (by simpa only [size] using by omega)

/-- Outside the body of a loop it is not the innermost one. -/
theorem not_isInnermost_outside (nest : LoopsNest tokens) {start index : Nat} {path : Path}
    {span : Span} {position : Position}
    (opens : tokens[start]? = some (.loopStart path old span position))
    (outside : index ≤ start ∨ span.stop < index)
    : ¬ IsInnermost tokens old start index := by
  intro innermost
  have opened := nest.startsPoint opens
  obtain ⟨path, body, position, starts, within⟩ := encloses_iff.1 innermost.1
  rw [opens] at starts
  cases starts
  omega

/-- What stands behind a loop is outside the body of another one if the loop is: the other one starts
in front of it, in it or behind it, and ends where it does if it starts in it.
-/
theorem At.outside_rest {first start : Nat} {path path' : Path} {name binding : String} {span : Span}
    {position position' : Position} {body : Blocks} {stop : Position}
    (whole : (loop path' binding position' body stop .done).At tokens first)
    (opens : tokens[start]? = some (.loopStart path name span position))
    (outside : first ≤ start ∨ span.stop < first)
    : first + body.size + 2 ≤ start ∨ span.stop < first + body.size + 2 := by
  rcases outside with least | passed
  · by_cases among : start < first + body.size + 2
    · have bound := (whole.bounds least (by simp only [size]; omega) opens).2
      simp only [size] at bound
      omega
    · exact .inl (by omega)
  · exact .inr (by omega)

/-- Around the body of the loop, blocks stand with the loop renamed in the tokens with the new name,
by induction over the blocks.
-/
theorem At.renameLoop (nest : LoopsNest tokens) {start : Nat} {path : Path} {span : Span}
    {position : Position} (opens : tokens[start]? = some (.loopStart path old span position))
    {blocks : Blocks} {first : Nat} (h : blocks.At tokens first)
    (outside : first ≤ start ∨ span.stop < first)
    : (blocks.renameLoop start new first).At (renameVariable tokens start old new) first := by
  have opened := nest.startsPoint opens
  induction blocks generalizing first with
  | done => trivial
  | leaf head rest ih =>
      obtain ⟨here, later⟩ := h
      have other : first ≠ start := by
        rintro rfl
        rw [here] at opens
        cases head <;> cases opens
      refine ⟨?_, ih later (by omega)⟩
      rw [getElem?_renameVariable_outside other (not_isInnermost_outside nest opens outside), here]
  | loop path' binding position' body stop rest bodyIH ih =>
      have whole : (loop path' binding position' body stop .done).At tokens first :=
        ⟨h.1, h.2.1, h.2.2.1, trivial⟩
      obtain ⟨starts, inBody, ends, after⟩ := h
      have behind := whole.outside_rest opens outside
      simp only [Blocks.renameLoop]
      split
      · rename_i here
        subst here
        rw [starts] at opens
        cases opens
        refine ⟨?_, inBody.renameFree ⟨by omega, ?_, by omega⟩, ?_, ?_⟩
        · rw [getElem?_renameVariable_start starts, size_renameFree]
          rfl
        · intro index least most
          exact encloses_iff.2 ⟨path, _, position, starts, least, most⟩
        · rw [size_renameFree]
          exact getElem?_renameVariable_loopEnd ends
        · rw [size_renameFree]
          exact ih after behind
      · rename_i other
        have within : first + 1 ≤ start ∨ span.stop < first + 1 := by omega
        refine ⟨?_, bodyIH inBody within, ?_, ?_⟩
        · rw [getElem?_renameVariable_outside other (not_isInnermost_outside nest opens outside),
            starts, size_renameLoop]
        · rw [size_renameLoop]
          exact getElem?_renameVariable_loopEnd ends
        · rw [size_renameLoop]
          exact ih after behind

/-- Blocks that stand at all tokens are written out as them. -/
theorem At.tokens_eq {blocks : Blocks} (h : blocks.At tokens 0) (whole : tokens.size = blocks.size)
    : tokens = (blocks.tokensFrom 0).toArray := by
  have all := h.take_drop
  rw [List.drop_zero, ← whole, ← Array.length_toList, List.take_length] at all
  rw [← all, Array.toArray_toList]

/-- Blocks lack a name that none of their tokens has, by induction over the blocks. -/
theorem lacks_of_tokensFrom {name : String} {blocks : Blocks} {first : Nat}
    (unused : ∀ token ∈ blocks.tokensFrom first,
      token.head? ≠ some name ∧ token.binding? ≠ some name)
    : blocks.Lacks name := by
  induction blocks generalizing first with
  | done => trivial
  | leaf head rest ih =>
      simp only [tokensFrom, List.forall_mem_cons] at unused
      exact ⟨unused.1.1, ih unused.2⟩
  | loop path binding start body stop rest bodyIH ih =>
      simp only [tokensFrom, List.forall_mem_cons, List.forall_mem_append] at unused
      obtain ⟨⟨notHead, notBinding⟩, inBody, _, inRest⟩ := unused
      exact ⟨notHead, fun isName => notBinding (congrArg some isName), bodyIH inBody, ih inRest⟩

end Blocks

-----------------------------------------------------------------------------------------
-- Renderings
-----------------------------------------------------------------------------------------

/-- Evaluations that are the same up to names in errors are rendered alike: they visit the same
tokens, so they run out of steps at the same one.
-/
theorem rendersAlike_of_visit {blocks blocks' : Blocks} {root : Table}
    (same : Visit.SameUpTo old new (blocks.visit root) (blocks'.visit root)) (budget : Nat)
    : RendersAlike old new (renderTokens (blocks.tokensFrom 0).toArray root budget)
        (renderTokens (blocks'.tokensFrom 0).toArray root budget) := by
  rw [renderTokens_tokensFrom, renderTokens_tokensFrom, ← same.visited]
  split
  · exact .error (.same _)
  · have outcome := same.outcome
    generalize (blocks.visit root).outcome = first at outcome
    generalize (blocks'.visit root).outcome = second at outcome
    cases outcome with
    | ok text => exact .ok text
    | error renamed => exact .error renamed

/-- Renaming the variable of a loop does not change what is rendered. The loop may hold loops over
the same name, and the root may have entries under both names; errors differ at most in the name at
the head of their paths.
-/
theorem rendersAlike_renameVariable {text : String} {tokens : Array Token}
    (tokenized : tokenize text = .ok tokens) {start : Nat} {path : Path} {binding : String}
    {body : Span} {position : Position}
    (opens : tokens[start]? = some (.loopStart path binding body position)) {fresh : String}
    (unused : ∀ token ∈ tokens, token.head? ≠ some fresh ∧ token.binding? ≠ some fresh)
    (root : Table) (budget : Nat)
    : RendersAlike binding fresh (renderTokens tokens root budget)
        (renderTokens (renameVariable tokens start binding fresh) root budget) := by
  have nest := (loopsNest_of_tokenize text).2 tokens tokenized
  obtain ⟨blocks, _, rfl⟩ := Nest.tokenize_eq_ok_iff.1 tokenized
  have stands := blocks.at_tokensFrom
  have lacks : blocks.Lacks fresh :=
    Blocks.lacks_of_tokensFrom fun token among => unused token (List.mem_toArray.2 among)
  have renamed : (blocks.renameLoop start fresh 0).At
      (renameVariable (blocks.tokensFrom 0).toArray start binding fresh) 0 :=
    stands.renameLoop nest opens (.inl (Nat.zero_le start))
  have tokens_eq := renamed.tokens_eq (by simp [renameVariable])
  rw [tokens_eq]
  refine rendersAlike_of_visit (Blocks.visit_renameLoop stands lacks ?_ root) budget
  intro path' binding' body' position' opens'
  rw [opens] at opens'
  cases opens'
  rfl

/-- The variable `x` of an outer loop is renamed to `y`, a key of the root. The inner loop has `x` as
its variable too: its source takes the new name and its body does not. An item without the member `a`
is an error under either name.
-/
theorem rendersAlike_renameVariable_rebound
    : let text :=
        "\x7b\x7beach xs|x|\x7d\x7d\x7b\x7bx.a\x7d\x7d\x7b\x7beach x.ys|x|\x7d\x7d\x7b\x7bx\x7d\x7d"
          ++ "\x7b\x7b/each\x7d\x7d\x7b\x7b/each\x7d\x7d"
      let tokens : Array Token :=
        #[.loopStart ["xs"] "x" ⟨1, 5⟩ ⟨0, 1, 1⟩, .placeholder ["x", "a"] ⟨14, 1, 15⟩,
          .loopStart ["x", "ys"] "x" ⟨3, 4⟩ ⟨21, 1, 22⟩, .placeholder ["x"] ⟨37, 1, 38⟩,
          .loopEnd 2 ⟨42, 1, 43⟩, .loopEnd 0 ⟨51, 1, 52⟩]
      let renamed : Array Token :=
        #[.loopStart ["xs"] "y" ⟨1, 5⟩ ⟨0, 1, 1⟩, .placeholder ["y", "a"] ⟨14, 1, 15⟩,
          .loopStart ["y", "ys"] "x" ⟨3, 4⟩ ⟨21, 1, 22⟩, .placeholder ["x"] ⟨37, 1, 38⟩,
          .loopEnd 2 ⟨42, 1, 43⟩, .loopEnd 0 ⟨51, 1, 52⟩]
      let letter (text : String) : Value := .scalar (.string text)
      let whole : Value := .table [("a", letter "p"), ("ys", .list [letter "q", letter "r"])]
      let root (item : Value) : Table := [("y", letter "z"), ("xs", .list [item])]
      tokenize text = .ok tokens
        ∧ renameVariable tokens 0 "x" "y" = renamed
        ∧ (∀ item budget,
            RendersAlike "x" "y" (renderTokens tokens (root item) budget)
              (renderTokens renamed (root item) budget))
        ∧ renderTokens renamed (root whole) 8 = .ok "pqr"
        ∧ renderTokens tokens (root (.table [])) 8
          = .error (.error (.unknownKey "x.a" (some ⟨14, 1, 15⟩)))
        ∧ renderTokens renamed (root (.table [])) 8
          = .error (.error (.unknownKey "y.a" (some ⟨14, 1, 15⟩))) := by
  intro text tokens renamed letter whole root
  have tokenized : tokenize text = .ok tokens := by cbv
  have replaced : renameVariable tokens 0 "x" "y" = renamed := by decide +kernel
  refine ⟨tokenized, replaced, fun item budget => ?_, by cbv, by cbv, by cbv⟩
  rw [← replaced]
  exact rendersAlike_renameVariable tokenized rfl (by decide) (root item) budget

end Stencil.Template
