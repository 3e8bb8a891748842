import Stencil.Proofs.Template.LoopSpans

/-! The loops around a token: those whose body or loop end has its index. They are told by the
indexes alone, from all loops of the template in the order of their starts. From one token to the
next they change at the loop brackets only: a loop is added at the start of its body and taken away
behind its end, and its end has the same loops around it as the start of its body.
-/

namespace Stencil.Template

/-- A loop of a template: its variable, and its body, which stops at the loop end. -/
structure Loop where
  binding : String
  body : Span
  deriving DecidableEq, Repr

namespace Loop

/-- The token with an index is in the body of the loop or is its end. -/
def Surrounds (loop : Loop) (index : Nat) : Prop :=
  loop.body.start ≤ index ∧ index ≤ loop.body.stop

instance (loop : Loop) (index : Nat) : Decidable (loop.Surrounds index) :=
  inferInstanceAs (Decidable (_ ∧ _))

/-- The first loop starts before the other one, which starts behind its end or ends before it. -/
def StartsBefore (first other : Loop) : Prop :=
  first.body.start < other.body.start
  ∧ (first.body.stop + 1 < other.body.start ∨ other.body.stop < first.body.stop)

/-- The other loop is in the body of the first one. -/
def Encloses (first other : Loop) : Prop :=
  first.body.start < other.body.start ∧ other.body.stop < first.body.stop

end Loop

/-- The loop that a token starts. -/
def Token.loop? : Token → Option Loop
  | literal _ _ => none
  | escaped _ _ => none
  | placeholder _ _ => none
  | loopStart _ binding body _ => some ⟨binding, body⟩
  | loopEnd _ _ => none

/-- The loops of a template in the order of their starts. -/
def loopsOf (tokens : List Token) : List Loop := tokens.filterMap Token.loop?

/-- The loops around a token, in the order of their starts. -/
def loopsAround (tokens : Array Token) (index : Nat) : List Loop :=
  (loopsOf tokens.toList).filter (·.Surrounds index)

@[simp] theorem loopsOf_append (first second : List Token)
    : loopsOf (first ++ second) = loopsOf first ++ loopsOf second :=
  List.filterMap_append

-----------------------------------------------------------------------------------------
-- The loops of blocks
-----------------------------------------------------------------------------------------

namespace Blocks

@[simp] theorem loopsOf_leaf (first : Leaf) (tokens : List Token)
    : loopsOf (first.token :: tokens) = loopsOf tokens := by
  cases first <;> rfl

theorem loopsOf_loop (path : Path) (binding : String) (start stop : Position) (body rest : Blocks)
    (index : Nat)
    : loopsOf ((loop path binding start body stop rest).tokensFrom index)
      = ⟨binding, ⟨index + 1, index + 1 + body.size⟩⟩
        :: (loopsOf (body.tokensFrom (index + 1))
          ++ loopsOf (rest.tokensFrom (index + body.size + 2))) := by
  have bracket
      : loopsOf (.loopEnd index stop :: rest.tokensFrom (index + body.size + 2))
        = loopsOf (rest.tokensFrom (index + body.size + 2)) :=
    rfl
  rw [← bracket, ← loopsOf_append]
  rfl

/-- The loops of blocks are at their tokens, by induction over the blocks. -/
theorem bounds_of_mem_loopsOf {blocks : Blocks} {index : Nat} {found : Loop}
    (member : found ∈ loopsOf (blocks.tokensFrom index))
    : index < found.body.start
      ∧ found.body.start ≤ found.body.stop
      ∧ found.body.stop < index + blocks.size := by
  induction blocks generalizing index with
  | done => simp [tokensFrom, loopsOf] at member
  | leaf first rest ih =>
      rw [tokensFrom, loopsOf_leaf] at member
      have bounds := ih member
      rw [size]
      omega
  | loop path binding start body stop rest bodyIH ih =>
      rw [loopsOf_loop, List.mem_cons, List.mem_append] at member
      rw [size]
      rcases member with rfl | inBody | behind
      · simp only
        omega
      · have bounds := bodyIH inBody
        omega
      · have bounds := ih behind
        omega

/-- Of two loops of blocks the one that starts later starts behind the end of the other one, or ends
before it. By induction over the blocks; the loops of a body end in it, and those behind a loop start
there.
-/
theorem pairwise_loopsOf (blocks : Blocks) (index : Nat)
    : (loopsOf (blocks.tokensFrom index)).Pairwise Loop.StartsBefore := by
  induction blocks generalizing index with
  | done => exact .nil
  | leaf first rest ih =>
      rw [tokensFrom, loopsOf_leaf]
      exact ih (index + 1)
  | loop path binding start body stop rest bodyIH ih =>
      rw [loopsOf_loop]
      refine .cons ?_ (List.pairwise_append.2 ⟨bodyIH (index + 1), ih _, ?_⟩)
      · intro other member
        simp only [Loop.StartsBefore]
        rcases List.mem_append.1 member with inBody | behind
        · have bounds := bounds_of_mem_loopsOf inBody
          omega
        · have bounds := bounds_of_mem_loopsOf behind
          omega
      · intro inner inBody other behind
        have bounds := bounds_of_mem_loopsOf inBody
        have bounds' := bounds_of_mem_loopsOf behind
        simp only [Loop.StartsBefore]
        omega

end Blocks

-----------------------------------------------------------------------------------------
-- Loops around neighbouring tokens
-----------------------------------------------------------------------------------------

/-- The loops of a template nest, and they are known in the order of their starts. -/
structure LoopsInOrder (tokens : Array Token) : Prop extends LoopsNest tokens where
  inOrder : (loopsOf tokens.toList).Pairwise Loop.StartsBefore

theorem loopsInOrder_of_tokenize {text : String} {tokens : Array Token}
    (tokenized : tokenize text = .ok tokens)
    : LoopsInOrder tokens := by
  obtain ⟨blocks, _, rfl⟩ := Nest.tokenize_eq_ok_iff.1 tokenized
  exact ⟨blocks.loopsNest_tokensFrom, blocks.pairwise_loopsOf 0⟩

namespace LoopsInOrder

variable {tokens : Array Token} {start index : Nat} {path : Path} {binding : String} {body : Span}
  {position : Position}

/-- The loops around a token enclose each other, the outermost one first: of two loops that do not,
one ends before the other one starts.
-/
theorem enclose (h : LoopsInOrder tokens) (index : Nat)
    : (loopsAround tokens index).Pairwise Loop.Encloses := by
  refine (h.inOrder.filter _).imp_of_mem ?_
  intro first other inFirst inOther before
  have around := of_decide_eq_true (List.mem_filter.1 inFirst).2
  have around' := of_decide_eq_true (List.mem_filter.1 inOther).2
  simp only [Loop.Surrounds, Loop.StartsBefore, Loop.Encloses] at around around' before ⊢
  omega

/-- The loops of a template are those that start before a loop, that loop, and those that start
behind its start.
-/
theorem exists_split (h : LoopsInOrder tokens)
    (starts : tokens[start]? = some (.loopStart path binding body position))
    : ∃ before behind,
        loopsOf tokens.toList = before ++ ⟨binding, body⟩ :: behind
        ∧ (∀ other ∈ before, other.StartsBefore ⟨binding, body⟩)
        ∧ ∀ other ∈ behind, Loop.StartsBefore ⟨binding, body⟩ other := by
  rw [← Array.getElem?_toList] at starts
  obtain ⟨inside, here⟩ := List.getElem?_eq_some_iff.1 starts
  have split : loopsOf tokens.toList
      = loopsOf (tokens.toList.take start)
        ++ ⟨binding, body⟩ :: loopsOf (tokens.toList.drop (start + 1)) := by
    conv_lhs => rw [← List.take_append_drop start tokens.toList, loopsOf_append,
      List.drop_eq_getElem_cons inside, here]
    rfl
  have inOrder := h.inOrder
  rw [split, List.pairwise_append, List.pairwise_cons] at inOrder
  obtain ⟨-, ⟨behind, -⟩, before⟩ := inOrder
  exact ⟨_, _, split, fun other member => before other member _ (List.mem_cons_self ..), behind⟩

/-- The loops around two tokens are the same if each loop is around both or none of them. -/
theorem loopsAround_congr {index index' : Nat}
    (same : ∀ loop ∈ loopsOf tokens.toList, loop.Surrounds index ↔ loop.Surrounds index')
    : loopsAround tokens index = loopsAround tokens index' :=
  List.filter_congr fun loop member => decide_eq_decide.2 (same loop member)

/-- Any other loop is around all or none of these tokens: the start of a loop, the first one of its
body, its end, and the one behind.
-/
theorem surrounds_brackets (h : LoopsInOrder tokens)
    (starts : tokens[start]? = some (.loopStart path binding body position)) {other : Loop}
    (apart : other.StartsBefore ⟨binding, body⟩ ∨ Loop.StartsBefore ⟨binding, body⟩ other)
    : (other.Surrounds body.start ↔ other.Surrounds start)
      ∧ (other.Surrounds body.stop ↔ other.Surrounds start)
      ∧ (other.Surrounds (body.stop + 1) ↔ other.Surrounds start) := by
  obtain ⟨first, inside, -⟩ := h.startsPoint starts
  simp only [Loop.StartsBefore, Loop.Surrounds] at apart ⊢
  omega

theorem eq_or_apart (h : LoopsInOrder tokens)
    (starts : tokens[start]? = some (.loopStart path binding body position)) {other : Loop}
    (member : other ∈ loopsOf tokens.toList)
    : other = ⟨binding, body⟩
      ∨ other.StartsBefore ⟨binding, body⟩ ∨ Loop.StartsBefore ⟨binding, body⟩ other := by
  obtain ⟨before, behind, split, isBefore, isBehind⟩ := h.exists_split starts
  rw [split, List.mem_append, List.mem_cons] at member
  rcases member with earlier | same | later
  · exact .inr (.inl (isBefore other earlier))
  · exact .inl same
  · exact .inr (.inr (isBehind other later))

/-- At the start of its body a loop is around, in addition to the loops around its start. -/
theorem loopsAround_body (h : LoopsInOrder tokens)
    (starts : tokens[start]? = some (.loopStart path binding body position))
    : loopsAround tokens body.start = loopsAround tokens start ++ [⟨binding, body⟩] := by
  obtain ⟨first, inside, -⟩ := h.startsPoint starts
  obtain ⟨before, behind, split, isBefore, isBehind⟩ := h.exists_split starts
  have outer : before.filter (·.Surrounds body.start) = before.filter (·.Surrounds start) :=
    List.filter_congr fun other member =>
      decide_eq_decide.2 (h.surrounds_brackets starts (.inl (isBefore other member))).1
  -- The loops that start behind the loop start also start behind the first token of the body.
  have none {index : Nat} (notAfter : index ≤ body.start)
      : behind.filter (·.Surrounds index) = [] := by
    refine List.filter_eq_nil_iff.2 fun other member around => ?_
    replace around := of_decide_eq_true around
    have := isBehind other member
    simp only [Loop.StartsBefore, Loop.Surrounds] at this around
    omega
  have here : Loop.Surrounds ⟨binding, body⟩ body.start := by
    simp only [Loop.Surrounds]
    omega
  have notYet : ¬ Loop.Surrounds ⟨binding, body⟩ start := by
    simp only [Loop.Surrounds]
    omega
  simp only [loopsAround, split, List.filter_append, List.filter_cons, here, notYet, outer,
    none (Nat.le_refl _), none (show start ≤ body.start by omega), decide_true, decide_false,
    Bool.false_eq_true, if_true, if_false, List.append_nil]

/-- At the end of a loop the same loops are around as at the start of its body. -/
theorem loopsAround_stop (h : LoopsInOrder tokens)
    (starts : tokens[start]? = some (.loopStart path binding body position))
    : loopsAround tokens body.stop = loopsAround tokens body.start := by
  obtain ⟨first, inside, -⟩ := h.startsPoint starts
  refine loopsAround_congr fun other member => ?_
  rcases h.eq_or_apart starts member with rfl | apart
  · simp only [Loop.Surrounds]
    omega
  · have same := h.surrounds_brackets starts apart
    exact same.2.1.trans same.1.symm

/-- Behind the end of a loop the same loops are around as at its start. -/
theorem loopsAround_behind (h : LoopsInOrder tokens)
    (starts : tokens[start]? = some (.loopStart path binding body position))
    : loopsAround tokens (body.stop + 1) = loopsAround tokens start := by
  obtain ⟨first, inside, -⟩ := h.startsPoint starts
  refine loopsAround_congr fun other member => ?_
  rcases h.eq_or_apart starts member with rfl | apart
  · simp only [Loop.Surrounds]
    omega
  · exact (h.surrounds_brackets starts apart).2.2

/-- A loop of a template is at its loop start. -/
theorem exists_start (h : LoopsInOrder tokens) {loop : Loop}
    (member : loop ∈ loopsOf tokens.toList)
    : ∃ start path position stop,
        tokens[start]? = some (.loopStart path loop.binding loop.body position)
        ∧ loop.body.start = start + 1
        ∧ tokens[loop.body.stop]? = some (.loopEnd start stop) := by
  obtain ⟨token, inTokens, isLoop⟩ := List.mem_filterMap.1 member
  obtain ⟨start, starts⟩ := List.mem_iff_getElem?.1 inTokens
  rw [Array.getElem?_toList] at starts
  cases token with
  | literal | escaped | placeholder | loopEnd => cases isLoop
  | loopStart path binding body position =>
      cases isLoop
      obtain ⟨first, -, -, stop, ends⟩ := h.startsPoint starts
      exact ⟨start, path, position, stop, starts, first, ends⟩

/-- Behind a token that is no loop bracket the same loops are around as at it. -/
theorem loopsAround_succ (h : LoopsInOrder tokens) {token : Token}
    (here : tokens[index]? = some token) (isLeaf : token.leaf?.isSome)
    : loopsAround tokens (index + 1) = loopsAround tokens index := by
  refine loopsAround_congr fun loop member => ?_
  obtain ⟨start, path, position, stop, starts, first, ends⟩ := h.exists_start member
  have notStart : start ≠ index := by
    rintro rfl
    rw [starts] at here
    cases here
    cases isLeaf
  have notStop : loop.body.stop ≠ index := by
    rintro rfl
    rw [ends] at here
    cases here
    cases isLeaf
  simp only [Loop.Surrounds]
  omega

end LoopsInOrder

end Stencil.Template
