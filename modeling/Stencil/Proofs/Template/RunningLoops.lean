import Stencil.Proofs.Template.EnclosingLoops
import Stencil.Proofs.Template.RunTraces

/-! The loops that a run is in. Between two tokens the frames of a run are those of the loops around
its next token, each with the items of the list that its path leads to, and every token takes the run
further: the frames with their items and the next token come in a strict order. So a loop end always
meets its own loop, and a run never comes to the same place twice.
-/

namespace Stencil.Template

-----------------------------------------------------------------------------------------
-- Frames and their loops
-----------------------------------------------------------------------------------------

namespace Frame

/-- The loop that runs. -/
def loop (frame : Frame) : Loop := ⟨frame.binding, frame.body⟩

/-- All items of a running loop: those that are done, the current one and those to come. -/
def items (frame : Frame) : List Value := frame.done.reverse ++ frame.current :: frame.coming

/-- The index of the current item. -/
def index (frame : Frame) : Nat := frame.done.length

theorem getElem?_items (frame : Frame) : frame.items[frame.index]? = some frame.current := by
  rw [items, index, List.getElem?_append_right (by simp)]
  simp

theorem index_lt (frame : Frame) : frame.index < frame.items.length :=
  (List.getElem?_eq_some_iff.1 frame.getElem?_items).1

end Frame

/-- Running loops, innermost first. Each one starts at a token, and its items are those of the list
that its path leads to where only the loops around it run.
-/
inductive RunningLoops (tokens : Array Token) (root : Table) : List Frame → Prop
  | none : RunningLoops tokens root []
  | inside {frame : Frame} {outer : List Frame} {start : Nat} {path : Path} {position : Position}
    (around : RunningLoops tokens root outer)
    (starts : tokens[start]? = some (.loopStart path frame.binding frame.body position))
    (list
      : (Scope.mk root (bindingsOf outer)).resolveList path (some position) = .ok frame.items)
    : RunningLoops tokens root (frame :: outer)

namespace Run

variable {tokens : Array Token} {root : Table} {run next later : Run} {token : Token}

/-- The running loops are those around the next token, outermost first. -/
structure InLoops (tokens : Array Token) (root : Table) (run : Run) : Prop where
  around : run.frames.reverse.map Frame.loop = loopsAround tokens run.next
  running : RunningLoops tokens root run.frames

theorem inLoops_initial (order : LoopsInOrder tokens) : InLoops tokens root initial := by
  refine ⟨?_, .none⟩
  refine (List.filter_eq_nil_iff.2 fun loop member around => ?_).symm
  obtain ⟨start, _, _, _, _, first, _⟩ := order.exists_start member
  have := (of_decide_eq_true around).1
  simp only [initial] at this
  omega

/-- A loop end meets its own loop, which is the innermost one that runs. -/
theorem InLoops.exists_frame (h : InLoops tokens root run) (order : LoopsInOrder tokens)
    {start : Nat} {position : Position}
    (ends : tokens[run.next]? = some (.loopEnd start position))
    : ∃ frame outer path startPosition,
        run.frames = frame :: outer
        ∧ tokens[start]? = some (.loopStart path frame.binding frame.body startPosition)
        ∧ frame.body.stop = run.next := by
  obtain ⟨path, binding, body, startPosition, starts, stop⟩ := order.endsPoint ends
  have around := h.around
  rw [← stop, order.loopsAround_stop starts, order.loopsAround_body starts] at around
  cases frames : run.frames with
  | nil => simp [frames] at around
  | cons frame outer =>
      rw [frames, List.reverse_cons, List.map_append] at around
      obtain ⟨-, innermost⟩ := List.append_inj' around rfl
      have same : frame.loop = ⟨binding, body⟩ := (List.cons.inj innermost).1
      obtain ⟨rfl, rfl⟩ := Loop.mk.inj same
      exact ⟨frame, outer, path, startPosition, rfl, starts, stop⟩

-----------------------------------------------------------------------------------------
-- One token
-----------------------------------------------------------------------------------------

/-- What processing a token does to the next token and to the running loops: it writes, passes a loop
without items, enters a loop, or at the end of the innermost loop takes its next item or leaves it.
-/
inductive Moves (tokens : Array Token) (root : Table) (run : Run) : Run → Prop
  | write {token : Token} (here : tokens[run.next]? = some token) (isLeaf : token.leaf?.isSome)
    (chunk : String)
    : Moves tokens root run (run.write chunk)
  | pass {path : Path} {binding : String} {body : Span} {position : Position}
    (starts : tokens[run.next]? = some (.loopStart path binding body position))
    : Moves tokens root run { run with next := body.stop + 1 }
  | enter {path : Path} {binding : String} {body : Span} {position : Position} {first : Value}
    {coming : List Value}
    (starts : tokens[run.next]? = some (.loopStart path binding body position))
    (list : (run.scope root).resolveList path (some position) = .ok (first :: coming))
    : Moves tokens root run
        { run with
          next := body.start
          frames := ⟨binding, body, [], first, coming⟩ :: run.frames }
  | again {start : Nat} {path : Path} {position : Position} {frame : Frame} {outer : List Frame}
    {item : Value} {coming : List Value} (innermost : run.frames = frame :: outer)
    (starts : tokens[start]? = some (.loopStart path frame.binding frame.body position))
    (stop : frame.body.stop = run.next) (more : frame.coming = item :: coming)
    : Moves tokens root run
        { run with
          next := frame.body.start
          frames :=
            { frame with done := frame.current :: frame.done, current := item, coming } :: outer }
  | leave {start : Nat} {path : Path} {position : Position} {frame : Frame} {outer : List Frame}
    (innermost : run.frames = frame :: outer)
    (starts : tokens[start]? = some (.loopStart path frame.binding frame.body position))
    (stop : frame.body.stop = run.next) (last : frame.coming = [])
    : Moves tokens root run { run with next := run.next + 1, frames := outer }

/-- A run that is in the loops around its next token moves like this when it processes the token. -/
theorem InLoops.moves (h : InLoops tokens root run) (order : LoopsInOrder tokens)
    (here : tokens[run.next]? = some token) (done : run.step root token = .ok next)
    : Moves tokens root run next := by
  cases token with
  | literal text position =>
      cases done
      exact .write here rfl text
  | escaped text position =>
      cases done
      exact .write here rfl text
  | placeholder path position =>
      rw [step] at done
      split at done
      · rename_i scalar _
        cases done
        exact .write here rfl scalar.text
      · cases done
  | loopStart path binding body position =>
      rw [step] at done
      split at done
      · rename_i items list
        cases done
        cases items with
        | nil => exact .pass here
        | cons first coming => exact .enter here list
      · cases done
  | loopEnd start position =>
      obtain ⟨frame, outer, path, startPosition, innermost, starts, stop⟩ := h.exists_frame order here
      rw [step, turn, innermost] at done
      cases coming : frame.coming with
      | nil =>
          simp only [coming] at done
          cases done
          exact .leave innermost starts stop coming
      | cons item coming =>
          simp only [coming] at done
          cases done
          exact .again innermost starts stop ‹_›

/-- The innermost loop is around its end in addition to the loops around its start. -/
theorem InLoops.around_innermost (h : InLoops tokens root run) (order : LoopsInOrder tokens)
    {start : Nat} {path : Path} {position : Position} {frame : Frame} {outer : List Frame}
    (innermost : run.frames = frame :: outer)
    (starts : tokens[start]? = some (.loopStart path frame.binding frame.body position))
    (stop : frame.body.stop = run.next)
    : outer.reverse.map Frame.loop = loopsAround tokens start := by
  have around := h.around
  rw [innermost, ← stop, order.loopsAround_stop starts, order.loopsAround_body starts,
    List.reverse_cons, List.map_append] at around
  exact (List.append_inj' around rfl).1

/-- Processing a token leaves a run in the loops around its next token. -/
theorem InLoops.of_moves (h : InLoops tokens root run) (order : LoopsInOrder tokens)
    (moves : Moves tokens root run next)
    : InLoops tokens root next := by
  cases moves with
  | write here isLeaf chunk =>
      exact ⟨h.around.trans (order.loopsAround_succ here isLeaf).symm, h.running⟩
  | pass starts => exact ⟨h.around.trans (order.loopsAround_behind starts).symm, h.running⟩
  | enter starts list =>
      refine ⟨?_, .inside h.running starts list⟩
      rw [order.loopsAround_body starts, ← h.around, List.reverse_cons, List.map_append]
      rfl
  | again innermost starts stop more =>
      have outside := h.around_innermost order innermost starts stop
      have running := h.running
      rw [innermost] at running
      cases running with
      | inside around starts' list =>
          refine ⟨?_, .inside around starts' ?_⟩
          · rw [order.loopsAround_body starts, ← outside, List.reverse_cons, List.map_append]
            rfl
          · rw [list]
            simp [Frame.items, more]
  | leave innermost starts stop last =>
      have outside := h.around_innermost order innermost starts stop
      have running := h.running
      rw [innermost] at running
      cases running with
      | inside around _ _ =>
          refine ⟨?_, around⟩
          rw [← stop, order.loopsAround_behind starts]
          exact outside

-----------------------------------------------------------------------------------------
-- The order of places
-----------------------------------------------------------------------------------------

/-- How far a run has come: the start of the body and the index of the item of each running loop, the
outermost one first, and then the next token.
-/
def progress (run : Run) : List Nat :=
  run.frames.reverse.flatMap (fun frame => [frame.body.start, frame.index]) ++ [run.next]

/-- Processing a token takes a run further. A loop that is entered starts behind the token before, the
next item of a loop has a greater index, and a loop that is left has started before its end.
-/
theorem Moves.progress_lt (moves : Moves tokens root run next) (order : LoopsInOrder tokens)
    : run.progress < next.progress := by
  have less {m n : Nat} (h : m < n) (rest rest' : List Nat) : m :: rest < n :: rest' :=
    List.cons_lt_cons_iff.2 (.inl h)
  cases moves with
  | write here isLeaf chunk => exact List.append_left_lt (less (Nat.lt_succ_self _) [] [])
  | @pass _ _ body _ starts =>
      obtain ⟨-, inside, -⟩ := order.startsPoint starts
      have behind : run.next < body.stop + 1 := by omega
      exact List.append_left_lt (less behind [] [])
  | @enter _ _ body _ _ _ starts list =>
      obtain ⟨first, -⟩ := order.startsPoint starts
      have behind : run.next < body.start := by omega
      rw [progress, progress, List.reverse_cons, List.flatMap_append, List.append_assoc]
      exact List.append_left_lt (less behind [] _)
  | again innermost starts stop more =>
      rw [progress, progress, innermost, List.reverse_cons, List.reverse_cons, List.flatMap_append,
        List.flatMap_append, List.append_assoc, List.append_assoc]
      refine List.append_left_lt (List.cons_lt_cons_iff.2 (.inr ⟨rfl, less ?_ _ _⟩))
      exact Nat.lt_succ_self _
  | @leave _ _ _ frame _ innermost starts stop last =>
      obtain ⟨first, inside, -⟩ := order.startsPoint starts
      have behind : frame.body.start < run.next + 1 := by omega
      rw [progress, progress, innermost, List.reverse_cons, List.flatMap_append, List.append_assoc]
      exact List.append_left_lt (less behind _ [])

/-- Where the indexes of the items and the next token are the same, a run has come equally far, since
the next token tells the loops.
-/
theorem InLoops.progress_eq (h : InLoops tokens root run) (h' : InLoops tokens root later)
    (sameIndexes : run.frames.map Frame.index = later.frames.map Frame.index)
    (sameNext : run.next = later.next)
    : run.progress = later.progress := by
  have loops : run.frames.map Frame.loop = later.frames.map Frame.loop := by
    have same := h.around.trans ((congrArg _ sameNext).trans h'.around.symm)
    simpa using same
  have zipped (frames : List Frame)
      : frames.reverse.flatMap (fun frame => [frame.body.start, frame.index])
        = ((frames.map Frame.loop).zip (frames.map Frame.index)).reverse.flatMap
            fun pair => [pair.1.body.start, pair.2] := by
    rw [List.zip_map', ← List.map_reverse, List.flatMap_map]
    rfl
  rw [progress, progress, zipped, zipped, loops, sameIndexes, sameNext]

-----------------------------------------------------------------------------------------
-- Whole runs
-----------------------------------------------------------------------------------------

variable {visited : List Position}

/-- A run stays in the loops around its next token, by induction on its trace. -/
theorem Passes.inLoops (passes : Passes tokens root run visited later)
    (order : LoopsInOrder tokens) (h : InLoops tokens root run)
    : InLoops tokens root later := by
  induction passes with
  | refl => exact h
  | step here done _ ih => exact ih (h.of_moves order (h.moves order here done))

/-- A run comes further with every token, by induction on its trace. -/
theorem Passes.progress_lt (passes : Passes tokens root run visited later)
    (order : LoopsInOrder tokens) (h : InLoops tokens root run) (nonempty : visited ≠ [])
    : run.progress < later.progress := by
  induction passes with
  | refl => exact absurd rfl nonempty
  | @step _ next _ _ _ here done rest ih =>
      have moves := h.moves order here done
      have further := moves.progress_lt order
      cases rest with
      | refl => exact further
      | step => exact List.lt_trans further (ih (h.of_moves order moves) (by simp))

/-- What the frames of a run tell before its next token. They are those of the loops around the token,
outermost first, each with the items that its path leads to and with the index of one of them; a loop
end meets its own loop, and outside all loops none runs.
-/
structure Enclosed (tokens : Array Token) (root : Table) (run : Run) : Prop where
  around : run.frames.reverse.map Frame.loop = loopsAround tokens run.next
  nested : (loopsAround tokens run.next).Pairwise Loop.Encloses
  running : RunningLoops tokens root run.frames
  index_lt : ∀ frame ∈ run.frames, frame.index < frame.items.length
  ownLoop
    : ∀ start position,
        tokens[run.next]? = some (.loopEnd start position)
        → ∃ frame outer path startPosition,
            run.frames = frame :: outer
            ∧ tokens[start]? = some (.loopStart path frame.binding frame.body startPosition)
            ∧ frame.body.stop = run.next
  outside : (∀ loop ∈ loopsOf tokens.toList, ¬ loop.Surrounds run.next) → run.frames = []

theorem InLoops.enclosed (h : InLoops tokens root run) (order : LoopsInOrder tokens)
    : Enclosed tokens root run where
  around := h.around
  nested := order.enclose run.next
  running := h.running
  index_lt frame _ := frame.index_lt
  ownLoop _ _ ends := h.exists_frame order ends
  outside none := by
    have around := h.around
    rw [loopsAround, List.filter_eq_nil_iff.2 fun loop member => by simpa using none loop member]
      at around
    simpa using around

/-- Behind the last token no loop runs, since the end of a loop is a token. -/
theorem Enclosed.frames_eq_nil (h : Enclosed tokens root run) (order : LoopsInOrder tokens)
    (ended : tokens[run.next]? = none)
    : run.frames = [] := by
  refine h.outside fun loop member around => ?_
  obtain ⟨_, _, _, _, _, _, ends⟩ := order.exists_start member
  have inside := (Array.getElem?_eq_some_iff.1 ends).1
  have beyond := Array.getElem?_eq_none_iff.1 ended
  have := around.2
  omega

end Run

/-- Wherever rendering the tokens of a text has come to within a budget, its frames are those of the
loops around the next token. A text comes of a run that has no token and no loop left. The next token
and the indexes of the items are never the same twice.
-/
theorem renderTokens_inLoops {text : String} {tokens : Array Token}
    (tokenized : tokenize text = .ok tokens) (root : Table) (budget : Nat)
    : (∀ (visited : List Position) (run : Run),
        Run.Passes tokens root .initial visited run → visited.length ≤ budget →
          renderTokens tokens root budget
            = run.complete tokens root budget (budget - visited.length)
          ∧ run.Enclosed tokens root)
      ∧ (∀ output, renderTokens tokens root budget = .ok output →
          ∃ visited last,
            Run.Passes tokens root .initial visited last
            ∧ visited.length ≤ budget
            ∧ tokens[last.next]? = none
            ∧ last.frames = []
            ∧ last.text = output)
      ∧ ∀ (before between : List Position) (run later : Run),
          Run.Passes tokens root .initial before run → Run.Passes tokens root run between later →
          between ≠ [] →
            (run.frames.map Frame.index, run.next) ≠ (later.frames.map Frame.index, later.next) := by
  have order := loopsInOrder_of_tokenize tokenized
  have inLoops {visited : List Position} {run : Run}
      (passes : Run.Passes tokens root .initial visited run) : run.InLoops tokens root :=
    passes.inLoops order (Run.inLoops_initial order)
  refine ⟨?_, ?_, ?_⟩
  · intro visited run passes within
    refine ⟨?_, (inLoops passes).enclosed order⟩
    rw [renderTokens, passes.complete_eq, List.getElem?_eq_none within]
  · intro output rendered
    obtain ⟨count, within, ends⟩ := Run.complete_ends tokens root budget budget .initial
    rw [renderTokens] at rendered
    rw [rendered] at ends
    cases ends with
    | @finished last visited passes ended =>
        have enclosed := (inLoops passes).enclosed order
        exact ⟨visited, last, passes, within, ended, enclosed.frames_eq_nil order ended, rfl⟩
  · intro before between run later passes passes' nonempty same
    have h := inLoops passes
    have further := passes'.progress_lt order h nonempty
    rw [h.progress_eq (passes'.inLoops order h) (Prod.mk.inj same).1 (Prod.mk.inj same).2] at further
    exact List.lt_irrefl _ further

/-- The inner one of two loops takes its second item: both loops run, and the place is another one
than with its first item. Two tokens later the outer loop alone is left.
-/
theorem renderTokens_inLoops_inner
    : let text :=
        "\x7b\x7beach a|x|\x7d\x7d\x7b\x7beach x|y|\x7d\x7d\x7b\x7by\x7d\x7d\x7b\x7b/each\x7d\x7d-\x7b\x7b/each\x7d\x7d"
      let tokens : Array Token :=
        #[.loopStart ["a"] "x" ⟨1, 5⟩ ⟨0, 1, 1⟩, .loopStart ["x"] "y" ⟨2, 3⟩ ⟨13, 1, 14⟩,
          .placeholder ["y"] ⟨26, 1, 27⟩, .loopEnd 1 ⟨31, 1, 32⟩, .literal "-" ⟨40, 1, 41⟩,
          .loopEnd 0 ⟨41, 1, 42⟩]
      let one : Value := .scalar (.string "1")
      let two : Value := .scalar (.string "2")
      let root : Table := [("a", .list [.list [one, two]])]
      let outer : Frame := ⟨"x", ⟨1, 5⟩, [], .list [one, two], []⟩
      let first : Run := ⟨2, [⟨"y", ⟨2, 3⟩, [], one, [two]⟩, outer], []⟩
      let second : Run := ⟨2, [⟨"y", ⟨2, 3⟩, [one], two, []⟩, outer], ["1"]⟩
      let third : Run := ⟨4, [outer], ["2", "1"]⟩
      tokenize text = .ok tokens
        ∧ renderTokens tokens root 9 = second.complete tokens root 9 5
        ∧ second.frames.reverse.map Frame.loop = loopsAround tokens 2
        ∧ third.frames.reverse.map Frame.loop = loopsAround tokens 4
        ∧ (first.frames.map Frame.index, first.next)
          ≠ (second.frames.map Frame.index, second.next) := by
  intro text tokens one two root outer first second third
  have tokenized : tokenize text = .ok tokens := by cbv
  have start : tokens[0]? = some (.loopStart ["a"] "x" ⟨1, 5⟩ ⟨0, 1, 1⟩) := rfl
  have inner : tokens[1]? = some (.loopStart ["x"] "y" ⟨2, 3⟩ ⟨13, 1, 14⟩) := rfl
  have item : tokens[2]? = some (.placeholder ["y"] ⟨26, 1, 27⟩) := rfl
  have stop : tokens[3]? = some (.loopEnd 1 ⟨31, 1, 32⟩) := rfl
  have entered : Run.initial.step root (.loopStart ["a"] "x" ⟨1, 5⟩ ⟨0, 1, 1⟩)
      = .ok ⟨1, [outer], []⟩ := rfl
  have enteredInner : Run.step root ⟨1, [outer], []⟩ (.loopStart ["x"] "y" ⟨2, 3⟩ ⟨13, 1, 14⟩)
      = .ok first := rfl
  have toFirst := Run.Passes.step start entered (.step inner enteredInner (.refl first))
  have toSecond : Run.Passes tokens root first _ second :=
    .step item rfl (.step stop rfl (.refl _))
  have toThird : Run.Passes tokens root second _ third :=
    .step item rfl (.step stop rfl (.refl _))
  obtain ⟨known, -, apart⟩ := renderTokens_inLoops tokenized root 9
  have inSecond := known _ _ (toFirst.trans toSecond) (by decide)
  have inThird := known _ _ ((toFirst.trans toSecond).trans toThird) (by decide)
  exact ⟨tokenized, inSecond.1, inSecond.2.around, inThird.2.around,
    apart _ _ _ _ toFirst toSecond (by decide)⟩

end Stencil.Template
