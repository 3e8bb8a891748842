import Stencil.Template.Tokenize

/-! Which loop start a loop end belongs to, told by counting: a loop start is open as long as no
more loops end than start behind it. The open loops of an assembly are the open loop starts among
its tags, and the outermost one is the first loop start that stays open.
-/

namespace Stencil.Template

def Tag.startsLoop : Tag → Bool
  | loopStart _ _ => true
  | _ => false

def Tag.endsLoop : Tag → Bool
  | loopEnd => true
  | _ => false

/-- Tags with their positions, in the order of the text. -/
abbrev Tags := List (Tag × Position)

namespace Tags

/-- The number of loop starts among tags. -/
def starts (tags : Tags) : Nat := tags.countP (·.1.startsLoop)

/-- The number of loop ends among tags. -/
def ends (tags : Tags) : Nat := tags.countP (·.1.endsLoop)

/-- Each loop end among the tags has its loop start among them: however far the tags are read, no
more loops end than start. A loop start before such tags is still open behind them.
-/
def Covered (tags : Tags) : Prop := ∀ n, ends (tags.take n) ≤ starts (tags.take n)

/-- Loop starts and loop ends belong together in pairs. -/
structure Balanced (tags : Tags) : Prop where
  equal : starts tags = ends tags
  covered : Covered tags

/-- The first loop start among the tags to which no loop end belongs. -/
def FirstUnmatched (tags : Tags) (path : Path) (place : Position) : Prop :=
  ∃ before binding later,
    tags = before ++ (.loopStart path binding, place) :: later
    ∧ Covered later
    ∧ ∀ earlier path' binding' place' between,
        before = earlier ++ (.loopStart path' binding', place') :: between
        → ¬ Covered (between ++ (.loopStart path binding, place) :: later)

@[simp] theorem starts_append (first second : Tags)
    : starts (first ++ second) = starts first + starts second :=
  List.countP_append

@[simp] theorem ends_append (first second : Tags)
    : ends (first ++ second) = ends first + ends second :=
  List.countP_append

@[simp] theorem starts_loopStart (path : Path) (binding : String) (place : Position)
    (tags : Tags)
    : starts ((.loopStart path binding, place) :: tags) = starts tags + 1 := by
  simp [starts, Tag.startsLoop]

@[simp] theorem ends_loopStart (path : Path) (binding : String) (place : Position)
    (tags : Tags)
    : ends ((.loopStart path binding, place) :: tags) = ends tags := by
  simp [ends, Tag.endsLoop]

-----------------------------------------------------------------------------------------
-- Covered and balanced tags
-----------------------------------------------------------------------------------------

theorem Covered.ends_le {tags : Tags} (h : Covered tags) : ends tags ≤ starts tags := by
  simpa using h tags.length

theorem Covered.left {first second : Tags} (h : Covered (first ++ second)) : Covered first := by
  intro n
  have whole := h (min n first.length)
  rwa [List.take_append_of_le_length (Nat.min_le_right _ _), ← List.take_take,
    List.take_length] at whole

theorem Covered.append {first second : Tags} (h : Covered first) (h' : Covered second)
    : Covered (first ++ second) := by
  intro n
  rw [List.take_append, starts_append, ends_append]
  exact Nat.add_le_add (h n) (h' _)

/-- A loop start before covered tags keeps them covered. -/
theorem Covered.loopStart {tags : Tags} (h : Covered tags) (path : Path) (binding : String)
    (place : Position)
    : Covered ((.loopStart path binding, place) :: tags) := by
  intro n
  cases n with
  | zero => exact Nat.le_refl _
  | succ n =>
      rw [List.take_succ_cons, starts_loopStart, ends_loopStart]
      exact Nat.le_succ_of_le (h n)

/-- A loop end behind covered tags is covered if a loop start among them is open. -/
theorem Covered.loopEnd {tags : Tags} (h : Covered tags) (isOpen : ends tags < starts tags)
    (place : Position)
    : Covered (tags ++ [(.loopEnd, place)]) := by
  intro n
  by_cases inside : n ≤ tags.length
  · rw [List.take_append_of_le_length inside]
    exact h n
  · have whole : (tags ++ [(Tag.loopEnd, place)]).length ≤ n := by
      rw [List.length_append, List.length_singleton]
      omega
    have one : ends [(Tag.loopEnd, place)] = 1 := rfl
    rw [List.take_of_length_le whole, starts_append, ends_append, one]
    omega

theorem balanced_nil : Balanced [] := by
  refine ⟨rfl, fun n => ?_⟩
  rw [List.take_nil]
  exact Nat.le_refl _

/-- A placeholder is balanced, as it is no loop bracket. -/
theorem balanced_placeholder (path : Path) (place : Position)
    : Balanced [(.placeholder path, place)] := by
  refine ⟨rfl, fun n => ?_⟩
  cases n <;> simp [starts, ends, Tag.startsLoop, Tag.endsLoop]

theorem Balanced.append {first second : Tags} (h : Balanced first) (h' : Balanced second)
    : Balanced (first ++ second) := by
  refine ⟨?_, h.covered.append h'.covered⟩
  rw [starts_append, ends_append, h.equal, h'.equal]

/-- Balanced tags between a loop start and a loop end are balanced with them. -/
theorem Balanced.enclose {tags : Tags} (h : Balanced tags) (path : Path) (binding : String)
    (start stop : Position)
    : Balanced ((.loopStart path binding, start) :: (tags ++ [(.loopEnd, stop)])) := by
  refine ⟨?_, fun n => ?_⟩
  · rw [starts_loopStart, ends_loopStart, starts_append, ends_append, h.equal]
    rfl
  · cases n with
    | zero => exact Nat.le_refl _
    | succ n =>
        rw [List.take_succ_cons, starts_loopStart, ends_loopStart, List.take_append, starts_append,
          ends_append]
        have inside := h.covered n
        have last : ends ([(.loopEnd, stop)].take (n - tags.length)) ≤ 1 :=
          Nat.le_trans List.countP_le_length (List.length_take_le' _ _)
        omega

/-- A loop start in balanced tags is not open behind them: so many loops end behind it. -/
theorem Balanced.not_covered {tags before later more : Tags} {path : Path} {binding : String}
    {place : Position} (h : Balanced tags)
    (split : tags = before ++ (.loopStart path binding, place) :: later)
    : ¬ Covered (later ++ more) := by
  intro covered
  have early : ends before ≤ starts before := (split ▸ h.covered).left.ends_le
  have late : ends later ≤ starts later := covered.left.ends_le
  have equal := h.equal
  rw [split, starts_append, ends_append, starts_loopStart, ends_loopStart] at equal
  omega

-----------------------------------------------------------------------------------------
-- Open loops
-----------------------------------------------------------------------------------------

/-- Loops are open behind tags: the loop starts that stay open are those of the loops, innermost
first, and the tags before, between and behind them are balanced.
-/
inductive OpenBehind : List OpenLoop → Tags → Prop
  | none {tags : Tags} (balanced : Balanced tags) : OpenBehind [] tags
  | inside {loops : List OpenLoop} {tags inner : Tags} {loop : OpenLoop} {binding : String}
    (outer : OpenBehind loops tags) (balanced : Balanced inner)
    : OpenBehind (loop :: loops)
        (tags ++ (.loopStart loop.path binding, loop.position) :: inner)

variable {loops : List OpenLoop} {tags : Tags}

/-- Balanced tags more leave the open loops as they are. -/
theorem OpenBehind.append (h : OpenBehind loops tags) {more : Tags} (balanced : Balanced more)
    : OpenBehind loops (tags ++ more) := by
  cases h with
  | none balanced' => exact .none (balanced'.append balanced)
  | inside outer balanced' =>
      rw [List.append_assoc, List.cons_append]
      exact .inside outer (balanced'.append balanced)

/-- A loop end closes the innermost open loop. -/
theorem OpenBehind.close {loop : OpenLoop} (h : OpenBehind (loop :: loops) tags)
    (place : Position)
    : OpenBehind loops (tags ++ [(.loopEnd, place)]) := by
  cases h with
  | inside outer balanced =>
      rw [List.append_assoc, List.cons_append]
      exact outer.append (balanced.enclose _ _ _ _)

/-- Tags with open loops behind them are covered, and more loops start than end by those. -/
theorem OpenBehind.covered (h : OpenBehind loops tags)
    : Covered tags ∧ starts tags = ends tags + loops.length := by
  induction h with
  | none balanced => exact ⟨balanced.covered, balanced.equal⟩
  | inside outer balanced ih =>
      refine ⟨ih.1.append (balanced.covered.loopStart _ _ _), ?_⟩
      rw [starts_append, ends_append, starts_loopStart, ends_loopStart, ih.2, balanced.equal,
        List.length_cons]
      omega

/-- The outermost open loop starts behind balanced tags and stays open, by induction on the open
loops.
-/
theorem OpenBehind.exists_outermost (h : OpenBehind loops tags) {outermost : OpenLoop}
    (last : loops.getLast? = some outermost)
    : ∃ before binding later,
        tags = before ++ (.loopStart outermost.path binding, outermost.position) :: later
        ∧ Balanced before
        ∧ Covered later := by
  induction h with
  | none => simp at last
  | @inside loops tags inner loop binding outer balanced ih =>
      -- The outermost loop is this one only if no loop is open around it.
      cases outer with
      | none balanced' =>
          cases last
          exact ⟨tags, binding, inner, rfl, balanced', balanced.covered⟩
      | inside outer balanced' =>
          obtain ⟨before, binding', later, split, balanced'', covered⟩ := ih (by simpa using last)
          rw [split, List.append_assoc, List.cons_append]
          refine ⟨before, binding', _, rfl, balanced'', ?_⟩
          exact covered.append (balanced.covered.loopStart _ _ _)

/-- The first unmatched loop start is determined: of two different ones the later one would come
behind a loop start that is open, too.
-/
theorem FirstUnmatched.unique {path path' : Path} {place place' : Position}
    (h : FirstUnmatched tags path place) (h' : FirstUnmatched tags path' place')
    : path = path' ∧ place = place' := by
  obtain ⟨before, binding, later, split, covered, first⟩ := h
  obtain ⟨before', binding', later', split', covered', first'⟩ := h'
  rcases List.append_eq_append_iff.1 (split.symm.trans split')
    with ⟨between, eq, eq'⟩ | ⟨between, eq, eq'⟩
  · cases between with
    | nil =>
        cases eq'
        exact ⟨rfl, rfl⟩
    | cons tag between =>
        cases eq'
        exact (first' _ _ _ _ _ eq covered).elim
  · cases between with
    | nil =>
        cases eq'
        exact ⟨rfl, rfl⟩
    | cons tag between =>
        cases eq'
        exact (first _ _ _ _ _ eq covered').elim

/-- The first unmatched loop start behind which loops are open is that of the outermost one. -/
theorem OpenBehind.firstUnmatched_iff (h : OpenBehind loops tags) {path : Path}
    {place : Position}
    : FirstUnmatched tags path place
      ↔ ∃ outermost,
          loops.getLast? = some outermost
          ∧ outermost.path = path
          ∧ outermost.position = place := by
  have unmatched {outermost : OpenLoop} (last : loops.getLast? = some outermost)
      : FirstUnmatched tags outermost.path outermost.position := by
    obtain ⟨before, binding, later, split, balanced, covered⟩ := h.exists_outermost last
    refine ⟨before, binding, later, split, covered, ?_⟩
    intro earlier path' binding' place' between eq
    exact balanced.not_covered eq
  constructor
  · intro first
    cases h with
    | none balanced =>
        obtain ⟨before, binding, later, split, covered, _⟩ := first
        rw [← List.append_nil later] at covered
        exact (balanced.not_covered split covered).elim
    | @inside loops tags inner loop binding outer balanced =>
        cases last : (loop :: loops).getLast? with
        | none => simp at last
        | some outermost => exact ⟨outermost, rfl, (unmatched last).unique first⟩
  · rintro ⟨outermost, last, rfl, rfl⟩
    exact unmatched last

end Tags

end Stencil.Template
