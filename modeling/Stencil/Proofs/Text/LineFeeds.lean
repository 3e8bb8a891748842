import Mathlib.Data.List.Count
import Mathlib.Data.List.Induction
import Stencil.Proofs.Text.Units

/-! Lines and columns by the line feeds of a text. A position is exact if its line and its column
are those counted from the start of the text. Two ways to count are exact: character by character,
and by a tracker that goes on from the last offset it was asked for.
-/

namespace Stencil

open Text

/-- The 16-bit unit of a line feed. -/
def Text.lineFeed : Nat := 10

/-- The last line feed before an offset stands at a place, which is -1 if there is none. -/
structure Text.IsLastLineFeed (text : List Nat) (offset : Nat) (place : Int) : Prop where
  stands : place = -1 ∨ ∃ index < offset, place = index ∧ text[index]? = some lineFeed
  none_after : ∀ index < offset, place < index → text[index]? ≠ some lineFeed

/-- A position in a text of 16-bit units has the line and the column of its offset: one more than
the number of line feeds before it, and its distance from the last one of them.
-/
structure Position.IsExact (text : List Nat) (position : Position) : Prop where
  inside : position.offset ≤ text.length
  line : position.line = 1 + (text.take position.offset).count lineFeed
  column
    : ∃ place, IsLastLineFeed text position.offset place
        ∧ (position.column : Int) = position.offset - place

namespace Text

variable {text : List Nat} {offset width : Nat}

/-- The last line feed before an offset stands at one place only. -/
theorem IsLastLineFeed.unique {place place' : Int} (h : IsLastLineFeed text offset place)
    (h' : IsLastLineFeed text offset place')
    : place = place' := by
  have not_lt {a b : Int} (ha : IsLastLineFeed text offset a) (hb : IsLastLineFeed text offset b)
      : ¬ a < b := by
    intro before
    rcases hb.stands with rfl | ⟨index, below, rfl, here⟩
    · rcases ha.stands with rfl | ⟨index, -, rfl, -⟩ <;> omega
    · exact ha.none_after index below before here
  have := not_lt h h'
  have := not_lt h' h
  omega

/-- A stretch without a line feed holds none to count. -/
theorem count_take_add (free : ∀ index, offset ≤ index → index < offset + width
      → text[index]? ≠ some lineFeed)
    : (text.take (offset + width)).count lineFeed = (text.take offset).count lineFeed := by
  rw [List.take_add, List.count_append, Nat.add_eq_left, List.count_eq_zero]
  intro member
  obtain ⟨index, here⟩ := List.getElem?_of_mem member
  rw [List.getElem?_take] at here
  split at here
  · rename_i below
    rw [List.getElem?_drop] at here
    exact free (offset + index) (by omega) (by omega) here
  · cases here

/-- A stretch without a line feed leaves the last line feed where it is. -/
theorem IsLastLineFeed.skip {place : Int} (h : IsLastLineFeed text offset place)
    (free : ∀ index, offset ≤ index → index < offset + width → text[index]? ≠ some lineFeed)
    : IsLastLineFeed text (offset + width) place where
  stands := h.stands.imp_right fun ⟨index, below, rest⟩ => ⟨index, by omega, rest⟩
  none_after index below after := by
    by_cases before : index < offset
    · exact h.none_after index before after
    · exact free index (by omega) below

end Text

namespace Position

variable {text : List Nat} {position : Position} {width : Nat}

/-- Exact positions with one offset are the same. -/
theorem IsExact.unique {other : Position} (h : position.IsExact text) (h' : other.IsExact text)
    (sameOffset : position.offset = other.offset)
    : position = other := by
  obtain ⟨offset, line, column⟩ := position
  obtain ⟨offset', line', column'⟩ := other
  obtain ⟨place, last, distance⟩ := h.column
  obtain ⟨place', last', distance'⟩ := h'.column
  have line_eq := h.line
  have line_eq' := h'.line
  simp only at *
  subst sameOffset
  obtain rfl := last.unique last'
  simp only [mk.injEq, true_and]
  omega

/-- The start of a text is exact. -/
theorem isExact_start (text : List Nat) : start.IsExact text where
  inside := Nat.zero_le _
  line := rfl
  column := ⟨-1, ⟨.inl rfl, fun _ below => absurd below (Nat.not_lt_zero _)⟩, rfl⟩

/-- Behind a stretch without a line feed the line is the same and the column grows. -/
theorem IsExact.skip (h : position.IsExact text) (inside : position.offset + width ≤ text.length)
    (free : ∀ index, position.offset ≤ index → index < position.offset + width
      → text[index]? ≠ some lineFeed)
    : IsExact text ⟨position.offset + width, position.line, position.column + width⟩ where
  inside := inside
  line := by rw [count_take_add free, h.line]
  column := by
    obtain ⟨place, last, distance⟩ := h.column
    exact ⟨place, last.skip free, by push_cast; omega⟩

/-- Behind a line feed the next line starts. -/
theorem IsExact.lineFeed (h : position.IsExact text)
    (here : text[position.offset]? = some lineFeed)
    : IsExact text ⟨position.offset + 1, position.line + 1, 1⟩ where
  inside := (List.getElem?_eq_some_iff.1 here).1
  line := by
    rw [List.take_add_one, here, List.count_append, h.line]
    rfl
  column := by
    refine ⟨position.offset, ⟨.inr ⟨_, Nat.lt_succ_self _, rfl, here⟩, ?_⟩, by push_cast; omega⟩
    intro index below after
    simp only at below
    omega

/-- No unit of another character is a line feed. -/
theorem lineFeed_notMem_unitsOf {c : Char} (other : c ≠ '\n') : Text.lineFeed ∉ unitsOf c := by
  unfold unitsOf Text.lineFeed
  split
  · intro member
    exact other (Char.toNat_inj.1 (List.mem_singleton.1 member).symm)
  · simp only [List.mem_cons, List.not_mem_nil, or_false]
    omega

/-- Walking over a character keeps a position exact. -/
theorem IsExact.step {c : Char} {before after : List Nat}
    (h : position.IsExact (before ++ unitsOf c ++ after))
    (behind : position.offset = before.length)
    : (position.step c).IsExact (before ++ unitsOf c ++ after) := by
  unfold Position.step
  split
  · rename_i lineFeed
    subst lineFeed
    exact h.lineFeed (by simp [behind, unitsOf, Text.lineFeed])
  · rename_i other
    refine h.skip (by simp [behind, length_unitsOf]) fun index from' below here => ?_
    rw [List.append_assoc, List.getElem?_append_right (by omega),
      List.getElem?_append_left (by rw [length_unitsOf]; omega)] at here
    exact lineFeed_notMem_unitsOf other (List.mem_of_getElem? here)

/-- Walking over the start of a text gives an exact position, by induction on that start from its
end.
-/
theorem isExact_after (before rest : List Char)
    : (start.after before).IsExact ((before ++ rest).flatMap unitsOf) := by
  induction before using List.reverseRecOn generalizing rest with
  | nil => exact isExact_start _
  | append_singleton before c ih =>
      have here := ih (c :: rest)
      rw [List.flatMap_append, List.flatMap_cons, ← List.append_assoc] at here
      have there := here.step (by rw [offset_after, units_eq_length]; exact Nat.zero_add _)
      simpa [after_append] using there

end Position

-----------------------------------------------------------------------------------------
-- The tracker
-----------------------------------------------------------------------------------------

/-- What is known of the lines of a text up to the largest offset that was asked for: the number
of the last line, where it starts, and that offset.
-/
structure LineTracker where
  line : Nat
  lineStart : Nat
  scanned : Nat
  deriving DecidableEq, Repr

namespace LineTracker

/-- The tracker of a text before it is asked for any offset. -/
def initial : LineTracker := ⟨1, 0, 0⟩

/-- The place of the first line feed from an offset on. -/
def nextLineFeed? (text : List Nat) (offset : Nat) : Option Nat :=
  ((text.drop offset).findIdx? (· == lineFeed)).map (offset + ·)

theorem nextLineFeed?_eq_none {text : List Nat} {offset : Nat}
    (h : nextLineFeed? text offset = none) {index : Nat} (behind : offset ≤ index)
    : text[index]? ≠ some lineFeed := by
  intro here
  obtain ⟨width, rfl⟩ := Nat.exists_eq_add_of_le behind
  rw [← List.getElem?_drop] at here
  simp only [nextLineFeed?, Option.map_eq_none_iff, List.findIdx?_eq_none_iff] at h
  simpa using h _ (List.mem_of_getElem? here)

theorem nextLineFeed?_eq_some {text : List Nat} {offset place : Nat}
    (h : nextLineFeed? text offset = some place)
    : offset ≤ place
      ∧ text[place]? = some lineFeed
      ∧ ∀ index, offset ≤ index → index < place → text[index]? ≠ some lineFeed := by
  simp only [nextLineFeed?, Option.map_eq_some_iff, List.findIdx?_eq_some_iff_getElem] at h
  obtain ⟨width, ⟨inside, here, before⟩, rfl⟩ := h
  refine ⟨Nat.le_add_right .., ?_, fun index behind below there => ?_⟩
  · rw [← List.getElem?_drop, List.getElem?_eq_getElem inside]
    simpa using here
  · obtain ⟨earlier, rfl⟩ := Nat.exists_eq_add_of_le behind
    rw [← List.getElem?_drop, List.getElem?_eq_some_iff] at there
    simpa [there.2] using before earlier (by omega)

/-- Passes the line feeds that stand before an offset, where the text is unread from a place on. -/
def pass (text : List Nat) (offset : Nat) (tracker : LineTracker) (unread : Nat) : LineTracker :=
  match _next : nextLineFeed? text unread with
  | none => tracker
  | some place =>
    if place < offset then
      pass text offset { tracker with line := tracker.line + 1, lineStart := place + 1 } (place + 1)
    else tracker
  termination_by offset - unread
  decreasing_by
    have := (nextLineFeed?_eq_some _next).1
    omega

/-- The position of an offset, and the tracker after it was asked for. -/
def ask (text : List Nat) (tracker : LineTracker) (offset : Nat) : Position × LineTracker :=
  let passed := tracker.pass text offset tracker.scanned
  (⟨offset, passed.line, offset - passed.lineStart + 1⟩,
    { passed with scanned := max passed.scanned offset })

/-- The positions of some offsets, asked for one after the other. -/
def positions (text : List Nat) : LineTracker → List Nat → List Position
  | _, [] => []
  | tracker, offset :: later =>
    (tracker.ask text offset).1 :: positions text (tracker.ask text offset).2 later

/-- A tracker knows the lines up to a place: the position it would answer there is exact. -/
structure KnowsUpTo (text : List Nat) (tracker : LineTracker) (place : Nat) : Prop where
  lineStart_le : tracker.lineStart ≤ place
  exact : Position.IsExact text ⟨place, tracker.line, place - tracker.lineStart + 1⟩

variable {text : List Nat} {tracker : LineTracker} {unread offset : Nat}

/-- A stretch without a line feed is known where its start is. -/
theorem KnowsUpTo.skip (h : tracker.KnowsUpTo text unread) (behind : unread ≤ offset)
    (inside : offset ≤ text.length)
    (free : ∀ index, unread ≤ index → index < offset → text[index]? ≠ some lineFeed)
    : tracker.KnowsUpTo text offset := by
  obtain ⟨width, rfl⟩ := Nat.exists_eq_add_of_le behind
  have lineStart_le := h.lineStart_le
  refine ⟨by omega, ?_⟩
  have moved := h.exact.skip inside free
  rwa [show unread - tracker.lineStart + 1 + width = unread + width - tracker.lineStart + 1 by
    omega] at moved

/-- Passing the line feeds before an offset makes the lines known up to there, by induction on the
line feeds passed.
-/
theorem KnowsUpTo.pass (h : tracker.KnowsUpTo text unread) (behind : unread ≤ offset)
    (inside : offset ≤ text.length)
    : (tracker.pass text offset unread).KnowsUpTo text offset
      ∧ (tracker.pass text offset unread).scanned = tracker.scanned := by
  fun_induction LineTracker.pass text offset tracker unread with
  | case1 tracker unread next =>
      exact ⟨h.skip behind inside fun index from' _ => nextLineFeed?_eq_none next from', rfl⟩
  | case2 tracker unread place next before ih =>
      obtain ⟨from', here, free⟩ := nextLineFeed?_eq_some next
      have known := h.skip from' (by omega) free
      refine ih ⟨Nat.le_refl _, ?_⟩ before
      simpa using known.exact.lineFeed here
  | case3 tracker unread place next notBefore =>
      obtain ⟨-, -, free⟩ := nextLineFeed?_eq_some next
      exact ⟨h.skip behind inside fun index from' below => free index from' (by omega), rfl⟩

/-- Asked for an offset that is not before the ones it was asked for, a tracker answers the exact
position and knows the lines up to there.
-/
theorem KnowsUpTo.ask (h : tracker.KnowsUpTo text tracker.scanned)
    (behind : tracker.scanned ≤ offset) (inside : offset ≤ text.length)
    : (tracker.ask text offset).1.IsExact text
      ∧ (tracker.ask text offset).2.KnowsUpTo text (tracker.ask text offset).2.scanned
      ∧ (tracker.ask text offset).2.scanned = offset := by
  obtain ⟨known, scanned⟩ := h.pass behind inside
  have last : (tracker.ask text offset).2.scanned = offset := by
    simp only [LineTracker.ask, scanned]
    omega
  refine ⟨known.exact, ?_, last⟩
  rw [last]
  exact ⟨known.lineStart_le, known.exact⟩

theorem knowsUpTo_initial (text : List Nat) : initial.KnowsUpTo text 0 :=
  ⟨Nat.le_refl 0, Position.isExact_start text⟩

/-- Asked for the offsets of exact positions in increasing order, a tracker answers these
positions, by induction on the offsets.
-/
theorem positions_eq_of_isExact {expected : List Position}
    (h : tracker.KnowsUpTo text tracker.scanned)
    (behind : ∀ position ∈ expected, tracker.scanned ≤ position.offset)
    (increasing : expected.Pairwise fun first second => first.offset ≤ second.offset)
    (exact' : ∀ position ∈ expected, position.IsExact text)
    : tracker.positions text (expected.map Position.offset) = expected := by
  induction expected generalizing tracker with
  | nil => rfl
  | cons position later ih =>
      have here := exact' position List.mem_cons_self
      obtain ⟨before, increasing⟩ := List.pairwise_cons.1 increasing
      obtain ⟨answer, known, scanned⟩ := h.ask (behind position List.mem_cons_self) here.inside
      have rest := ih known (by rwa [scanned]) increasing fun other member =>
        exact' other (List.mem_cons_of_mem _ member)
      rw [List.map_cons, positions, answer.unique here rfl, rest]

end LineTracker

end Stencil
