import Stencil.Regex

/-! What matching an expression brings about. A property of the units before and after a place is
carried over to the place behind a match, one rule for each form of an expression.
-/

namespace Stencil.Regex

/-- A property of the units before a place, the last one first, and of those after it. -/
abbrev Property := List Nat → List Nat → Prop

/-- From places with a property, an expression leads on to places with another one only. -/
def Carries (regex : Regex) (before after : Property) : Prop :=
  ∀ ⦃rest : Rest⦄ ⦃spot found : Spot⦄,
    before spot.before spot.after → regex.step true rest spot = some found →
    ∃ next : Spot, after next.before next.after ∧ rest next = some found

variable {P Q R : Property} {first second body : Regex} {rest : Rest} {spot : Spot}

-----------------------------------------------------------------------------------------
-- Steps
-----------------------------------------------------------------------------------------

theorem step_start : step .start true rest spot = if spot.before.isEmpty then rest spot else none :=
  rfl

theorem step_stop : step .stop true rest spot = if spot.after.isEmpty then rest spot else none :=
  rfl

theorem step_exactly (unit : Nat)
    : step (.exactly unit) true rest spot = (spot.pass? true [unit]).bind rest :=
  rfl

theorem step_oneOf (isNegated : Bool) (units : UnitSet)
    : step (.oneOf isNegated units) true rest spot
      = match spot.next? true with
        | some (unit, spot) => if units.has unit != isNegated then rest spot else none
        | none => none :=
  rfl

theorem step_look (isAhead isNegated : Bool)
    : step (.look isAhead isNegated body) true rest spot
      = match body.step isAhead some spot, isNegated with
        | some found, false => rest { spot with groups := found.groups }
        | none, true => rest spot
        | _, _ => none :=
  rfl

theorem step_times (least : Nat) (most? : Option Nat) (isLazy : Bool)
    : step (.times least most? isLazy body) true rest spot
      = loop (body.step true) isLazy rest (least + spot.before.length + spot.after.length + 2) least
          most? spot :=
  rfl

theorem loop_zero (step : Step) (isLazy : Bool) (least : Nat) (most? : Option Nat)
    : loop step isLazy rest 0 least most? spot = none :=
  rfl

theorem loop_succ (step : Step) (isLazy : Bool) (fuel least : Nat) (most? : Option Nat)
    : loop step isLazy rest (fuel + 1) least most? spot
      = if most? = some 0 then rest spot
        else
          let more (spot : Spot) : Option Spot :=
            step
              (fun next =>
                if least = 0 && next.after.length = spot.after.length then none
                else loop step isLazy rest fuel (least - 1) (most?.map (· - 1)) next)
              spot
          if 0 < least then more spot
          else if isLazy then (rest spot).or (more spot)
          else (more spot).or (rest spot) :=
  rfl

theorem next?_cons (before after : List Nat) (unit : Nat) (groups : List (Nat × List Nat))
    : Spot.next? true ⟨before, unit :: after, groups⟩
      = some (unit, ⟨unit :: before, after, groups⟩) :=
  rfl

theorem next?_nil (before : List Nat) (groups : List (Nat × List Nat))
    : Spot.next? true ⟨before, [], groups⟩ = none := by
  cases before <;> rfl

theorem pass?_cons (before after : List Nat) (unit unit' : Nat) (groups : List (Nat × List Nat))
    : Spot.pass? true [unit] ⟨before, unit' :: after, groups⟩
      = if unit' = unit then some ⟨unit' :: before, after, groups⟩ else none :=
  rfl

theorem pass?_nil (before : List Nat) (unit : Nat) (groups : List (Nat × List Nat))
    : Spot.pass? true [unit] ⟨before, [], groups⟩ = none := by
  cases before <;> rfl

-----------------------------------------------------------------------------------------
-- Rules
-----------------------------------------------------------------------------------------

theorem Carries.weaken (h : Carries body P Q) (h' : ∀ before after, Q before after → R before after)
    : Carries body P R := by
  intro rest spot found at_ matched
  obtain ⟨next, behind, eq⟩ := h at_ matched
  exact ⟨next, h' _ _ behind, eq⟩

theorem carries_empty : Carries .empty P P :=
  fun _ spot _ at_ matched => ⟨spot, at_, matched⟩

theorem carries_start : Carries .start P (fun before after => P before after ∧ before = []) := by
  intro rest spot found at_ matched
  simp only [step_start, Option.ite_none_right_eq_some, List.isEmpty_iff] at matched
  exact ⟨spot, ⟨at_, matched.1⟩, matched.2⟩

theorem carries_stop : Carries .stop P (fun before after => P before after ∧ after = []) := by
  intro rest spot found at_ matched
  simp only [step_stop, Option.ite_none_right_eq_some, List.isEmpty_iff] at matched
  exact ⟨spot, ⟨at_, matched.1⟩, matched.2⟩

/-- One unit of a kind is passed. -/
theorem carries_oneOf {isNegated : Bool} {units : UnitSet}
    (h : ∀ before unit after, (units.has unit != isNegated) = true →
      P before (unit :: after) → Q (unit :: before) after)
    : Carries (.oneOf isNegated units) P Q := by
  intro rest spot found at_ matched
  rw [step_oneOf] at matched
  obtain ⟨before, after, groups⟩ := spot
  cases after with
  | nil =>
      rw [next?_nil] at matched
      cases matched
  | cons unit after =>
      simp only [next?_cons, Option.ite_none_right_eq_some] at matched
      exact ⟨_, h _ _ _ matched.1 at_, matched.2⟩

theorem carries_exactly {unit : Nat}
    (h : ∀ before after, P before (unit :: after) → Q (unit :: before) after)
    : Carries (.exactly unit) P Q := by
  intro rest spot found at_ matched
  rw [step_exactly] at matched
  obtain ⟨next, passed, matched⟩ := Option.bind_eq_some_iff.1 matched
  obtain ⟨before, after, groups⟩ := spot
  cases after with
  | nil =>
      rw [pass?_nil] at passed
      cases passed
  | cons unit' after =>
      simp only [pass?_cons, Option.ite_none_right_eq_some, Option.some.injEq] at passed
      obtain ⟨rfl, rfl⟩ := passed
      exact ⟨_, h _ _ at_, matched⟩

/-- A look around stays in its place. -/
theorem carries_look {isAhead isNegated : Bool} : Carries (.look isAhead isNegated body) P P := by
  intro rest spot found at_ matched
  rw [step_look] at matched
  split at matched
  · refine ⟨_, ?_, matched⟩
    exact at_
  · exact ⟨spot, at_, matched⟩
  · cases matched

/-- Where something is not to come next, no place comes from which it could be passed. -/
theorem carries_notAhead_of_isSome {goal : Property}
    (h : ∀ before after groups, goal before after →
      (body.step true some ⟨before, after, groups⟩).isSome)
    : Carries (.look true true body) P (fun before after => P before after ∧ ¬ goal before after) := by
  intro rest spot found at_ matched
  refine ⟨spot, ⟨at_, fun isNext => ?_⟩, ?_⟩
  · obtain ⟨next, ahead⟩ := Option.isSome_iff_exists.1 (h _ _ spot.groups isNext)
    rw [step_look, ahead] at matched
    cases matched
  · rw [step_look] at matched
    split at matched
    · contradiction
    · exact matched
    · cases matched

/-- Where a unit is not to come next, it does not. -/
theorem carries_notAhead {unit : Nat}
    : Carries (.look true true (.sequence (.exactly unit) .empty)) P
        (fun before after => P before after ∧ after.head? ≠ some unit) := by
  refine carries_notAhead_of_isSome fun before after groups isNext => ?_
  obtain ⟨tail, rfl⟩ := List.head?_eq_some_iff.1 isNext
  change ((Spot.pass? true [unit] _).bind some).isSome
  rw [pass?_cons, if_pos rfl]
  rfl

theorem Carries.sequence (h : Carries first P Q) (h' : Carries second Q R)
    : Carries (.sequence first second) P R := by
  intro rest spot found at_ matched
  obtain ⟨middle, between, matched⟩ := h at_ matched
  exact h' between matched

/-- Where one unit of a kind is to come next, it does. -/
theorem carries_unitAhead {isNegated : Bool} {units : UnitSet}
    : Carries (.look true false (.sequence (.oneOf isNegated units) .empty)) P
        (fun before after =>
          P before after ∧ ∃ unit ∈ after.head?, (units.has unit != isNegated) = true) := by
  intro rest spot found at_ matched
  have unitAhead : Carries (.sequence (.oneOf isNegated units) .empty)
      (fun _ after => after = spot.after)
      (fun _ _ => ∃ unit ∈ spot.after.head?, (units.has unit != isNegated) = true) := by
    refine (carries_oneOf fun _ unit after isOne same => ?_).sequence carries_empty
    exact ⟨unit, by rw [← same]; rfl, isOne⟩
  rw [step_look] at matched
  cases ahead : step (.sequence (.oneOf isNegated units) .empty) true some spot with
  | none =>
      rw [ahead] at matched
      cases matched
  | some passed =>
      obtain ⟨_, isOne, _⟩ := unitAhead rfl ahead
      rw [ahead] at matched
      exact ⟨{ spot with groups := passed.groups }, ⟨at_, isOne⟩, matched⟩

theorem Carries.either (h : Carries first P Q) (h' : Carries second P Q)
    : Carries (.either first second) P Q := by
  intro rest spot found at_ matched
  rcases Option.or_eq_some_iff.1 matched with matched | ⟨_, matched⟩
  · exact h at_ matched
  · exact h' at_ matched

/-- One round of a loop that goes on: a match of the body, and the loop after that. -/
theorem Carries.round (h : Carries body P Q) {rest : Rest} {isLazy : Bool} {fuel least : Nat}
    {most? : Option Nat} {spot found : Spot} (at_ : P spot.before spot.after)
    (matched : loop (body.step true) isLazy rest (fuel + 1) least most? spot = some found)
    : rest spot = some found
      ∨ ∃ next : Spot,
          Q next.before next.after
          ∧ loop (body.step true) isLazy rest fuel (least - 1) (most?.map (· - 1)) next
            = some found := by
  have more {continue_ : Rest} (eq : body.step true (fun next =>
      if least = 0 && next.after.length = spot.after.length then none else continue_ next) spot
      = some found)
      : ∃ next : Spot, Q next.before next.after ∧ continue_ next = some found := by
    obtain ⟨next, behind, eq⟩ := h at_ eq
    exact ⟨next, behind, (Option.ite_none_left_eq_some.1 eq).2⟩
  rw [loop_succ] at matched
  split at matched
  · exact .inl matched
  · split at matched
    · exact .inr (more matched)
    · split at matched <;> rcases Option.or_eq_some_iff.1 matched with matched | ⟨_, matched⟩
      · exact .inl matched
      · exact .inr (more matched)
      · exact .inr (more matched)
      · exact .inl matched

/-- What a match of the body keeps, any number of matches keep, by induction on the number of rounds
that a loop may still take.
-/
theorem Carries.times {least : Nat} {most? : Option Nat} {isLazy : Bool} (h : Carries body P P)
    : Carries (.times least most? isLazy body) P P := by
  intro rest spot found at_ matched
  rw [step_times] at matched
  generalize least + spot.before.length + spot.after.length + 2 = fuel at matched
  induction fuel generalizing least most? spot with
  | zero =>
      rw [loop_zero] at matched
      cases matched
  | succ fuel ih =>
      rcases h.round at_ matched with done | ⟨next, behind, matched⟩
      · exact ⟨spot, at_, done⟩
      · exact ih behind matched

/-- At most one match. -/
theorem Carries.optional {isLazy : Bool} (h : Carries body P Q)
    : Carries (.times 0 (some 1) isLazy body) P
        (fun before after => P before after ∨ Q before after) := by
  intro rest spot found at_ matched
  rw [step_times] at matched
  rcases h.round at_ matched with done | ⟨next, behind, matched⟩
  · exact ⟨spot, .inl at_, done⟩
  · have done : (some 1).map (· - 1) = some 0 := rfl
    rw [loop_succ, done, if_pos rfl] at matched
    exact ⟨next, .inr behind, matched⟩

/-- One match or two. -/
theorem Carries.oneOrTwo {isLazy : Bool} (h : Carries body P Q) (h' : Carries body Q R)
    : Carries (.times 1 (some 2) isLazy body) P
        (fun before after => Q before after ∨ R before after) := by
  intro rest spot found at_ matched
  rw [step_times, loop_succ, if_neg (by decide), if_pos Nat.one_pos] at matched
  obtain ⟨next, between, matched⟩ := h at_ matched
  have matched := (Option.ite_none_left_eq_some.1 matched).2
  obtain ⟨fuel, more⟩ : ∃ fuel, 1 + spot.before.length + spot.after.length + 1 = fuel + 2 :=
    ⟨spot.before.length + spot.after.length, by omega⟩
  rw [more] at matched
  rcases h'.round between matched with done | ⟨last, behind, matched⟩
  · exact ⟨next, .inl between, done⟩
  · have done : ((some 2).map (· - 1)).map (· - 1) = some 0 := rfl
    rw [done, loop_succ, if_pos rfl] at matched
    exact ⟨last, .inr behind, matched⟩

-----------------------------------------------------------------------------------------
-- What an expression can match
-----------------------------------------------------------------------------------------

/-- An expression can lead from a place to another one: if what follows matches from there on, the
expression and what follows match.
-/
def Reaches (regex : Regex) (spot next : Spot) : Prop :=
  ∀ ⦃rest : Rest⦄, (rest next).isSome → (regex.step true rest spot).isSome

theorem reaches_empty (spot : Spot) : Reaches .empty spot spot :=
  fun _ matched => matched

theorem reaches_start {spot : Spot} (atStart : spot.before = []) : Reaches .start spot spot := by
  intro rest matched
  rwa [step_start, atStart, List.isEmpty_nil, if_pos rfl]

theorem reaches_stop {spot : Spot} (atEnd : spot.after = []) : Reaches .stop spot spot := by
  intro rest matched
  rwa [step_stop, atEnd, List.isEmpty_nil, if_pos rfl]

theorem reaches_exactly (before after : List Nat) (unit : Nat) (groups : List (Nat × List Nat))
    : Reaches (.exactly unit) ⟨before, unit :: after, groups⟩ ⟨unit :: before, after, groups⟩ := by
  intro rest matched
  rwa [step_exactly, pass?_cons, if_pos rfl]

theorem Reaches.sequence {spot middle next : Spot} (h : Reaches first spot middle)
    (h' : Reaches second middle next)
    : Reaches (.sequence first second) spot next :=
  fun _ matched => h (h' matched)

theorem Reaches.either_right {spot next : Spot} (h : Reaches second spot next)
    : Reaches (.either first second) spot next := by
  intro rest matched
  have eq : (Regex.either first second).step true rest spot
      = (first.step true rest spot).or (second.step true rest spot) := rfl
  rw [eq, Option.isSome_or, h matched, Bool.or_true]

theorem Reaches.either_left {spot next : Spot} (h : Reaches first spot next)
    : Reaches (.either first second) spot next := by
  intro rest matched
  have eq : (Regex.either first second).step true rest spot
      = (first.step true rest spot).or (second.step true rest spot) := rfl
  rw [eq, Option.isSome_or, h matched, Bool.true_or]

/-- What is not to come next and cannot be matched is passed over. -/
theorem reaches_notAhead {goal : Property} (h : Carries body P goal)
    (at_ : P spot.before spot.after) (never : ∀ before after, ¬ goal before after)
    : Reaches (.look true true body) spot spot := by
  intro rest matched
  have fails : body.step true some spot = none := by
    rw [Option.eq_none_iff_forall_ne_some]
    intro found eq
    obtain ⟨next, behind, _⟩ := h at_ eq
    exact never _ _ behind
  rwa [step_look, fails]

theorem reaches_oneOf {isNegated : Bool} {units : UnitSet} {unit : Nat}
    (h : (units.has unit != isNegated) = true) (before after : List Nat)
    (groups : List (Nat × List Nat))
    : Reaches (.oneOf isNegated units) ⟨before, unit :: after, groups⟩
        ⟨unit :: before, after, groups⟩ := by
  intro rest matched
  rw [step_oneOf]
  simp only [next?_cons, h, if_true]
  exact matched

/-- One unit of a kind that comes next is passed over where it is to come. -/
theorem reaches_unitAhead {isNegated : Bool} {units : UnitSet} {unit : Nat}
    (h : (units.has unit != isNegated) = true) (before after : List Nat)
    (groups : List (Nat × List Nat))
    : Reaches (.look true false (.sequence (.oneOf isNegated units) .empty))
        ⟨before, unit :: after, groups⟩ ⟨before, unit :: after, groups⟩ := by
  intro rest matched
  have ahead : step (.sequence (.oneOf isNegated units) .empty) true some
      ⟨before, unit :: after, groups⟩ = some ⟨unit :: before, after, groups⟩ := by
    have alone : step (.sequence (.oneOf isNegated units) .empty) true some
        ⟨before, unit :: after, groups⟩
        = step (.oneOf isNegated units) true some ⟨before, unit :: after, groups⟩ := rfl
    rw [alone, step_oneOf]
    simp only [next?_cons, h, if_true]
  rw [step_look, ahead]
  exact matched

/-- No match at all is enough where none is needed. -/
theorem reaches_times_zero {most? : Option Nat} {isLazy : Bool} (spot : Spot)
    : Reaches (.times 0 most? isLazy body) spot spot := by
  intro rest matched
  rw [step_times, loop_succ]
  split
  · exact matched
  · split
    · contradiction
    · split <;> simp only [Option.isSome_or, matched, Bool.true_or, Bool.or_true]

/-- If an expression can pass each of some units, so can any number of its matches. By induction on
the units.
-/
theorem reaches_times {isLazy : Bool} {before units after : List Nat}
    {groups : List (Nat × List Nat)}
    (h : ∀ passed unit left, units = passed ++ unit :: left →
      Reaches body ⟨passed.reverse ++ before, unit :: (left ++ after), groups⟩
        ⟨unit :: (passed.reverse ++ before), left ++ after, groups⟩)
    : Reaches (.times 0 none isLazy body) ⟨before, units ++ after, groups⟩
        ⟨units.reverse ++ before, after, groups⟩ := by
  intro rest matched
  suffices key : ∀ fuel, units.length < fuel →
      (loop (body.step true) isLazy rest fuel 0 none ⟨before, units ++ after, groups⟩).isSome by
    rw [step_times]
    exact key _ (by simp only [List.length_append]; omega)
  induction units generalizing before with
  | nil =>
      intro fuel enough
      obtain ⟨fuel, rfl⟩ : ∃ left, fuel = left + 1 := ⟨fuel - 1, by omega⟩
      rw [loop_succ, if_neg nofun, if_neg (Nat.lt_irrefl 0)]
      split <;> simp only [Option.isSome_or, Bool.or_eq_true]
      · exact .inl matched
      · exact .inr matched
  | cons unit units ih =>
      intro fuel enough
      obtain ⟨fuel, rfl⟩ : ∃ left, fuel = left + 1 := ⟨fuel - 1, by omega⟩
      have more : (body.step true (fun next =>
          if 0 = 0 && next.after.length = (unit :: units ++ after).length then none
          else loop (body.step true) isLazy rest fuel (0 - 1) (none.map (· - 1)) next)
          ⟨before, unit :: units ++ after, groups⟩).isSome := by
        refine h [] unit units rfl ?_
        rw [if_neg (by simp)]
        refine ih (fun passed unit' left eq => ?_) ?_ fuel ?_
        · have later := h (unit :: passed) unit' left (by rw [eq, List.cons_append])
          simpa using later
        · simpa using matched
        · simpa using enough
      rw [loop_succ, if_neg nofun, if_neg (Nat.lt_irrefl 0)]
      split <;> simp only [Option.isSome_or, Bool.or_eq_true]
      · exact .inr more
      · exact .inl more

/-- An expression is found in a text if it can lead on from its start. -/
theorem isFoundIn_of_reaches {regex : Regex} {text : List Char} {stop : Spot}
    (h : Reaches regex ⟨[], text.flatMap Text.unitsOf, []⟩ stop)
    : regex.isFoundIn text = true := by
  have matched : (regex.step true some ⟨[], text.flatMap Text.unitsOf, []⟩).isSome := h rfl
  unfold isFoundIn isFoundFrom
  simp only [matched, Bool.true_or]

/-- A text in which an expression is found has a place from which it matches. -/
theorem exists_of_isFoundFrom {regex : Regex} {before after : List Nat}
    (h : regex.isFoundFrom before after = true)
    : ∃ start stop found,
        start.reverse ++ stop = before.reverse ++ after
        ∧ regex.step true some ⟨start, stop, []⟩ = some found := by
  induction after generalizing before with
  | nil =>
      simp only [isFoundFrom, Bool.or_false] at h
      obtain ⟨found, matched⟩ := Option.isSome_iff_exists.1 h
      exact ⟨before, [], found, rfl, matched⟩
  | cons unit after ih =>
      rw [isFoundFrom, Bool.or_eq_true] at h
      rcases h with here | later
      · obtain ⟨found, matched⟩ := Option.isSome_iff_exists.1 here
        exact ⟨before, _, found, rfl, matched⟩
      · obtain ⟨start, stop, found, eq, matched⟩ := ih later
        exact ⟨start, stop, found, by simp [eq], matched⟩

end Stencil.Regex
