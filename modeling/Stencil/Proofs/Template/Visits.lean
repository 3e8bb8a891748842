import Stencil.Proofs.Template.BlockRuns
import Stencil.Proofs.Template.Printing

/-! The texts that evaluations give within a number of steps. An evaluation refines to another one
that gives all its texts in no more steps. Evaluations compose up to this relation, and the
positions of the tokens have no part in it.
-/

namespace Stencil.Template

/-- A lookup gives a scalar exactly if the path leads to it. -/
theorem scalarAt_eq_ok_iff {entries : Table} {path : Path} {position : Position} {scalar : Scalar}
    : scalarAt entries path position = .ok scalar
      ↔ valueAt entries path = some (.scalar scalar) := by
  unfold scalarAt
  cases valueAt entries path with
  | none => simp
  | some value => cases value <;> simp

/-- A lookup gives items exactly if the path leads to their list. -/
theorem itemsAt_eq_ok_iff {entries : Table} {path : Path} {position : Position} {items : List Value}
    : itemsAt entries path position = .ok items ↔ valueAt entries path = some (.list items) := by
  unfold itemsAt
  cases valueAt entries path with
  | none => simp
  | some value => cases value <;> simp

namespace Visit

/-- An evaluation gives a text and visits at most as many tokens as there are steps. -/
def Gives (visit : Visit) (text : String) (steps : Nat) : Prop :=
  visit.outcome = .ok text ∧ visit.visited.length ≤ steps

/-- What an evaluation gives, another one gives within the same steps. -/
def RefinesTo (visit other : Visit) : Prop :=
  ∀ text steps, visit.Gives text steps → other.Gives text steps

theorem RefinesTo.refl (visit : Visit) : visit.RefinesTo visit :=
  fun _ _ gives => gives

-----------------------------------------------------------------------------------------
-- One evaluation after the other
-----------------------------------------------------------------------------------------

variable {first second first' second' : Visit} {text : String} {steps : Nat}

@[simp] theorem nothing_andThen (visit : Visit) : nothing.andThen visit = visit := by
  obtain ⟨visited, outcome⟩ := visit
  cases outcome <;> simp [andThen, nothing, Except.map]

theorem andThen_assoc (first second third : Visit)
    : (first.andThen second).andThen third = first.andThen (second.andThen third) := by
  obtain ⟨visited, outcome⟩ := first
  obtain ⟨visited', outcome'⟩ := second
  obtain ⟨visited'', outcome''⟩ := third
  cases outcome with
  | error cause => rfl
  | ok text =>
      cases outcome' with
      | error cause => rfl
      | ok text' => cases outcome'' <;> simp [andThen, Except.map, String.append_assoc]

/-- Evaluations one after the other give one text after the other, and share the steps. -/
theorem gives_andThen_iff
    : (first.andThen second).Gives text steps
      ↔ ∃ lead rest spent left,
          first.Gives lead spent
          ∧ second.Gives rest left
          ∧ text = lead ++ rest
          ∧ steps = spent + left := by
  obtain ⟨visited, outcome⟩ := first
  obtain ⟨visited', outcome'⟩ := second
  constructor
  · rintro ⟨written, covered⟩
    cases outcome with
    | error cause => cases written
    | ok lead =>
        cases outcome' with
        | error cause => cases written
        | ok rest =>
            cases written
            simp only [andThen, List.length_append] at covered
            exact ⟨lead, rest, visited.length, steps - visited.length, ⟨rfl, Nat.le_refl _⟩,
              ⟨rfl, by simp only; omega⟩, rfl, by omega⟩
  · rintro ⟨lead, rest, spent, left, ⟨rfl, covered⟩, ⟨rfl, covered'⟩, rfl, rfl⟩
    refine ⟨rfl, ?_⟩
    simp only [andThen, List.length_append]
    exact Nat.add_le_add covered covered'

theorem RefinesTo.andThen (h : first.RefinesTo first') (h' : second.RefinesTo second')
    : (first.andThen second).RefinesTo (first'.andThen second') := by
  intro text steps gives
  obtain ⟨lead, rest, spent, left, here, later, rfl, rfl⟩ := gives_andThen_iff.1 gives
  exact gives_andThen_iff.2 ⟨lead, rest, spent, left, h _ _ here, h' _ _ later, rfl, rfl⟩

/-- Turns of a loop refine as each of them does, by induction on the items. -/
theorem RefinesTo.sequence {turn turn' : Value → Visit}
    (h : ∀ item, (turn item).RefinesTo (turn' item)) (items : List Value)
    : (Visit.sequence (items.map turn)).RefinesTo (Visit.sequence (items.map turn')) := by
  induction items with
  | nil => exact .refl _
  | cons item items ih => exact (h item).andThen ih

/-- The position of a visited token has no part in what is given. -/
theorem refinesTo_one (outcome : Except Error String) (position position' : Position)
    : (one position outcome).RefinesTo (one position' outcome) :=
  fun _ _ gives => gives

end Visit

-----------------------------------------------------------------------------------------
-- The texts that blocks give
-----------------------------------------------------------------------------------------

/-- The second sequence of blocks is evaluated after the first one, by induction over the first. -/
theorem Blocks.visit_append (entries : Table) (first second : Blocks)
    : (first ++ second).visit entries = (first.visit entries).andThen (second.visit entries) := by
  induction first with
  | done => rw [done_append, visit, Visit.nothing_andThen]
  | leaf first rest ih => rw [leaf_append, visit, visit, ih, Visit.andThen_assoc]
  | loop path binding start body stop rest _ ih =>
      rw [loop_append, visit, visit, ih]
      cases itemsAt entries path start with
      | error cause => rfl
      | ok items => simp only [Visit.andThen_assoc]

theorem Blocks.refinesTo_append {first first' second second' : Blocks} {entries : Table}
    (h : (first.visit entries).RefinesTo (first'.visit entries))
    (h' : (second.visit entries).RefinesTo (second'.visit entries))
    : ((first ++ second).visit entries).RefinesTo ((first' ++ second').visit entries) := by
  rw [visit_append, visit_append]
  exact h.andThen h'

/-- Leaves that are the same up to their positions give the same text. -/
theorem Leaf.refinesTo_of_unplaced {first other : Leaf}
    (same : other.token.unplaced = first.token.unplaced) (entries : Table)
    : (first.visit entries).RefinesTo (other.visit entries) := by
  cases first with
  | literal text position =>
      cases other <;> cases same
      exact Visit.refinesTo_one _ _ _
  | escaped text position =>
      cases other <;> cases same
      exact Visit.refinesTo_one _ _ _
  | placeholder path position =>
      cases other <;> cases same
      rintro text steps ⟨written, covered⟩
      refine ⟨?_, covered⟩
      simp only [visit, Visit.one] at written ⊢
      cases found : scalarAt entries path position with
      | error cause =>
          rw [found] at written
          cases written
      | ok scalar =>
          rw [found] at written
          rw [scalarAt_eq_ok_iff.2 (scalarAt_eq_ok_iff.1 found)]
          exact written

/-- Blocks with the same tokens up to their positions give the same texts. By induction over the
blocks; the span of a loop tells the tokens of its body from those behind it.
-/
theorem Blocks.refinesTo_of_unplaced {blocks other : Blocks} {index : Nat}
    (same
      : (other.tokensFrom index).map Token.unplaced
        = (blocks.tokensFrom index).map Token.unplaced)
    (entries : Table)
    : (blocks.visit entries).RefinesTo (other.visit entries) := by
  induction blocks generalizing other index entries with
  | done =>
      cases other with
      | done => exact .refl _
      | leaf => simp [tokensFrom] at same
      | loop => simp [tokensFrom] at same
  | leaf first rest ih =>
      cases other with
      | done => simp [tokensFrom] at same
      | leaf first' rest' =>
          obtain ⟨sameFirst, sameRest⟩ := List.cons.inj same
          exact (Leaf.refinesTo_of_unplaced sameFirst entries).andThen (ih sameRest entries)
      | loop => cases first <;> simp [tokensFrom, Leaf.token, Token.unplaced] at same
  | loop path binding start body stop rest bodyIH ih =>
      cases other with
      | done => simp [tokensFrom] at same
      | leaf first' => cases first' <;> simp [tokensFrom, Leaf.token, Token.unplaced] at same
      | loop path' binding' start' body' stop' rest' =>
          obtain ⟨sameStart, sameRest⟩ := List.cons.inj same
          simp only [Token.unplaced, Token.loopStart.injEq, Span.mk.injEq, and_true, true_and]
            at sameStart
          obtain ⟨rfl, rfl, sameSize⟩ := sameStart
          have sameSize : body'.size = body.size := by omega
          rw [List.map_append, List.map_append] at sameRest
          obtain ⟨sameBody, sameBehind⟩ := List.append_inj sameRest (by simp [sameSize])
          obtain ⟨_, sameAfter⟩ := List.cons.inj sameBehind
          rw [sameSize] at sameAfter
          intro text steps gives
          simp only [visit] at gives ⊢
          cases found : itemsAt entries path' start with
          | error cause =>
              rw [found] at gives
              cases gives.1
          | ok items =>
              rw [found] at gives
              rw [itemsAt_eq_ok_iff.2 (itemsAt_eq_ok_iff.1 found)]
              have turns := Visit.RefinesTo.sequence
                (fun item => (bodyIH sameBody ((binding', item) :: entries)).andThen
                  (Visit.refinesTo_one (.ok "") stop stop')) items
              exact (((Visit.refinesTo_one (.ok "") start start').andThen turns).andThen
                (ih sameAfter entries)) text steps gives

/-- Rendering the tokens of blocks gives exactly the texts that the blocks give within the budget.
-/
theorem renderTokens_eq_ok_iff {blocks : Blocks} {root : Table} {budget : Nat} {text : String}
    : renderTokens (blocks.tokensFrom 0).toArray root budget = .ok text
      ↔ (blocks.visit root).Gives text budget := by
  rw [renderTokens_tokensFrom, Visit.Gives, ← List.getElem?_eq_none_iff]
  cases (blocks.visit root).visited[budget]? with
  | some position => simp
  | none => cases (blocks.visit root).outcome <;> simp [Except.mapError]

end Stencil.Template
