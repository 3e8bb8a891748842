import Stencil.Template.Render

/-! Traces of runs: the positions of the tokens that a run processes without any budget, up to a
later state or up to an error. A run with a budget follows its trace, and it stops at the first
token that the budget does not cover.

A run ends by having no token left, by failing at a token, or by having spent its budget; only the
last way depends on the budget. Nothing is asked of the spans: a sequence may send a run backwards
for ever or to a loop end that no loop has.
-/

namespace Stencil.Template

/-- An outcome that says that a budget was spent. -/
def IsTimeout (outcome : Except Stop String) : Prop :=
  ∃ budget position, outcome = .error (.error (.outOfSteps budget position))

namespace Run

-----------------------------------------------------------------------------------------
-- Traces
-----------------------------------------------------------------------------------------

variable {tokens : Array Token} {root : Table}

/-- A run gets to another state by processing tokens with the given positions, in order. -/
inductive Passes (tokens : Array Token) (root : Table) : Run → List Position → Run → Prop
  | refl (run : Run) : Passes tokens root run [] run
  | step {run next last : Run} {token : Token} {visited : List Position}
    (here : tokens[run.next]? = some token) (done : run.step root token = .ok next)
    (later : Passes tokens root next visited last)
    : Passes tokens root run (token.position :: visited) last

/-- A run fails at the last one of the tokens with the given positions. -/
inductive Fails (tokens : Array Token) (root : Table) : Run → List Position → Error → Prop
  | here {run : Run} {token : Token} {cause : Error}
    (here : tokens[run.next]? = some token) (failed : run.step root token = .error (.error cause))
    : Fails tokens root run [token.position] cause
  | later {run next : Run} {token : Token} {visited : List Position} {cause : Error}
    (here : tokens[run.next]? = some token) (done : run.step root token = .ok next)
    (later : Fails tokens root next visited cause)
    : Fails tokens root run (token.position :: visited) cause

/-- Traces compose, by induction on the first one. -/
theorem Passes.trans {run middle last : Run} {visited more : List Position}
    (h : Passes tokens root run visited middle) (h' : Passes tokens root middle more last)
    : Passes tokens root run (visited ++ more) last := by
  induction h with
  | refl => exact h'
  | step here done _ ih => exact .step here done (ih h')

/-- A run fails where it gets to a state that fails, by induction on the trace to that state. -/
theorem Passes.fails {run middle : Run} {visited more : List Position} {cause : Error}
    (h : Passes tokens root run visited middle) (h' : Fails tokens root middle more cause)
    : Fails tokens root run (visited ++ more) cause := by
  induction h with
  | refl => exact h'
  | step here done _ ih => exact .later here done (ih h')

/-- Completing a run follows its trace while the budget lasts, by induction on the trace. -/
theorem Passes.complete_eq {run last : Run} {visited : List Position}
    (h : Passes tokens root run visited last) (budget left : Nat)
    : run.complete tokens root budget left
      = match visited[left]? with
        | some position => .error (.error (.outOfSteps budget position))
        | none => last.complete tokens root budget (left - visited.length) := by
  induction h generalizing left with
  | refl => rfl
  | step here done _ ih =>
      rw [complete, here]
      cases left with
      | zero => rfl
      | succ left =>
          simp only [done, ih left, List.getElem?_cons_succ, List.length_cons,
            Nat.add_sub_add_right]

/-- Completing a run that fails gives the error if the budget covers the failing token, by
induction on the trace.
-/
theorem Fails.complete_eq {run : Run} {visited : List Position} {cause : Error}
    (h : Fails tokens root run visited cause) (budget left : Nat)
    : run.complete tokens root budget left
      = match visited[left]? with
        | some position => .error (.error (.outOfSteps budget position))
        | none => .error (.error cause) := by
  induction h generalizing left with
  | here here failed =>
      rw [complete, here]
      cases left with
      | zero => rfl
      | succ left => simp [failed]
  | later here done _ ih =>
      rw [complete, here]
      cases left with
      | zero => rfl
      | succ left => simp only [done, ih left, List.getElem?_cons_succ]

-----------------------------------------------------------------------------------------
-- Step budgets
-----------------------------------------------------------------------------------------

variable {budget left count : Nat} {run next : Run} {outcome : Except Stop String}

/-- A run that may process `left` more tokens ends with an outcome, after processing `count` of
them. A token that fails is processed; a token that the budget does not cover is not.
-/
inductive Ends (tokens : Array Token) (root : Table) (budget left : Nat) (run : Run)
    : Nat → Except Stop String → Prop
  | finished {last : Run} {visited : List Position}
    (passed : Passes tokens root run visited last) (ended : tokens[last.next]? = none)
    : Ends tokens root budget left run visited.length (.ok last.text)
  | failed {last : Run} {visited : List Position} {token : Token} {stop : Stop}
    (passed : Passes tokens root run visited last) (here : tokens[last.next]? = some token)
    (fails : last.step root token = .error stop)
    : Ends tokens root budget left run (visited.length + 1) (.error stop)
  | spent {last : Run} {visited : List Position} {token : Token}
    (passed : Passes tokens root run visited last) (here : tokens[last.next]? = some token)
    (all : visited.length = left)
    : Ends tokens root budget left run left
        (.error (.error (.outOfSteps budget token.position)))

/-- One token more at the front of a run. -/
theorem Ends.cons {token : Token} (here : tokens[run.next]? = some token)
    (done : run.step root token = .ok next)
    (later : Ends tokens root budget left next count outcome)
    : Ends tokens root budget (left + 1) run (count + 1) outcome := by
  cases later with
  | finished passed ended => exact .finished (.step here done passed) ended
  | failed passed there fails => exact .failed (.step here done passed) there fails
  | spent passed there all =>
      exact .spent (.step here done passed) there (by rw [List.length_cons, all])

/-- Completing a run ends it within what is left of the budget, by induction on what is left. -/
theorem complete_ends (tokens : Array Token) (root : Table) (budget left : Nat) (run : Run)
    : ∃ count ≤ left,
        Ends tokens root budget left run count (run.complete tokens root budget left) := by
  induction left generalizing run with
  | zero =>
      rw [complete]
      cases here : tokens[run.next]? with
      | none => exact ⟨0, Nat.le_refl 0, .finished (.refl run) here⟩
      | some token => exact ⟨0, Nat.le_refl 0, .spent (.refl run) here rfl⟩
  | succ left ih =>
      rw [complete]
      cases here : tokens[run.next]? with
      | none => exact ⟨0, Nat.zero_le _, .finished (.refl run) here⟩
      | some token =>
          simp only
          cases step : run.step root token with
          | error stop => exact ⟨1, Nat.le_add_left 1 left, .failed (.refl run) here step⟩
          | ok next =>
              obtain ⟨count, within, ends⟩ := ih next
              exact ⟨count + 1, Nat.succ_le_succ within, ends.cons here step⟩

/-- A run that ended without a timeout ends in the same way within every budget that covers the
tokens it processed.
-/
theorem Ends.complete_eq (ends : Ends tokens root budget left run count outcome)
    (inTime : ¬ IsTimeout outcome) (other : Nat) {more : Nat} (covered : count ≤ more)
    : run.complete tokens root other more = outcome := by
  cases ends with
  | finished passed ended =>
      rw [passed.complete_eq, List.getElem?_eq_none covered, complete, ended]
  | @failed last visited token stop passed here fails =>
      obtain ⟨rest, rfl⟩ := Nat.exists_eq_add_of_lt covered
      rw [passed.complete_eq, List.getElem?_eq_none (by omega), complete, here]
      simp [Nat.add_assoc, fails]
  | spent => exact absurd ⟨_, _, rfl⟩ inTime

end Run

/-- Rendering any token sequence, consistent or not, ends after processing at most as many tokens
as the budget has steps, and an outcome that is no timeout is the outcome within every larger
budget.
-/
theorem renderTokens_ends_and_extends (tokens : Array Token) (root : Table) (budget : Nat)
    : (∃ count ≤ budget,
        Run.initial.Ends tokens root budget budget count (renderTokens tokens root budget))
      ∧ ∀ larger ≥ budget, ¬ IsTimeout (renderTokens tokens root budget)
        → renderTokens tokens root larger = renderTokens tokens root budget := by
  obtain ⟨count, within, ends⟩ := Run.complete_ends tokens root budget budget Run.initial
  refine ⟨⟨count, within, ends⟩, fun larger enough inTime => ?_⟩
  exact ends.complete_eq inTime larger (Nat.le_trans within enough)

/-- A loop that is its own body runs until its budget is spent. A loop whose body starts at its
loop end turns there, and then meets a second loop end that no loop has: the fourth step fails,
within every budget that reaches it.
-/
theorem renderTokens_ends_and_extends_inconsistent
    : let circular : Array Token := #[.loopStart ["xs"] "x" ⟨0, 5⟩ ⟨0, 1, 1⟩]
      let stray : Array Token :=
        #[.loopStart ["xs"] "x" ⟨2, 9⟩ ⟨0, 1, 1⟩, .placeholder ["x"] ⟨15, 1, 16⟩,
          .loopEnd 7 ⟨20, 1, 21⟩, .loopEnd 0 ⟨29, 1, 30⟩]
      let root : Table := [("xs", .list [.scalar (.string "a"), .scalar (.string "b")])]
      (∃ count ≤ 9, Run.initial.Ends circular root 9 9 count
          (.error (.error (.outOfSteps 9 ⟨0, 1, 1⟩))))
        ∧ renderTokens stray root 3 = .error (.error (.outOfSteps 3 ⟨29, 1, 30⟩))
        ∧ renderTokens stray root 4 = .error (.strayLoopEnd 3)
        ∧ renderTokens stray root 100 = .error (.strayLoopEnd 3) := by
  intro circular stray root
  have stopped : renderTokens stray root 4 = .error (.strayLoopEnd 3) := by rfl
  refine ⟨(renderTokens_ends_and_extends circular root 9).1, by rfl, stopped, ?_⟩
  rw [(renderTokens_ends_and_extends stray root 4).2 100 (by decide), stopped]
  rintro ⟨budget, position, timeout⟩
  rw [stopped] at timeout
  cases timeout

end Stencil.Template
