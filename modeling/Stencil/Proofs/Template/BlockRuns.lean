import Mathlib
import Stencil.Proofs.Template.Blocks
import Stencil.Proofs.Template.Nesting
import Stencil.Proofs.Template.RunTraces

/-! Rendering the tokens of a template agrees with evaluating its blocks. A run that stands at
blocks goes through them as their evaluation does, and leaves the running loops as they were.
-/

namespace Stencil.Template

-----------------------------------------------------------------------------------------
-- Looking up paths among the running loops
-----------------------------------------------------------------------------------------

/-- The values of the loop variables as entries, the innermost loop first. -/
def variablesOf (frames : List Frame) : Table :=
  frames.map fun frame => (frame.binding, frame.current)

/-- A loop variable is the first entry of its name, by induction over the running loops. -/
theorem bindingsOf_eq_lookup (frames : List Frame) (name : String)
    : bindingsOf frames name = (variablesOf frames).lookup name := by
  induction frames with
  | nil => rfl
  | cons frame outer ih =>
      simp only [bindingsOf, variablesOf, List.map_cons, List.lookup_cons] at ih ⊢
      rw [List.find?_cons, BEq.comm]
      split
      · rfl
      · exact ih

/-- Looking up a path in a scope is looking it up among its variables and then its root. -/
theorem value?_eq_valueAt (frames : List Frame) (root : Table) (path : Path)
    : (Scope.mk root (bindingsOf frames)).value? path
      = valueAt (variablesOf frames ++ root) path := by
  cases path with
  | nil => rfl
  | cons head rest =>
      have first : (Scope.mk root (bindingsOf frames)).find? head
          = (variablesOf frames ++ root).lookup head := by
        simp only [Scope.find?, bindingsOf_eq_lookup, List.lookup_append]
        cases (variablesOf frames).lookup head <;> rfl
      simp [Scope.value?, valueAt, first, Value.member?]

/-- The scalar of a placeholder is the one its path leads to. -/
theorem resolveScalar_eq (frames : List Frame) (root : Table) (path : Path)
    (position : Position)
    : (Scope.mk root (bindingsOf frames)).resolveScalar path (some position)
      = scalarAt (variablesOf frames ++ root) path position := by
  simp only [Scope.resolveScalar, Scope.resolve, scalarAt, value?_eq_valueAt]
  cases valueAt (variablesOf frames ++ root) path with
  | none => rfl
  | some value => cases value <;> rfl

/-- The items of a loop are those of the list its path leads to. -/
theorem resolveList_eq (frames : List Frame) (root : Table) (path : Path)
    (position : Position)
    : (Scope.mk root (bindingsOf frames)).resolveList path (some position)
      = itemsAt (variablesOf frames ++ root) path position := by
  simp only [Scope.resolveList, Scope.resolve, itemsAt, value?_eq_valueAt]
  cases valueAt (variablesOf frames ++ root) path with
  | none => rfl
  | some value => cases value <;> rfl

-----------------------------------------------------------------------------------------
-- Runs that do what an evaluation says
-----------------------------------------------------------------------------------------

namespace Run

variable {tokens : Array Token} {root : Table}

/-- A run visits the tokens that an evaluation says. It writes the text and gets to an index with
the given loops running, or it fails with the error.
-/
def Performs (tokens : Array Token) (root : Table) (run : Run) (visit : Visit) (next : Nat)
    (frames : List Frame)
    : Prop :=
  match visit.outcome with
  | .error cause => Fails tokens root run visit.visited cause
  | .ok text =>
    ∃ chunks,
      String.join chunks.reverse = run.text ++ text
      ∧ Passes tokens root run visit.visited ⟨next, frames, chunks⟩

theorem performs_nothing (run : Run)
    : Performs tokens root run .nothing run.next run.frames :=
  ⟨run.chunks, by simp [text], .refl run⟩

/-- Evaluations one after the other are performed one after the other. -/
theorem Performs.andThen {run : Run} {first second : Visit} {middle last : Nat}
    {between frames : List Frame}
    (h : Performs tokens root run first middle between)
    (h' : ∀ chunks, Performs tokens root ⟨middle, between, chunks⟩ second last frames)
    : Performs tokens root run (first.andThen second) last frames := by
  unfold Performs at h
  cases outcome : first.outcome with
  | error cause =>
      rw [outcome] at h
      simpa only [Performs, Visit.andThen, outcome] using h
  | ok text =>
      rw [outcome] at h
      obtain ⟨chunks, written, passes⟩ := h
      have later := h' chunks
      unfold Performs at later ⊢
      simp only [Visit.andThen, outcome]
      cases outcome' : second.outcome with
      | error cause =>
          rw [outcome'] at later
          exact passes.fails later
      | ok more =>
          rw [outcome'] at later
          obtain ⟨chunks', written', passes'⟩ := later
          refine ⟨chunks', ?_, passes.trans passes'⟩
          rw [written', Run.text, written, String.append_assoc]

/-- A run performs the visit of one token that only moves it on. -/
theorem performs_one {run : Run} {token : Token} (next : Nat) (frames : List Frame)
    (here : tokens[run.next]? = some token)
    (done : run.step root token = .ok ⟨next, frames, run.chunks⟩)
    : Performs tokens root run (.one token.position (.ok "")) next frames :=
  ⟨run.chunks, by simp [text], .step here done (.refl _)⟩

/-- A leaf is performed by processing its token. -/
theorem performs_leaf {run : Run} {first : Leaf}
    (here : tokens[run.next]? = some first.token)
    : Performs tokens root run (first.visit (variablesOf run.frames ++ root)) (run.next + 1)
        run.frames := by
  have written (chunk : String) (done : run.step root first.token = .ok (run.write chunk))
      : Performs tokens root run (.one first.token.position (.ok chunk)) (run.next + 1)
          run.frames :=
    ⟨chunk :: run.chunks, by simp [text], .step here done (.refl _)⟩
  cases first with
  | literal text position => exact written text rfl
  | escaped text position => exact written text rfl
  | placeholder path position =>
      simp only [Leaf.visit]
      cases found : scalarAt (variablesOf run.frames ++ root) path position with
      | ok scalar =>
          exact written scalar.text
            (by simp only [Leaf.token, step, scope, resolveScalar_eq, found])
      | error cause =>
          exact .here here (by simp only [Leaf.token, step, scope, resolveScalar_eq, found])

/-- The state of a run inside the loop that starts at an index, with its body of a given size. -/
def inLoop (index size : Nat) (binding : String) (done : List Value) (item : Value)
    (coming : List Value) (outer : List Frame)
    : List Frame :=
  ⟨binding, ⟨index + 1, index + 1 + size⟩, done, item, coming⟩ :: outer

/-- The turns of a loop are performed from the start of its body, by induction on the items to
come. Each turn performs the body and then the loop end, which goes back for the next item with
the loop still running, or on with the loop left.
-/
theorem performs_turns {binding : String} {stop : Position} {body : Blocks} {index : Nat}
    {outer : List Frame}
    (performsBody
      : ∀ frames chunks,
          Performs tokens root ⟨index + 1, frames, chunks⟩
            (body.visit (variablesOf frames ++ root)) (index + 1 + body.size) frames)
    (ends : tokens[index + 1 + body.size]? = some (.loopEnd index stop))
    (done : List Value) (item : Value) (coming : List Value) (chunks : List String)
    : Performs tokens root
        ⟨index + 1, inLoop index body.size binding done item coming outer, chunks⟩
        (.sequence ((item :: coming).map fun item =>
          (body.visit ((binding, item) :: (variablesOf outer ++ root))).andThen
            (.one stop (.ok ""))))
        (index + 1 + body.size + 1) outer := by
  induction coming generalizing done item chunks with
  | nil =>
      have turn := (performsBody (inLoop index body.size binding done item [] outer) chunks).andThen
        fun chunks => performs_one (index + 1 + body.size + 1) outer ends rfl
      exact turn.andThen fun chunks => performs_nothing _
  | cons next coming ih =>
      have turn := (performsBody (inLoop index body.size binding done item (next :: coming) outer)
        chunks).andThen fun chunks => performs_one (index + 1)
          (inLoop index body.size binding (item :: done) next coming outer) ends rfl
      exact turn.andThen fun chunks => ih (item :: done) next chunks

/-- A run that stands at blocks performs them and gets behind them, with the same loops running.
By induction over the blocks; a loop without items passes its end, any other one takes its turns.
-/
theorem performs_of_at {blocks : Blocks} {index : Nat} (stands : blocks.At tokens index)
    (frames : List Frame) (chunks : List String)
    : Performs tokens root ⟨index, frames, chunks⟩ (blocks.visit (variablesOf frames ++ root))
        (index + blocks.size) frames := by
  induction blocks generalizing index frames chunks with
  | done => exact performs_nothing _
  | leaf first rest ih =>
      refine (performs_leaf stands.1).andThen fun chunks => ?_
      rw [Blocks.size, show index + (rest.size + 1) = index + 1 + rest.size by omega]
      exact ih stands.2 frames chunks
  | loop path binding start body stop rest bodyIH ih =>
      obtain ⟨starts, inside, ends, after⟩ := stands
      have next : index + body.size + 2 = index + 1 + body.size + 1 := by omega
      simp only [Blocks.visit]
      cases found : itemsAt (variablesOf frames ++ root) path start with
      | error cause =>
          have failed : step root ⟨index, frames, chunks⟩
              (.loopStart path binding ⟨index + 1, index + 1 + body.size⟩ start)
              = .error (.error cause) := by
            simp only [step, scope, resolveList_eq, found]
          exact Fails.here starts failed
      | ok items =>
          have entered : step root ⟨index, frames, chunks⟩
              (.loopStart path binding ⟨index + 1, index + 1 + body.size⟩ start)
              = .ok (Run.enter ⟨index, frames, chunks⟩ binding
                ⟨index + 1, index + 1 + body.size⟩ items) := by
            simp only [step, scope, resolveList_eq, found]
          -- With or without turns the loop is left behind its end, where the rest goes on.
          have loop : Performs tokens root ⟨index, frames, chunks⟩
              ((Visit.one start (.ok "")).andThen (.sequence (items.map fun item =>
                (body.visit ((binding, item) :: (variablesOf frames ++ root))).andThen
                  (.one stop (.ok "")))))
              (index + 1 + body.size + 1) frames := by
            cases items with
            | nil =>
                exact (performs_one _ _ starts entered).andThen fun chunks => performs_nothing _
            | cons item coming =>
                exact (performs_one _ _ starts entered).andThen fun chunks =>
                  performs_turns (bodyIH inside) ends [] item coming chunks
          refine loop.andThen fun chunks => ?_
          rw [← next, Blocks.size,
            show index + (body.size + rest.size + 2) = index + body.size + 2 + rest.size by omega]
          exact ih after frames chunks

end Run

/-- Completing a run from the start of blocks that are all the tokens gives what comes of their
evaluation, unless a visited token is not covered by the budget.
-/
theorem renderTokens_tokensFrom (blocks : Blocks) (root : Table) (budget : Nat)
    : renderTokens (blocks.tokensFrom 0).toArray root budget
      = match (blocks.visit root).visited[budget]? with
        | some position => .error (.error (.outOfSteps budget position))
        | none => (blocks.visit root).outcome.mapError .error := by
  have whole : (blocks.tokensFrom 0).toArray.toList.drop 0 = blocks.tokensFrom 0 ++ [] := by
    simp
  have performs : Run.Performs (blocks.tokensFrom 0).toArray root .initial (blocks.visit root)
      (0 + blocks.size) [] :=
    Run.performs_of_at (Blocks.at_of_drop whole) [] []
  unfold Run.Performs at performs
  rw [renderTokens]
  cases outcome : (blocks.visit root).outcome with
  | error cause =>
      rw [outcome] at performs
      rw [performs.complete_eq]
      rfl
  | ok text =>
      rw [outcome] at performs
      obtain ⟨chunks, written, passes⟩ := performs
      have finished : Run.complete (blocks.tokensFrom 0).toArray root budget
          (budget - (blocks.visit root).visited.length) ⟨0 + blocks.size, [], chunks⟩
          = .ok text := by
        rw [Run.complete]
        simpa [Run.text, Run.initial] using written
      rw [passes.complete_eq, finished]
      rfl

/-- Where rendering the tokens of a text stops, the template or its data are at fault. -/
theorem exists_cause_of_renderTokens {text : String} {tokens : Array Token} {root : Table}
    {budget : Nat} {stop : Stop} (tokenized : tokenize text = .ok tokens)
    (h : renderTokens tokens root budget = .error stop)
    : ∃ cause, stop = .error cause := by
  obtain ⟨blocks, _, rfl⟩ := Nest.tokenize_eq_ok_iff.1 tokenized
  rw [renderTokens_tokensFrom] at h
  split at h
  · cases h
    exact ⟨_, rfl⟩
  · cases outcome : (blocks.visit root).outcome with
    | error cause =>
        rw [outcome] at h
        cases h
        exact ⟨cause, rfl⟩
    | ok text =>
        rw [outcome] at h
        cases h

/-- Rendering the tokens of a text evaluates the blocks that are read off their loop spans, which
are all the tokens. If the budget covers the visited tokens, rendering gives the text or the error
of the evaluation; otherwise it stops at the first visited token that is not covered.
-/
theorem renderTokens_eq_visit {text : String} {tokens : Array Token}
    (tokenized : tokenize text = .ok tokens) (root : Table) (budget : Nat)
    : let blocks := Blocks.ofTokens tokens
      let visit := blocks.visit root
      tokens.toList = blocks.tokensFrom 0
      ∧ (visit.visited.length ≤ budget
        → renderTokens tokens root budget = visit.outcome.mapError .error)
      ∧ ∀ spent : budget < visit.visited.length,
          renderTokens tokens root budget
            = .error (.error (.outOfSteps budget visit.visited[budget])) := by
  have whole := Nest.tokens_eq_of_tokenize tokenized
  have rendered := renderTokens_tokensFrom (Blocks.ofTokens tokens) root budget
  rw [← whole] at rendered
  refine ⟨congrArg Array.toList whole, ?_, ?_⟩
  · intro covered
    rw [rendered, List.getElem?_eq_none covered]
  · intro spent
    rw [rendered, List.getElem?_eq_getElem spent]

/-- A loop over two items behind which its variable names a root entry again takes eight steps;
with five, rendering stops at the literal of the second turn.
-/
theorem renderTokens_eq_visit_shadowing
    : let tokens : Array Token :=
        #[.loopStart ["xs"] "x" ⟨1, 3⟩ ⟨0, 1, 1⟩, .placeholder ["x"] ⟨15, 1, 16⟩,
          .literal "," ⟨20, 1, 21⟩, .loopEnd 0 ⟨21, 1, 22⟩, .placeholder ["x"] ⟨30, 1, 31⟩]
      let root : Table :=
        [("x", .scalar (.string "r")),
          ("xs", .list [.scalar (.string "a"), .scalar (.string "b")])]
      tokenize "\x7b\x7beach xs |x|\x7d\x7d\x7b\x7bx\x7d\x7d,\x7b\x7b/each\x7d\x7d\x7b\x7bx\x7d\x7d"
          = .ok tokens
        ∧ renderTokens tokens root 8 = .ok "a,b,r"
        ∧ renderTokens tokens root 5 = .error (.error (.outOfSteps 5 ⟨20, 1, 21⟩)) := by
  intro tokens root
  have tokenized
      : tokenize "\x7b\x7beach xs |x|\x7d\x7d\x7b\x7bx\x7d\x7d,\x7b\x7b/each\x7d\x7d\x7b\x7bx\x7d\x7d"
        = .ok tokens := by cbv
  have blocks : Blocks.ofTokens tokens
      = .loop ["xs"] "x" ⟨0, 1, 1⟩
          (.leaf (.placeholder ["x"] ⟨15, 1, 16⟩) (.leaf (.literal "," ⟨20, 1, 21⟩) .done))
          ⟨21, 1, 22⟩ (.leaf (.placeholder ["x"] ⟨30, 1, 31⟩) .done) := by cbv
  have covered := (renderTokens_eq_visit tokenized root 8).2.1
  have spent := (renderTokens_eq_visit tokenized root 5).2.2
  rw [blocks] at covered spent
  exact ⟨tokenized, covered (by decide), spent (by decide)⟩

end Stencil.Template
