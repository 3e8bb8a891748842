import Stencil.Proofs.Template.BlockRuns
import Stencil.Proofs.Template.RunningLoops
import Stencil.Proofs.Value.Shapes

/-! Rendering one template against two contexts of the same shape. Both runs process the same
tokens, whatever the scalars hold: they fail alike, or each token writes the same chunks, except that
a placeholder writes the scalar of either context at the address that its path leads to.
-/

namespace Stencil.Template

/-- Two outcomes: the same error, or results that are related. -/
inductive Alike {ε α β : Type} (R : α → β → Prop) : Except ε α → Except ε β → Prop
  | error (cause : ε) : Alike R (.error cause) (.error cause)
  | ok {first : α} {second : β} (related : R first second) : Alike R (.ok first) (.ok second)

theorem Alike.imp {ε α β : Type} {R S : α → β → Prop} {first : Except ε α} {second : Except ε β}
    (h : Alike R first second) (implies : ∀ a b, R a b → S a b)
    : Alike S first second := by
  cases h with
  | error cause => exact .error cause
  | ok related => exact .ok (implies _ _ related)

/-- The addresses that a path may lead to: its names from the root, or those behind a loop variable
from an item of the list that the path of the loop leads to.
-/
inductive LeadsTo (tokens : Array Token) : Path → Value.Address → Prop
  | top (name : String) (rest : Path) : LeadsTo tokens (name :: rest) (.inl name :: rest.map .inl)
  | item {path : Path} {binding : String} {body : Span} {position : Position} {list : Value.Address}
    (loop : .loopStart path binding body position ∈ tokens) (leads : LeadsTo tokens path list)
    (index : Nat) (rest : Path)
    : LeadsTo tokens (binding :: rest) (list ++ .inr index :: rest.map .inl)

/-- The chunks that a token writes against two roots: its text, or the texts of the scalars at the
address that its path leads to. A token of a loop writes none.
-/
inductive WritesAlike (tokens : Array Token) (root root' : Table)
    : Token → List String → List String → Prop
  | literal (text : String) (position : Position)
    : WritesAlike tokens root root' (.literal text position) [text] [text]
  | escaped (text : String) (position : Position)
    : WritesAlike tokens root root' (.escaped text position) [text] [text]
  | placeholder {path : Path} {position : Position} {address : Value.Address}
    {scalar scalar' : Scalar} (leads : LeadsTo tokens path address)
    (here : (Value.table root).at? address = some (.scalar scalar))
    (here' : (Value.table root').at? address = some (.scalar scalar'))
    : WritesAlike tokens root root' (.placeholder path position) [scalar.text] [scalar'.text]
  | loopStart (path : Path) (binding : String) (body : Span) (position : Position)
    : WritesAlike tokens root root' (.loopStart path binding body position) [] []
  | loopEnd (start : Nat) (position : Position)
    : WritesAlike tokens root root' (.loopEnd start position) [] []

/-- The chunks that tokens of a template write against two roots, one after the other. -/
inductive AllWriteAlike (tokens : Array Token) (root root' : Table)
    : List Token → List String → List String → Prop
  | nil : AllWriteAlike tokens root root' [] [] []
  | cons {token : Token} {processed : List Token} {wrote wrote' chunks chunks' : List String}
    (member : token ∈ tokens) (here : WritesAlike tokens root root' token wrote wrote')
    (later : AllWriteAlike tokens root root' processed chunks chunks')
    : AllWriteAlike tokens root root' (token :: processed) (wrote ++ chunks) (wrote' ++ chunks')

section

variable {tokens : Array Token} {root root' : Table}

-----------------------------------------------------------------------------------------
-- Looking up paths
-----------------------------------------------------------------------------------------

/-- Running loops over lists at one address that the path of a loop start leads to, both at the same
item.
-/
structure FrameTwins (tokens : Array Token) (root root' : Table) (frame frame' : Frame) : Prop where
  binding : frame.binding = frame'.binding
  body : frame.body = frame'.body
  index : frame.index = frame'.index
  list : ∃ path position list,
    .loopStart path frame.binding frame.body position ∈ tokens
    ∧ LeadsTo tokens path list
    ∧ Twins (.table root) (.table root') list (.list frame.items) (.list frame'.items)

/-- Values of a name in two scopes, at one address that paths may lead to through that name. -/
def NameTwins (tokens : Array Token) (root root' : Table) (name : String) (value value' : Value)
    : Prop :=
  ∃ address,
    (∀ rest : Path, LeadsTo tokens (name :: rest) (address ++ rest.map .inl))
    ∧ Twins (.table root) (.table root') address value value'

/-- Values at one address that a path may lead to. -/
def PathTwins (tokens : Array Token) (root root' : Table) (path : Path) (value value' : Value)
    : Prop :=
  ∃ address, LeadsTo tokens path address ∧ Twins (.table root) (.table root') address value value'

theorem FrameTwins.current {frame frame' : Frame} (h : FrameTwins tokens root root' frame frame')
    : NameTwins tokens root root' frame.binding frame.current frame'.current := by
  obtain ⟨path, position, list, loop, leads, twins⟩ := h.list
  refine ⟨list ++ [.inr frame.index], fun rest => ?_, ?_⟩
  · rw [List.append_assoc]
    exact .item loop leads frame.index rest
  · exact twins.item frame.getElem?_items (h.index ▸ frame'.getElem?_items)

theorem bindingsOf_twins {frames frames' : List Frame}
    (h : List.Forall₂ (FrameTwins tokens root root') frames frames') (name : String)
    : Option.Rel (NameTwins tokens root root' name) (bindingsOf frames name)
        (bindingsOf frames' name) := by
  induction h with
  | nil => exact .none
  | @cons frame frame' frames frames' first _ ih =>
      simp only [bindingsOf, List.find?_cons, ← first.binding]
      split
      next isBound =>
        obtain rfl : frame.binding = name := beq_iff_eq.1 isBound
        exact .some first.current
      next => exact ih

/-- Scopes in which every name has values at one address, or none. -/
def ScopeTwins (tokens : Array Token) (root root' : Table) (scope scope' : Scope) : Prop :=
  ∀ name, Option.Rel (NameTwins tokens root root' name) (scope.find? name) (scope'.find? name)

theorem scopeTwins_of_frames {frames frames' : List Frame}
    (same : Value.SameShape (.table root) (.table root'))
    (h : List.Forall₂ (FrameTwins tokens root root') frames frames')
    : ScopeTwins tokens root root' ⟨root, bindingsOf frames⟩ ⟨root', bindingsOf frames'⟩ := by
  intro name
  have bound := bindingsOf_twins h name
  have top : Option.Rel _ (root.lookup name) (root'.lookup name) := (Twins.refl same).member name
  simp only [Scope.find?]
  generalize bindingsOf frames name = value at bound
  generalize bindingsOf frames' name = value' at bound
  cases bound with
  | some twins => exact .some twins
  | none =>
      generalize root.lookup name = value at top
      generalize root'.lookup name = value' at top
      cases top with
      | some twins => exact .some ⟨[.inl name], .top name, twins⟩
      | none => exact .none

namespace ScopeTwins

variable {scope scope' : Scope} (h : ScopeTwins tokens root root' scope scope')

include h

theorem value? (path : Path)
    : Option.Rel (PathTwins tokens root root' path) (scope.value? path) (scope'.value? path) := by
  cases path with
  | nil => exact .none
  | cons head rest =>
      have first := h head
      simp only [Scope.value?]
      generalize scope.find? head = value at first
      generalize scope'.find? head = value' at first
      cases first with
      | none => exact .none
      | @some value value' twins =>
          obtain ⟨address, leads, twins⟩ := twins
          have found := twins.members rest
          simp only [Option.bind_some]
          generalize rest.foldlM Value.member? value = part at found
          generalize rest.foldlM Value.member? value' = part' at found
          cases found with
          | none => exact .none
          | some twins => exact .some ⟨_, leads rest, twins⟩

theorem resolve (path : Path) (position? : Option Position)
    : Alike (PathTwins tokens root root' path) (scope.resolve path position?)
        (scope'.resolve path position?) := by
  have found := h.value? path
  simp only [Scope.resolve]
  generalize scope.value? path = value at found
  generalize scope'.value? path = value' at found
  cases found with
  | none => exact .error _
  | some twins => exact .ok twins

theorem resolveScalar (path : Path) (position? : Option Position)
    : Alike (fun s s' => PathTwins tokens root root' path (.scalar s) (.scalar s'))
        (scope.resolveScalar path position?) (scope'.resolveScalar path position?) := by
  have found := h.resolve path position?
  simp only [Scope.resolveScalar]
  generalize scope.resolve path position? = value at found
  generalize scope'.resolve path position? = value' at found
  cases found with
  | error cause => exact .error cause
  | ok twins =>
      obtain ⟨address, leads, twins⟩ := twins
      cases twins.sameShape with
      | scalar kind => exact .ok ⟨address, leads, twins⟩
      | list each => exact .error _
      | table each => exact .error _

theorem resolveList (path : Path) (position? : Option Position)
    : Alike (fun items items' => PathTwins tokens root root' path (.list items) (.list items'))
        (scope.resolveList path position?) (scope'.resolveList path position?) := by
  have found := h.resolve path position?
  simp only [Scope.resolveList]
  generalize scope.resolve path position? = value at found
  generalize scope'.resolve path position? = value' at found
  cases found with
  | error cause => exact .error cause
  | ok twins =>
      obtain ⟨address, leads, twins⟩ := twins
      cases twins.sameShape with
      | list each => exact .ok ⟨address, leads, twins⟩
      | table each => exact .error _
      | scalar kind =>
          have kinds := twins.sameShape.kind_eq
          simp only [bind, Except.bind, kinds]
          exact .error _

end ScopeTwins

-----------------------------------------------------------------------------------------
-- Runs in lockstep
-----------------------------------------------------------------------------------------

namespace Run

/-- Two runs at the same token, in the same loops at the same items. -/
structure Lockstep (tokens : Array Token) (root root' : Table) (run run' : Run) : Prop where
  next : run.next = run'.next
  frames : List.Forall₂ (FrameTwins tokens root root') run.frames run'.frames

/-- A step of two runs in lockstep keeps them there, and writes chunks that belong to the token. -/
structure StepsAlike (tokens : Array Token) (root root' : Table) (token : Token)
    (run run' next next' : Run) : Prop where
  lockstep : Lockstep tokens root root' next next'
  chunks : ∃ wrote wrote',
    WritesAlike tokens root root' token wrote wrote'
    ∧ next.chunks.reverse = run.chunks.reverse ++ wrote
    ∧ next'.chunks.reverse = run'.chunks.reverse ++ wrote'

/-- A token that writes nothing leaves the chunks as they are. -/
theorem StepsAlike.silent {token : Token} {run run' next next' : Run}
    (writes : WritesAlike tokens root root' token [] []) (quiet : next.chunks = run.chunks)
    (quiet' : next'.chunks = run'.chunks) (lockstep : Lockstep tokens root root' next next')
    : StepsAlike tokens root root' token run run' next next' := by
  refine ⟨lockstep, [], [], writes, ?_, ?_⟩
  · rw [quiet, List.append_nil]
  · rw [quiet', List.append_nil]

namespace Lockstep

variable {run run' : Run} {token : Token}

theorem initial : Lockstep tokens root root' .initial .initial := ⟨rfl, .nil⟩

theorem write {chunk chunk' : String} (h : Lockstep tokens root root' run run')
    (writes : WritesAlike tokens root root' token [chunk] [chunk'])
    : StepsAlike tokens root root' token run run' (run.write chunk) (run'.write chunk') :=
  ⟨⟨congrArg (· + 1) h.next, h.frames⟩, _, _, writes, List.reverse_cons, List.reverse_cons⟩

theorem enter {path : Path} {binding : String} {body : Span} {position : Position}
    {items items' : List Value} (h : Lockstep tokens root root' run run')
    (member : .loopStart path binding body position ∈ tokens)
    (twins : PathTwins tokens root root' path (.list items) (.list items'))
    : StepsAlike tokens root root' (.loopStart path binding body position) run run'
        (run.enter binding body items) (run'.enter binding body items') := by
  obtain ⟨list, leads, twins⟩ := twins
  cases twins.sameShape with
  | list each =>
      cases each with
      | nil => exact .silent (.loopStart ..) rfl rfl ⟨rfl, h.frames⟩
      | cons first coming =>
          exact .silent (.loopStart ..) rfl rfl
            ⟨rfl, .cons ⟨rfl, rfl, rfl, path, position, list, member, leads, twins⟩ h.frames⟩

theorem turn (h : Lockstep tokens root root' run run') (start : Nat) (position : Position)
    : Alike (StepsAlike tokens root root' (.loopEnd start position) run run') run.turn
        run'.turn := by
  obtain ⟨next, frames, chunks⟩ := run
  obtain ⟨next', frames', chunks'⟩ := run'
  obtain ⟨rfl, sameFrames⟩ := h
  cases sameFrames with
  | nil => exact .error _
  | @cons frame frame' outer outer' first rest =>
      obtain ⟨binding, body, done, current, coming⟩ := frame
      obtain ⟨binding', body', done', current', coming'⟩ := frame'
      obtain ⟨rfl, rfl, sameIndex, path, place, list, member, leads, twins⟩ := first
      have sameDone : done.length = done'.length := sameIndex
      have sameLength : coming.length = coming'.length := by
        cases twins.sameShape with
        | list each => simpa [Frame.items, sameDone] using each.length_eq
      cases coming with
      | nil =>
          obtain rfl : coming' = [] := List.length_eq_zero_iff.1 sameLength.symm
          exact .ok (.silent (.loopEnd ..) rfl rfl ⟨rfl, rest⟩)
      | cons item coming =>
          obtain ⟨item', coming', rfl⟩ := List.exists_of_length_succ coming' sameLength.symm
          have later : FrameTwins tokens root root' ⟨binding, body, current :: done, item, coming⟩
              ⟨binding, body, current' :: done', item', coming'⟩ := by
            refine ⟨rfl, rfl, congrArg (· + 1) sameDone, path, place, list, member, leads, ?_⟩
            simpa [Frame.items] using twins
          exact .ok (.silent (.loopEnd ..) rfl rfl ⟨rfl, .cons later rest⟩)

/-- A token fails in both runs alike, or leaves them in lockstep: what is asked of a value is its
kind and the number of its items, and the text of a scalar is only written.
-/
theorem step (same : Value.SameShape (.table root) (.table root'))
    (h : Lockstep tokens root root' run run') (member : token ∈ tokens)
    : Alike (StepsAlike tokens root root' token run run') (run.step root token)
        (run'.step root' token) := by
  have scopes := scopeTwins_of_frames same h.frames
  cases token with
  | literal text position => exact .ok (h.write (.literal ..))
  | escaped text position => exact .ok (h.write (.escaped ..))
  | placeholder path position =>
      have found := scopes.resolveScalar path (some position)
      simp only [Run.step, Run.scope]
      generalize Scope.resolveScalar _ path (some position) = scalar at found
      generalize Scope.resolveScalar _ path (some position) = scalar' at found
      cases found with
      | error cause => exact .error _
      | ok twins =>
          obtain ⟨address, leads, twins⟩ := twins
          exact .ok (h.write (.placeholder leads twins.here twins.here'))
  | loopStart path binding body position =>
      have found := scopes.resolveList path (some position)
      simp only [Run.step, Run.scope]
      generalize Scope.resolveList _ path (some position) = items at found
      generalize Scope.resolveList _ path (some position) = items' at found
      cases found with
      | error cause => exact .error _
      | ok twins => exact .ok (h.enter member twins)
  | loopEnd start position => exact h.turn start position

end Lockstep

/-- Two runs process the same tokens, end with these texts, and add the chunks that belong to those
tokens.
-/
def EndAlike (tokens : Array Token) (root root' : Table) (run run' : Run) (text text' : String)
    : Prop :=
  ∃ processed last last' chunks chunks',
    Passes tokens root run (processed.map Token.position) last
    ∧ Passes tokens root' run' (processed.map Token.position) last'
    ∧ last.text = text
    ∧ last'.text = text'
    ∧ last.chunks.reverse = run.chunks.reverse ++ chunks
    ∧ last'.chunks.reverse = run'.chunks.reverse ++ chunks'
    ∧ AllWriteAlike tokens root root' processed chunks chunks'

theorem EndAlike.refl (run run' : Run) : EndAlike tokens root root' run run' run.text run'.text :=
  ⟨[], run, run', [], [], .refl _, .refl _, rfl, rfl, (List.append_nil _).symm,
    (List.append_nil _).symm, .nil⟩

/-- One token more at the front of two runs. -/
theorem EndAlike.cons {run run' next next' : Run} {token : Token} {text text' : String}
    (h : EndAlike tokens root root' next next' text text')
    (here : tokens[run.next]? = some token) (here' : tokens[run'.next]? = some token)
    (done : run.step root token = .ok next) (done' : run'.step root' token = .ok next')
    (stepped : StepsAlike tokens root root' token run run' next next')
    : EndAlike tokens root root' run run' text text' := by
  obtain ⟨processed, last, last', chunks, chunks', passes, passes', ends, ends', adds, adds',
    alike⟩ := h
  obtain ⟨wrote, wrote', writes, wrote_eq, wrote_eq'⟩ := stepped.chunks
  refine ⟨token :: processed, last, last', wrote ++ chunks, wrote' ++ chunks',
    .step here done passes, .step here' done' passes', ends, ends', ?_, ?_,
    .cons (Array.mem_of_getElem? here) writes alike⟩
  · rw [adds, wrote_eq, List.append_assoc]
  · rw [adds', wrote_eq', List.append_assoc]

/-- Runs in lockstep are completed alike within any budget, by induction on what is left of it. -/
theorem Lockstep.complete (same : Value.SameShape (.table root) (.table root'))
    {run run' : Run} (h : Lockstep tokens root root' run run') (budget left : Nat)
    : Alike (EndAlike tokens root root' run run') (run.complete tokens root budget left)
        (run'.complete tokens root' budget left) := by
  induction left generalizing run run' with
  | zero =>
      rw [Run.complete, Run.complete, ← h.next]
      cases tokens[run.next]? with
      | none => exact .ok (.refl run run')
      | some token => exact .error _
  | succ left ih =>
      rw [Run.complete, Run.complete, ← h.next]
      cases here : tokens[run.next]? with
      | none => exact .ok (.refl run run')
      | some token =>
          have stepped := h.step same (Array.mem_of_getElem? here)
          generalize done : run.step root token = result at stepped
          generalize done' : run'.step root' token = result' at stepped
          simp only [done, done']
          cases stepped with
          | error stop => exact .error stop
          | ok stepped =>
              exact (ih stepped.lockstep).imp fun text text' ends =>
                ends.cons here (h.next ▸ here) done done' stepped

end Run

end

/-- Against two contexts of the same shape a template either gives the same error, at whatever
budget, or the runs process the same tokens, and each of these writes the same text in both runs,
except that a placeholder writes the texts of the scalars at one address of either context, to which
its path leads.
-/
theorem renderTokens_of_sameShape {text : String} {tokens : Array Token}
    (tokenized : tokenize text = .ok tokens) {root root' : Table}
    (same : Value.SameShape (.table root) (.table root')) (budget : Nat)
    : (∃ cause,
        renderTokens tokens root budget = .error (.error cause)
        ∧ renderTokens tokens root' budget = .error (.error cause))
      ∨ ∃ processed last last',
          Run.Passes tokens root .initial (processed.map Token.position) last
          ∧ Run.Passes tokens root' .initial (processed.map Token.position) last'
          ∧ renderTokens tokens root budget = .ok (String.join last.chunks.reverse)
          ∧ renderTokens tokens root' budget = .ok (String.join last'.chunks.reverse)
          ∧ AllWriteAlike tokens root root' processed last.chunks.reverse last'.chunks.reverse := by
  have start : Run.Lockstep tokens root root' .initial .initial := .initial
  have completed := start.complete same budget budget
  generalize rendered : Run.initial.complete tokens root budget budget = outcome at completed
  generalize rendered' : Run.initial.complete tokens root' budget budget = outcome' at completed
  cases completed with
  | error stop =>
      obtain ⟨cause, rfl⟩ := exists_cause_of_renderTokens tokenized rendered
      exact .inl ⟨cause, rendered, rendered'⟩
  | ok ends =>
      obtain ⟨processed, last, last', chunks, chunks', passes, passes', rfl, rfl, all, all',
        alike⟩ := ends
      refine .inr ⟨processed, last, last', passes, passes', rendered, rendered', ?_⟩
      rw [all, all']
      exact alike

/-- An item that spells a loop end does not end the loop: it is written where a harmless item is
written, and with fewer steps the run stops at the same token.
-/
theorem renderTokens_of_sameShape_tag
    : let tokens : Array Token :=
        #[.loopStart ["xs"] "x" ⟨1, 2⟩ ⟨0, 1, 1⟩, .placeholder ["x"] ⟨15, 1, 16⟩,
          .loopEnd 0 ⟨20, 1, 21⟩]
      let root (item : String) : Table := [("xs", .list [.scalar (.string item)])]
      let tag := "\x7b\x7b/each\x7d\x7d"
      let stopped : Except Stop String := .error (.error (.outOfSteps 2 ⟨20, 1, 21⟩))
      tokenize "\x7b\x7beach xs |x|\x7d\x7d\x7b\x7bx\x7d\x7d\x7b\x7b/each\x7d\x7d" = .ok tokens
        ∧ Value.SameShape (.table (root "a")) (.table (root tag))
        ∧ renderTokens tokens (root "a") 2 = stopped
        ∧ renderTokens tokens (root tag) 2 = stopped
        ∧ renderTokens tokens (root "a") 3 = .ok "a"
        ∧ renderTokens tokens (root tag) 3 = .ok tag
        ∧ ∃ processed chunks chunks',
            AllWriteAlike tokens (root "a") (root tag) processed chunks chunks'
            ∧ String.join chunks = "a"
            ∧ String.join chunks' = tag := by
  intro tokens root tag stopped
  have tokenized
      : tokenize "\x7b\x7beach xs |x|\x7d\x7d\x7b\x7bx\x7d\x7d\x7b\x7b/each\x7d\x7d" = .ok tokens := by
    cbv
  have same (item item' : String) : Value.SameShape (.table (root item)) (.table (root item')) := by
    refine .table fun key => ?_
    simp only [root, Table.lookup_entry]
    split
    · exact .some (.list (.cons (.scalar rfl) .nil))
    · exact .none
  have stops : renderTokens tokens (root "a") 2 = stopped := by rfl
  have writes : renderTokens tokens (root "a") 3 = .ok "a" := by rfl
  have writes' : renderTokens tokens (root tag) 3 = .ok tag := by rfl
  refine ⟨tokenized, same _ _, stops, ?_, writes, writes', ?_⟩
  · rcases renderTokens_of_sameShape tokenized (same "a" tag) 2
      with ⟨cause, here, here'⟩ | ⟨_, _, _, _, _, here, _⟩
    · rw [here', ← here, stops]
    · rw [stops] at here
      simp [stopped] at here
  · rcases renderTokens_of_sameShape tokenized (same "a" tag) 3
      with ⟨cause, here, _⟩ | ⟨processed, last, last', _, _, here, here', alike⟩
    · rw [writes] at here
      cases here
    · rw [writes] at here
      rw [writes'] at here'
      exact ⟨processed, _, _, alike, (Except.ok.inj here).symm, (Except.ok.inj here').symm⟩

end Stencil.Template
