import Stencil.Proofs.Template.FreeNames

/-! The variable of a loop under another name. The blocks of the body are evaluated as before if the
item stands under the new name and the paths that led to it start with that, up to these paths in
error messages.
-/

namespace Stencil.Template

/-- A path with a new name at its head in the place of an old one. -/
def renameHead (old new : String) : Path → Path
  | [] => []
  | head :: rest => (if head = old then new else head) :: rest

/-- The name that a loop start binds. -/
def Token.binding? : Token → Option String
  | literal _ _ => none
  | escaped _ _ => none
  | placeholder _ _ => none
  | loopStart _ binding _ _ => some binding
  | loopEnd _ _ => none

/-- Errors of one kind at one position whose paths differ at most in the name at the head. -/
inductive RenamedError (old new : String) : Error → Error → Prop
  | same (cause : Error) : RenamedError old new cause cause
  | unknownKey (path : Path) (position? : Option Position)
    : RenamedError old new (.unknownKey path.format position?)
        (.unknownKey (renameHead old new path).format position?)
  | kindMismatch (path : Path) (expected : Shape) (actual : Kind) (position? : Option Position)
    : RenamedError old new (.kindMismatch path.format expected actual position?)
        (.kindMismatch (renameHead old new path).format expected actual position?)

/-- The same result, or errors that differ at most in the name at the head of their paths. -/
inductive SameUpTo (old new : String) {α : Type} : Except Error α → Except Error α → Prop
  | ok (result : α) : SameUpTo old new (.ok result) (.ok result)
  | error {cause cause' : Error} (renamed : RenamedError old new cause cause')
    : SameUpTo old new (.error cause) (.error cause')

variable {old new : String} {α β : Type}

theorem SameUpTo.refl (outcome : Except Error α) : SameUpTo old new outcome outcome := by
  cases outcome with
  | ok result => exact .ok result
  | error cause => exact .error (.same cause)

theorem SameUpTo.map {first second : Except Error α} (h : SameUpTo old new first second) (f : α → β)
    : SameUpTo old new (first.map f) (second.map f) := by
  cases h with
  | ok result => exact .ok (f result)
  | error renamed => exact .error renamed

-----------------------------------------------------------------------------------------
-- Looking up paths
-----------------------------------------------------------------------------------------

/-- Entries of which the second have under the new name what the first have under the old one, and
the same under every other name.
-/
structure RenamesEntry (old new : String) (entries entries' : Table) : Prop where
  renamed : entries.lookup old = entries'.lookup new
  others (name : String) : name ≠ old → name ≠ new → entries.lookup name = entries'.lookup name

/-- An item under either name in front of the same entries. -/
theorem renamesEntry_cons (item : Value) (entries : Table)
    : RenamesEntry old new ((old, item) :: entries) ((new, item) :: entries) := by
  refine ⟨by simp, fun name notOld notNew => ?_⟩
  simp [List.lookup_cons, beq_false_of_ne notOld, beq_false_of_ne notNew]

/-- An item under a third name in front of both entries. -/
theorem RenamesEntry.cons {entries entries' : Table} (h : RenamesEntry old new entries entries')
    {binding : String} (notOld : binding ≠ old) (notNew : binding ≠ new) (item : Value)
    : RenamesEntry old new ((binding, item) :: entries) ((binding, item) :: entries') := by
  refine ⟨?_, fun name notOld notNew => ?_⟩
  · simp [List.lookup_cons, beq_false_of_ne notOld.symm, beq_false_of_ne notNew.symm, h.renamed]
  · simp only [List.lookup_cons, h.others name notOld notNew]

section

variable {entries entries' : Table} (renames : RenamesEntry old new entries entries') {path : Path}
  (lacks : path.head? ≠ some new)

include renames lacks

theorem valueAt_renameHead : valueAt entries path = valueAt entries' (renameHead old new path) := by
  cases path with
  | nil => rfl
  | cons head rest =>
      have notNew : head ≠ new := by simpa using lacks
      have first : entries.lookup head = entries'.lookup (if head = old then new else head) := by
        split
        · rename_i isOld
          rw [isOld, renames.renamed]
        · rename_i notOld
          exact renames.others head notOld notNew
      simp only [renameHead, valueAt, List.foldlM_cons, Value.member?, first]

theorem scalarAt_renameHead (position : Position)
    : SameUpTo old new (scalarAt entries path position)
        (scalarAt entries' (renameHead old new path) position) := by
  rw [scalarAt, scalarAt, ← valueAt_renameHead renames lacks]
  cases valueAt entries path with
  | none => exact .error (.unknownKey path _)
  | some value =>
      cases value with
      | scalar scalar => exact .ok scalar
      | list items => exact .error (.kindMismatch path _ _ _)
      | table entries => exact .error (.kindMismatch path _ _ _)

theorem itemsAt_renameHead (position : Position)
    : SameUpTo old new (itemsAt entries path position)
        (itemsAt entries' (renameHead old new path) position) := by
  rw [itemsAt, itemsAt, ← valueAt_renameHead renames lacks]
  cases valueAt entries path with
  | none => exact .error (.unknownKey path _)
  | some value =>
      cases value with
      | scalar scalar => exact .error (.kindMismatch path _ _ _)
      | list items => exact .ok items
      | table entries => exact .error (.kindMismatch path _ _ _)

end

-----------------------------------------------------------------------------------------
-- Evaluations
-----------------------------------------------------------------------------------------

/-- Evaluations that visit the same tokens with the same outcome, up to names in errors. -/
structure Visit.SameUpTo (old new : String) (first second : Visit) : Prop where
  visited : first.visited = second.visited
  outcome : Template.SameUpTo old new first.outcome second.outcome

namespace Visit.SameUpTo

theorem refl (visit : Visit) : SameUpTo old new visit visit :=
  ⟨rfl, .refl visit.outcome⟩

theorem one {outcome outcome' : Except Error String} (position : Position)
    (h : Template.SameUpTo old new outcome outcome')
    : SameUpTo old new (Visit.one position outcome) (Visit.one position outcome') :=
  ⟨rfl, h⟩

theorem andThen {first first' second second' : Visit} (h : SameUpTo old new first first')
    (h' : SameUpTo old new second second')
    : SameUpTo old new (first.andThen second) (first'.andThen second') := by
  obtain ⟨visited, outcome⟩ := first
  obtain ⟨visited', outcome'⟩ := first'
  obtain ⟨rfl, same⟩ := h
  simp only at same
  cases same with
  | ok text => exact ⟨congrArg (visited ++ ·) h'.visited, h'.outcome.map _⟩
  | error renamed => exact ⟨rfl, .error renamed⟩

/-- The turns of a loop are the same as each of them is, by induction on the items. -/
theorem sequence {turn turn' : Value → Visit} (each : ∀ item, SameUpTo old new (turn item) (turn' item))
    (items : List Value)
    : SameUpTo old new (Visit.sequence (items.map turn)) (Visit.sequence (items.map turn')) := by
  induction items with
  | nil => exact .refl _
  | cons item items ih => exact (each item).andThen ih

end Visit.SameUpTo

-----------------------------------------------------------------------------------------
-- Blocks
-----------------------------------------------------------------------------------------

/-- A leaf with a new name at the head of its path in the place of an old one. -/
def Leaf.rename (old new : String) : Leaf → Leaf
  | literal text position => literal text position
  | escaped text position => escaped text position
  | placeholder path position => placeholder (renameHead old new path) position

namespace Blocks

/-- Blocks with a new name in the place of an old one where no loop of theirs binds the old one. -/
def renameFree (old new : String) : Blocks → Blocks
  | done => done
  | leaf first rest => leaf (first.rename old new) (rest.renameFree old new)
  | loop path binding start body stop rest =>
    loop (renameHead old new path) binding start
      (if binding = old then body else body.renameFree old new) stop (rest.renameFree old new)

/-- No path of the blocks starts with a name, and no loop of theirs binds it. -/
def Lacks (name : String) : Blocks → Prop
  | done => True
  | leaf first rest => first.token.head? ≠ some name ∧ rest.Lacks name
  | loop path binding _ body _ rest =>
    path.head? ≠ some name ∧ binding ≠ name ∧ body.Lacks name ∧ rest.Lacks name

@[simp] theorem size_renameFree (old new : String) (blocks : Blocks)
    : (blocks.renameFree old new).size = blocks.size := by
  induction blocks with
  | done => rfl
  | leaf first rest ih => simp [renameFree, ih]
  | loop path binding start body stop rest bodyIH ih =>
      simp only [renameFree, size, ih]
      split <;> simp [bodyIH]

theorem Lacks.not_reads {name : String} {blocks : Blocks} (h : blocks.Lacks name)
    : ¬ blocks.Reads name := by
  induction blocks with
  | done => exact not_false
  | leaf first rest ih =>
      rintro (isHead | reads)
      · exact h.1 isHead
      · exact ih h.2 reads
  | loop path binding start body stop rest bodyIH ih =>
      obtain ⟨notHead, _, inBody, inRest⟩ := h
      rintro (isHead | ⟨_, reads⟩ | reads)
      · exact notHead isHead
      · exact bodyIH inBody reads
      · exact ih inRest reads

/-- The names of entries may change with those in the blocks. By induction over the blocks: a loop
that binds the old name has the same item under it on both sides.
-/
theorem visit_renameFree {blocks : Blocks} (lacks : blocks.Lacks new) {entries entries' : Table}
    (renames : RenamesEntry old new entries entries')
    : Visit.SameUpTo old new (blocks.visit entries)
        ((blocks.renameFree old new).visit entries') := by
  induction blocks generalizing entries entries' with
  | done => exact .refl _
  | leaf first rest ih =>
      have here : Visit.SameUpTo old new (first.visit entries)
          ((first.rename old new).visit entries') := by
        cases first with
        | literal text position => exact .refl _
        | escaped text position => exact .refl _
        | placeholder path position =>
            exact .one position ((scalarAt_renameHead renames lacks.1 position).map Scalar.text)
      exact here.andThen (ih lacks.2 renames)
  | loop path binding start body stop rest bodyIH ih =>
      obtain ⟨notHead, notNew, inBody, inRest⟩ := lacks
      have inside (item : Value)
          : Visit.SameUpTo old new (body.visit ((binding, item) :: entries))
              ((if binding = old then body else body.renameFree old new).visit
                ((binding, item) :: entries')) := by
        split
        · rename_i isOld
          subst isOld
          have same : body.visit ((binding, item) :: entries)
              = body.visit ((binding, item) :: entries') := by
            refine visit_congr fun name reads => ?_
            have isOther : name ≠ new := fun isNew => inBody.not_reads (isNew ▸ reads)
            by_cases isOld : name = binding
            · simp [isOld]
            · simp [List.lookup_cons, beq_false_of_ne isOld, renames.others name isOld isOther]
          exact same ▸ .refl _
        · rename_i notOld
          exact bodyIH inBody (renames.cons notOld notNew item)
      have items := itemsAt_renameHead renames notHead start
      simp only [visit, renameFree]
      generalize itemsAt entries path start = found at items
      generalize itemsAt entries' (renameHead old new path) start = found' at items
      cases items with
      | error renamed => exact .one start (.error renamed)
      | ok items =>
          have turns := Visit.SameUpTo.sequence
            (fun item => (inside item).andThen (.refl (.one stop (.ok "")))) items
          exact ((Visit.SameUpTo.refl _).andThen turns).andThen (ih inRest renames)

/-- Blocks whose first token has an index, with the variable of the loop that starts at another index
under a new name.
-/
def renameLoop (start : Nat) (new : String) : Nat → Blocks → Blocks
  | _, done => done
  | index, leaf first rest => leaf first (rest.renameLoop start new (index + 1))
  | index, loop path binding position body stop rest =>
    let rest' := rest.renameLoop start new (index + body.size + 2)
    if index = start then loop path new position (body.renameFree binding new) stop rest'
    else loop path binding position (body.renameLoop start new (index + 1)) stop rest'

@[simp] theorem size_renameLoop (start : Nat) (new : String) (index : Nat) (blocks : Blocks)
    : (blocks.renameLoop start new index).size = blocks.size := by
  induction blocks generalizing index with
  | done => rfl
  | leaf first rest ih => simp [renameLoop, ih]
  | loop path binding position body stop rest bodyIH ih =>
      simp only [renameLoop]
      split <;> simp [ih, bodyIH]

variable {tokens : Array Token}

/-- The variable of a loop may have a new name, by induction over the blocks around it. -/
theorem visit_renameLoop {blocks : Blocks} {index start : Nat} (stands : blocks.At tokens index)
    (lacks : blocks.Lacks new)
    (isOld : ∀ path binding body position,
      tokens[start]? = some (.loopStart path binding body position) → binding = old)
    (entries : Table)
    : Visit.SameUpTo old new (blocks.visit entries)
        ((blocks.renameLoop start new index).visit entries) := by
  induction blocks generalizing index entries with
  | done => exact .refl _
  | leaf first rest ih => exact (Visit.SameUpTo.refl _).andThen (ih stands.2 lacks.2 entries)
  | loop path binding position body stop rest bodyIH ih =>
      obtain ⟨starts, inside, _, after⟩ := stands
      obtain ⟨_, _, inBody, inRest⟩ := lacks
      simp only [renameLoop]
      split
      · rename_i here
        obtain rfl : binding = old := isOld _ _ _ _ (here ▸ starts)
        have inside (item : Value)
            : Visit.SameUpTo binding new (body.visit ((binding, item) :: entries))
                ((body.renameFree binding new).visit ((new, item) :: entries)) :=
          visit_renameFree inBody (renamesEntry_cons item entries)
        simp only [visit]
        cases itemsAt entries path position with
        | error cause => exact .refl _
        | ok items =>
            have turns := Visit.SameUpTo.sequence
              (fun item => (inside item).andThen (.refl (.one stop (.ok "")))) items
            exact ((Visit.SameUpTo.refl _).andThen turns).andThen (ih after inRest entries)
      · simp only [visit]
        cases itemsAt entries path position with
        | error cause => exact .refl _
        | ok items =>
            have turns := Visit.SameUpTo.sequence
              (fun item => (bodyIH inside inBody ((binding, item) :: entries)).andThen
                (.refl (.one stop (.ok "")))) items
            exact ((Visit.SameUpTo.refl _).andThen turns).andThen (ih after inRest entries)

end Blocks

end Stencil.Template
