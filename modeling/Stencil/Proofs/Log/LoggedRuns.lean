import Stencil.Log
import Stencil.Proofs.Files.DiskRuns

/-! What actions that write log entries do to a workspace. The outcome of a sequence is taken apart
into those of its parts, and the log is passed on between them.
-/

namespace Stencil.Log

open Stencil.Files (Workspace outcome ReadsOnly)

variable {ε ε' α β : Type} {log log' : List Entry} {workspace after : Workspace}

/-- What comes of an action, with the log and the workspace after it. -/
def loggedOutcome (action : ExceptT ε (Logged (StateM Workspace)) α) (log : List Entry)
    (workspace : Workspace)
    : (Except ε α × List Entry) × Workspace :=
  Id.run ((action.run.run log).run workspace)

theorem loggedOutcome_bind (action : ExceptT ε (Logged (StateM Workspace)) α)
    (next : α → ExceptT ε (Logged (StateM Workspace)) β) (log : List Entry) (workspace : Workspace)
    : loggedOutcome (action >>= next) log workspace
      = match loggedOutcome action log workspace with
        | ((.ok value, log'), middle) => loggedOutcome (next value) log' middle
        | ((.error fault, log'), middle) => ((.error fault, log'), middle) := by
  change (match (action.run.run log).run workspace with
    | ((result, log'), middle) => ((ExceptT.bindCont next result).run log').run middle) = _
  rcases found : loggedOutcome action log workspace with ⟨⟨_ | _, log'⟩, middle⟩ <;>
    rw [show (action.run.run log).run workspace = _ from found] <;> rfl

theorem loggedOutcome_lift (action : ExceptT ε (StateM Workspace) α) (log : List Entry)
    (workspace : Workspace)
    : loggedOutcome (ExceptT.mk (StateT.lift action.run)) log workspace
      = (((outcome action workspace).1, log), (outcome action workspace).2) :=
  rfl

theorem loggedOutcome_adapt (f : ε → ε') (action : ExceptT ε (Logged (StateM Workspace)) α)
    (log : List Entry) (workspace : Workspace)
    : loggedOutcome (action.adapt f) log workspace
      = (((loggedOutcome action log workspace).1.1.mapError f,
          (loggedOutcome action log workspace).1.2),
        (loggedOutcome action log workspace).2) :=
  rfl

theorem bind_eq_ok {action : ExceptT ε (Logged (StateM Workspace)) α}
    {next : α → ExceptT ε (Logged (StateM Workspace)) β} {result : β}
    (h : loggedOutcome (action >>= next) log workspace = ((.ok result, log'), after))
    : ∃ value log₁ middle,
        loggedOutcome action log workspace = ((.ok value, log₁), middle)
        ∧ loggedOutcome (next value) log₁ middle = ((.ok result, log'), after) := by
  rw [loggedOutcome_bind] at h
  rcases found : loggedOutcome action log workspace with ⟨⟨_ | value, log₁⟩, middle⟩
  · rw [found] at h
    cases h
  · rw [found] at h
    exact ⟨value, log₁, middle, rfl, h⟩

theorem lift_eq_ok {action : ExceptT ε (StateM Workspace) α} {value : α}
    (h : loggedOutcome (ExceptT.mk (StateT.lift action.run)) log workspace
      = ((.ok value, log'), after))
    : log' = log ∧ outcome action workspace = (.ok value, after) := by
  rw [loggedOutcome_lift] at h
  obtain ⟨same, rfl⟩ := Prod.mk.inj h
  obtain ⟨isOk, rfl⟩ := Prod.mk.inj same
  exact ⟨rfl, Prod.ext isOk rfl⟩

theorem adapt_eq_ok {f : ε → ε'} {action : ExceptT ε (Logged (StateM Workspace)) α} {value : α}
    (h : loggedOutcome (action.adapt f) log workspace = ((.ok value, log'), after))
    : loggedOutcome action log workspace = ((.ok value, log'), after) := by
  rw [loggedOutcome_adapt] at h
  rcases found : loggedOutcome action log workspace with ⟨⟨_ | _, _⟩, _⟩ <;>
    simp_all [Except.mapError]

-----------------------------------------------------------------------------------------
-- Actions that change nothing but the log
-----------------------------------------------------------------------------------------

/-- An action that leaves every workspace as it is. -/
def OnlyNotes (action : ExceptT ε (Logged (StateM Workspace)) α) : Prop :=
  ∀ log workspace, (loggedOutcome action log workspace).2 = workspace

theorem OnlyNotes.eq {action : ExceptT ε (Logged (StateM Workspace)) α} (h : OnlyNotes action)
    {result : Except ε α × List Entry}
    (found : loggedOutcome action log workspace = (result, after))
    : after = workspace := by
  rw [← h log workspace, found]

theorem onlyNotes_pure (value : α)
    : OnlyNotes (pure value : ExceptT ε (Logged (StateM Workspace)) α) :=
  fun _ _ => rfl

theorem onlyNotes_throw (fault : ε)
    : OnlyNotes (throw fault : ExceptT ε (Logged (StateM Workspace)) α) :=
  fun _ _ => rfl

theorem onlyNotes_note (entry : Entry)
    : OnlyNotes (ExceptT.lift (note entry) : ExceptT ε (Logged (StateM Workspace)) Unit) :=
  fun _ _ => rfl

theorem onlyNotes_lift {action : ExceptT ε (StateM Workspace) α} (h : ReadsOnly action)
    : OnlyNotes (ExceptT.mk (StateT.lift action.run) : ExceptT ε (Logged (StateM Workspace)) α) :=
  fun _ workspace => h workspace

theorem OnlyNotes.adapt {action : ExceptT ε (Logged (StateM Workspace)) α} (h : OnlyNotes action)
    (f : ε → ε')
    : OnlyNotes (action.adapt f) :=
  h

theorem OnlyNotes.bind {action : ExceptT ε (Logged (StateM Workspace)) α}
    {next : α → ExceptT ε (Logged (StateM Workspace)) β} (h : OnlyNotes action)
    (h' : ∀ value, OnlyNotes (next value))
    : OnlyNotes (action >>= next) := by
  intro log workspace
  rw [loggedOutcome_bind]
  rcases found : loggedOutcome action log workspace with ⟨⟨_ | value, log'⟩, middle⟩
  · exact h.eq found
  · exact (h' value log' middle).trans (h.eq found)

theorem onlyNotes_mapM {action : α → ExceptT ε (Logged (StateM Workspace)) β}
    (h : ∀ item, OnlyNotes (action item)) (items : List α)
    : OnlyNotes (items.mapM action) := by
  induction items with
  | nil => exact onlyNotes_pure _
  | cons item items ih =>
      rw [List.mapM_cons]
      exact (h item).bind fun _ => ih.bind fun _ => onlyNotes_pure _

/-- The results for the items of a list, if none of them fails, by induction on the list. The log
that an item finds depends on those before it.
-/
theorem forall₂_of_mapM {action : α → ExceptT ε (Logged (StateM Workspace)) β}
    (h : ∀ item, OnlyNotes (action item)) {items : List α} {results : List β}
    (found : loggedOutcome (items.mapM action) log workspace = ((.ok results, log'), after))
    : List.Forall₂
        (fun item result => ∃ log log',
          loggedOutcome (action item) log workspace = ((.ok result, log'), workspace))
        items results := by
  induction items generalizing results log with
  | nil =>
      cases found
      exact .nil
  | cons item items ih =>
      rw [List.mapM_cons] at found
      obtain ⟨result, log₁, middle, first, found⟩ := bind_eq_ok found
      cases (h item).eq first
      obtain ⟨more, log₂, middle, later, found⟩ := bind_eq_ok found
      cases found
      exact .cons ⟨_, _, first⟩ (ih later)

-----------------------------------------------------------------------------------------
-- Actions with a result of their own
-----------------------------------------------------------------------------------------

/-- An action gives a result on a workspace, whatever the log is, and leaves the workspace as it is.
-/
def Yields (action : ExceptT ε (Logged (StateM Workspace)) α) (workspace : Workspace)
    (result : Except ε α) : Prop :=
  ∀ log, ∃ log', loggedOutcome action log workspace = ((result, log'), workspace)

theorem yields_pure (result : Except ε α) (workspace : Workspace)
    : Yields (ExceptT.mk (pure result)) workspace result :=
  fun log => ⟨log, rfl⟩

theorem yields_note (entry : Entry) (workspace : Workspace)
    : Yields (ExceptT.lift (note entry) : ExceptT ε (Logged (StateM Workspace)) Unit) workspace
        (.ok ()) :=
  fun log => ⟨entry :: log, rfl⟩

theorem yields_lift {action : ExceptT ε (StateM Workspace) α} (h : ReadsOnly action)
    (workspace : Workspace)
    : Yields (ExceptT.mk (StateT.lift action.run)) workspace (outcome action workspace).1 := by
  intro log
  refine ⟨log, ?_⟩
  rw [loggedOutcome_lift, h workspace]

theorem Yields.adapt {action : ExceptT ε (Logged (StateM Workspace)) α} {result : Except ε α}
    (h : Yields action workspace result) (f : ε → ε')
    : Yields (action.adapt f) workspace (result.mapError f) := by
  intro log
  obtain ⟨log', found⟩ := h log
  exact ⟨log', by rw [loggedOutcome_adapt, found]⟩

/-- A sequence gives what its parts give, one after the other. -/
theorem Yields.bind {action : ExceptT ε (Logged (StateM Workspace)) α} {result : Except ε α}
    {next : α → ExceptT ε (Logged (StateM Workspace)) β} {later : α → Except ε β}
    (h : Yields action workspace result) (h' : ∀ value, Yields (next value) workspace (later value))
    : Yields (action >>= next) workspace (result >>= later) := by
  intro log
  obtain ⟨log', found⟩ := h log
  rw [loggedOutcome_bind, found]
  cases result with
  | error fault => exact ⟨log', rfl⟩
  | ok value => exact h' value log'

/-- A sequence whose first part succeeds gives what the rest gives. -/
theorem Yields.ok_bind {action : ExceptT ε (Logged (StateM Workspace)) α} {value : α}
    {next : α → ExceptT ε (Logged (StateM Workspace)) β} {result : Except ε β}
    (h : Yields action workspace (.ok value)) (h' : Yields (next value) workspace result)
    : Yields (action >>= next) workspace result := by
  intro log
  obtain ⟨log', found⟩ := h log
  rw [loggedOutcome_bind, found]
  exact h' log'

theorem Yields.error_bind {action : ExceptT ε (Logged (StateM Workspace)) α} {fault : ε}
    (h : Yields action workspace (.error fault))
    (next : α → ExceptT ε (Logged (StateM Workspace)) β)
    : Yields (action >>= next) workspace (.error fault) := by
  intro log
  obtain ⟨log', found⟩ := h log
  rw [loggedOutcome_bind, found]
  exact ⟨log', rfl⟩

/-- Doing the same for each item of a list gives the results for the items, by induction on the
list.
-/
theorem Yields.mapM {action : α → ExceptT ε (Logged (StateM Workspace)) β} {result : α → Except ε β}
    (h : ∀ item, Yields (action item) workspace (result item)) (items : List α)
    : Yields (items.mapM action) workspace (items.mapM result) := by
  induction items with
  | nil => exact yields_pure (.ok []) workspace
  | cons item items ih =>
      rw [List.mapM_cons, List.mapM_cons]
      exact (h item).bind fun _ => ih.bind fun _ => yields_pure _ workspace

-----------------------------------------------------------------------------------------
-- Actions with the same result in two workspaces
-----------------------------------------------------------------------------------------

variable {ι : Type} {first second : Workspace}

/-- An action gives the same in two workspaces, whatever the logs are. -/
def YieldsAlike (first second : Workspace) (action : ExceptT ε (Logged (StateM Workspace)) α)
    : Prop :=
  ∃ result, Yields action first result ∧ Yields action second result

theorem yieldsAlike_pure (result : Except ε α)
    : YieldsAlike first second (ExceptT.mk (pure result)) :=
  ⟨result, yields_pure result first, yields_pure result second⟩

theorem yieldsAlike_note (entry : Entry)
    : YieldsAlike first second
        (ExceptT.lift (note entry) : ExceptT ε (Logged (StateM Workspace)) Unit) :=
  ⟨.ok (), yields_note entry first, yields_note entry second⟩

theorem yieldsAlike_lift {action : ExceptT ε (StateM Workspace) α} (h : ReadsOnly action)
    (same : (outcome action second).1 = (outcome action first).1)
    : YieldsAlike first second (ExceptT.mk (StateT.lift action.run)) :=
  ⟨_, yields_lift h first, same ▸ yields_lift h second⟩

theorem YieldsAlike.adapt {action : ExceptT ε (Logged (StateM Workspace)) α}
    (h : YieldsAlike first second action) (f : ε → ε')
    : YieldsAlike first second (action.adapt f) := by
  obtain ⟨result, yields, yields'⟩ := h
  exact ⟨_, yields.adapt f, yields'.adapt f⟩

/-- A sequence gives the same if its first part does, and the rest does after what that gives. -/
theorem YieldsAlike.bind {action : ExceptT ε (Logged (StateM Workspace)) α}
    {next : α → ExceptT ε (Logged (StateM Workspace)) β} (h : YieldsAlike first second action)
    (h' : ∀ value, Yields action first (.ok value) → YieldsAlike first second (next value))
    : YieldsAlike first second (action >>= next) := by
  obtain ⟨result, yields, yields'⟩ := h
  cases result with
  | error fault => exact ⟨_, yields.error_bind next, yields'.error_bind next⟩
  | ok value =>
      obtain ⟨later, rest, rest'⟩ := h' value yields
      exact ⟨later, yields.ok_bind rest, yields'.ok_bind rest'⟩

/-- What all items give, by induction on the items. -/
theorem YieldsAlike.mapM {items : List ι} {action : ι → ExceptT ε (Logged (StateM Workspace)) β}
    (h : ∀ item ∈ items, YieldsAlike first second (action item))
    : YieldsAlike first second (items.mapM action) := by
  induction items with
  | nil => exact yieldsAlike_pure (.ok [])
  | cons item items ih =>
      rw [List.mapM_cons]
      exact (h item (List.mem_cons_self ..)).bind fun _ _ =>
        (ih fun other member => h other (List.mem_cons_of_mem _ member)).bind fun _ _ =>
          yieldsAlike_pure (.ok _)

end Stencil.Log
