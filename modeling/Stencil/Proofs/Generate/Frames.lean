import Stencil.Proofs.Files.Edits
import Stencil.Proofs.Generate.TargetRuns

/-! What generating a target leaves as it is. Nothing is listed differently below a location that is
apart from the output directory, and the file tree stays well-formed.
-/

namespace Stencil.Generate

open Stencil.Files
open Stencil.Files.FileTree (Touched not_prefix_of_apart)

variable {before after : Workspace} {output fresh location : Location} {plan : Plan}

/-- The places that writing a plan by way of a new directory touches. -/
def touchedBy (output fresh : Location) : Touched where
  put place := fresh <+: place ∨ place <+: output.dropLast
  cut place := fresh <+: place ∨ place = output

/-- Two locations neither of which is at or below the other. -/
structure Apart (first second : Location) : Prop where
  notAbove : ¬ first <+: second
  notBelow : ¬ second <+: first

instance (first second : Location) : Decidable (Apart first second) :=
  decidable_of_iff (¬ first <+: second ∧ ¬ second <+: first)
    ⟨fun ⟨notAbove, notBelow⟩ => ⟨notAbove, notBelow⟩, fun h => ⟨h.notAbove, h.notBelow⟩⟩

theorem touches_inside (output fresh names : Location)
    : (touchedBy output fresh).put (fresh ++ names)
      ∧ (touchedBy output fresh).cut (fresh ++ names) :=
  ⟨.inl (List.prefix_append _ _), .inl (List.prefix_append _ _)⟩

theorem cuts_output (output fresh : Location) : (touchedBy output fresh).cut output :=
  .inr rfl

/-- A location that is apart from the output directory and not in the new one is spared. -/
theorem spares_touchedBy (apart : Apart output location)
    (beside : fresh.dropLast = output.dropLast) (outside : ¬ fresh <+: location)
    (differ : location ≠ fresh)
    : (touchedBy output fresh).Spares location := by
  have notAboveParent {place : Location} (isAbove : place <+: output.dropLast)
      : ¬ location <+: place :=
    fun isBelow => apart.notBelow
      ((isBelow.trans isAbove).trans (List.dropLast_prefix _))
  have notInFresh {place : Location} (inFresh : fresh <+: place) : ¬ location <+: place := by
    intro isBelow
    rcases List.prefix_or_prefix_of_prefix inFresh isBelow with isAbove | isAbove
    · exact outside isAbove
    · rcases List.eq_nil_or_concat fresh with rfl | ⟨names, name, rfl⟩
      · exact outside List.nil_prefix
      · rw [List.concat_eq_append] at isAbove beside differ
        rw [List.dropLast_concat] at beside
        rcases List.prefix_concat_iff.1 isAbove with same | isAbove
        · exact differ same
        · exact notAboveParent (beside ▸ List.prefix_rfl) isAbove
  refine ⟨?_, ?_, ?_⟩
  · rintro place (inFresh | isAbove)
    · exact notInFresh inFresh
    · exact notAboveParent isAbove
  · rintro place (inFresh | rfl) isAbove
    · exact outside (inFresh.trans isAbove)
    · exact apart.notAbove isAbove
  · rintro place (inFresh | rfl)
    · exact notInFresh inFresh
    · exact apart.notBelow

-----------------------------------------------------------------------------------------
-- Writing
-----------------------------------------------------------------------------------------

section

variable (beside : fresh.dropLast = output.dropLast)

include beside

/-- The directories above a place in the new directory are in there or above the output directory.
-/
theorem touches_above {names place : Location} (isAbove : place <+: fresh ++ names)
    : (touchedBy output fresh).put place := by
  rcases List.prefix_or_prefix_of_prefix (List.prefix_append fresh names) isAbove
    with inFresh | short
  · exact .inl inFresh
  · rcases List.eq_nil_or_concat fresh with rfl | ⟨above, name, rfl⟩
    · exact .inl List.nil_prefix
    · rw [List.concat_eq_append] at short beside ⊢
      rw [List.dropLast_concat] at beside
      rcases List.prefix_concat_iff.1 short with same | short
      · exact .inl (same ▸ List.prefix_rfl)
      · exact .inr (beside ▸ short)

theorem keeps_edited_writeFiles (named : fresh.Named) (stays : plan.StaysBelow)
    : Keeps (Edited (touchedBy output fresh) before)
        (writeFiles (PathText.absolute fresh) plan) := by
  have parents {path : String} {names : Location} (spells : PathText.Spells path (fresh ++ names))
      : Keeps (Edited (touchedBy output fresh) before)
          (Disk.makeDirectories (PathText.parent path)) := by
    rw [spells.parent_eq]
    exact keeps_edited_makeDirectories (PathText.spells_absolute spells.named.dropLast)
      fun place isAbove => touches_above beside (isAbove.trans (List.dropLast_prefix _))
  have inside := touches_inside output fresh
  refine (Keeps.forM fun rendered member => ?_).bind fun _ => Keeps.forM fun file member => ?_
  · have spells := PathText.spells_append named (stays.rendered rendered member)
    exact (parents spells).bind fun _ => keeps_edited_write spells (inside _).1 _
  · have spells := PathText.spells_append named (stays.copied file member)
    exact (parents spells).bind fun _ =>
      keeps_edited_copy spells (inside _).1 (inside _).2 _

omit beside in
theorem keeps_edited_replaceFolder (named : fresh.Named) (named' : output.Named)
    : Keeps (Edited (touchedBy output fresh) before)
        (replaceFolder (PathText.absolute fresh) (PathText.absolute output)) := by
  have spells := PathText.spells_absolute named'
  have inside : (touchedBy output fresh).cut fresh := .inl List.prefix_rfl
  refine (keeps_edited_remove spells (cuts_output _ _)).bind fun _ => Keeps.bind ?_ fun _ => ?_
  · rw [spells.parent_eq]
    exact keeps_edited_makeDirectories (PathText.spells_absolute named'.dropLast)
      fun place isAbove => .inr isAbove
  · exact keeps_edited_move spells (PathText.spells_absolute named) (cuts_output _ _) inside

end

/-- Making the directory of the new directory touches places above the output directory only. -/
theorem edited_of_makeDirectories {touched : Touched} {result : Except Fault Unit}
    (named : output.Named) (above : ∀ place, place <+: output.dropLast → touched.put place)
    (h : outcome (Disk.makeDirectories (PathText.absolute output.dropLast)) before
      = (result, after))
    : Edited touched before after :=
  (keeps_edited_makeDirectories (PathText.spells_absolute named.dropLast) above).of_outcome
    (.refl _ _) h

/-- The new directory is put where nothing stood. -/
theorem edited_of_makeFreshIn {path : String} (wellFormed : before.tree.WellFormed)
    (named : output.Named)
    (h : outcome (makeFreshIn (PathText.parent (PathText.absolute output)) freshStem) before
      = (.ok path, after))
    : ∃ fresh,
        path = PathText.absolute fresh
        ∧ Prepared output fresh before after
        ∧ Edited (touchedBy output fresh) before after := by
  obtain ⟨fresh, rfl, prepared⟩ := prepared_of_makeFreshIn wellFormed named h
  obtain ⟨_, middle, made, h⟩ := bind_eq_ok.1 h
  rw [(PathText.spells_absolute named).parent_eq] at made h
  obtain ⟨tree, isMade, _, parent, _⟩ :=
    makeDirectories_eq_ok (PathText.spells_absolute named.dropLast) made
  obtain ⟨taken, same, isName, _, rfl⟩ := makeFresh_eq_ok named.dropLast isName_freshStem h
  obtain ⟨name, drawn⟩ : ∃ name, name = freshStem ++ middle.lottery.draw 0 taken := ⟨_, rfl⟩
  rw [← drawn] at same isName prepared ⊢
  have isNamed : Location.Named (output.dropLast ++ [name]) :=
    named.dropLast.concat isName
  obtain rfl : fresh = output.dropLast ++ [name] := by
    rw [← (PathText.spells_absolute prepared.named).locate_eq [], same,
      (PathText.spells_absolute isNamed).locate_eq]
  have inside : (touchedBy output (output.dropLast ++ [name])).put (output.dropLast ++ [name]) :=
    .inl List.prefix_rfl
  have above (place : Location) (isAbove : place <+: output.dropLast)
      : (touchedBy output (output.dropLast ++ [name])).put place :=
    .inr isAbove
  have edited := edited_of_makeDirectories named above made
  have folder : middle.tree.entry? (output.dropLast ++ [name]).dropLast = some .directory := by
    rw [List.dropLast_concat, isMade]
    exact parent
  have put : FileTree.Edit (touchedBy output (output.dropLast ++ [name])) middle.tree
      (middle.tree.put (output.dropLast ++ [name]) .directory) :=
    .put inside prepared.nonempty isNamed (.inr folder) (.inl rfl)
  exact ⟨_, rfl, prepared, edited.directory, middle.lottery.next_within.trans edited.draws,
    edited.edits.trans (.single put)⟩

/-- Writing a plan comes down to changes that spare each location which is apart from the output
directory, unless nothing stands there.
-/
theorem edited_of_writeOutput {result : Except Failure Unit} (wellFormed : before.tree.WellFormed)
    (named : output.Named) (stays : plan.StaysBelow)
    (h : outcome (writeOutput (PathText.absolute output) plan) before = (result, after))
    : ∃ touched : Touched,
        Edited touched before after
        ∧ ∀ location, Apart output location →
            touched.Spares location ∨ ∀ names, before.tree.entry? (location ++ names) = none := by
  rw [writeOutput, outcome_bind, outcome_adapt] at h
  rcases madeFresh : outcome (makeFreshIn (PathText.parent (PathText.absolute output)) freshStem)
    before with ⟨fault | path, made⟩ <;>
    rw [madeFresh] at h
  · cases h
    let touched : Touched := ⟨fun place => place <+: output.dropLast, fun _ => False⟩
    refine ⟨touched, ?_, fun location apart => .inl ⟨?_, fun _ => False.elim, fun _ => False.elim⟩⟩
    · rw [(PathText.spells_absolute named).parent_eq] at madeFresh
      rcases bind_eq_error.1 madeFresh with failed | ⟨_, _, makes, failed⟩
      · exact edited_of_makeDirectories named (fun _ => id) failed
      · cases makeFresh_eq_error named.dropLast isName_freshStem failed
        exact edited_of_makeDirectories named (fun _ => id) makes
    · exact fun place isAbove isBelow => apart.notBelow
        ((isBelow.trans isAbove).trans (List.dropLast_prefix _))
  · obtain ⟨fresh, rfl, prepared, edited⟩ := edited_of_makeFreshIn wellFormed named madeFresh
    have inside : (touchedBy output fresh).cut fresh := .inl List.prefix_rfl
    replace h : outcome _ made = (result, after) := h
    refine ⟨touchedBy output fresh, ?_, fun location apart => ?_⟩
    · refine Keeps.of_outcome (Keeps.bind (Keeps.attempt ?_) fun written => ?_) edited h
      · exact (keeps_edited_writeFiles prepared.beside prepared.named stays).bind fun _ =>
          keeps_edited_replaceFolder prepared.named named
      · split
        · exact keeps_pure _
        · exact ((keeps_edited_remove (PathText.spells_absolute prepared.named) inside).adapt _).bind
            fun _ => keeps_throw _
    · by_cases inFresh : fresh <+: location
      · obtain ⟨more, rfl⟩ := inFresh
        exact .inr fun names => by rw [List.append_assoc, prepared.missing]
      · exact .inl (spares_touchedBy apart prepared.beside inFresh fun same =>
          inFresh (same ▸ List.prefix_rfl))

/-- Outside the output directory, writing a plan adds at most directories above that. -/
theorem entry?_of_writeOutput {result : Except Failure Unit} (wellFormed : before.tree.WellFormed)
    (named : output.Named) (stays : plan.StaysBelow)
    (h : outcome (writeOutput (PathText.absolute output) plan) before = (result, after))
    (outside : ¬ output <+: location)
    : after.tree.entry? location = before.tree.entry? location
      ∨ before.tree.entry? location = none
        ∧ after.tree.entry? location = some .directory
        ∧ location <+: output.dropLast := by
  cases result with
  | error cause => exact (addsFolders_of_writeOutput wellFormed named stays h).2 location
  | ok _ =>
      obtain ⟨fresh, made, written, prepared, _, staged, swapped⟩ :=
        swapped_of_writeOutput wellFormed named stays h
      by_cases inFresh : fresh <+: location
      · obtain ⟨names, rfl⟩ := inFresh
        exact .inl (by rw [swapped.gone, prepared.missing])
      · rw [swapped.outside location outside inFresh]
        exact prepared.entry?_staged staged inFresh

/-- A workspace after a target has been generated: the file tree is well-formed, the working
directory is the same, the lottery goes on, and below a location that is apart from the output
directory all is listed as before.
-/
structure Framed (output : Location) (before after : Workspace) : Prop where
  directory : after.directory = before.directory
  draws : after.lottery.Within before.lottery
  wellFormed : after.tree.WellFormed
  listed (location : Location) : Apart output location →
    after.tree.listed location = before.tree.listed location

theorem framed_of_writeOutput {result : Except Failure Unit} (wellFormed : before.tree.WellFormed)
    (named : output.Named) (stays : plan.StaysBelow)
    (h : outcome (writeOutput (PathText.absolute output) plan) before = (result, after))
    : Framed output before after := by
  obtain ⟨touched, edited, spares⟩ := edited_of_writeOutput wellFormed named stays h
  have wellFormed' := edited.edits.wellFormed wellFormed
  refine ⟨edited.directory, edited.draws, wellFormed', fun location apart => ?_⟩
  rcases spares location apart with spared | missing
  · exact edited.edits.listed_eq spared
  · -- A new directory may have come and gone where nothing stands.
    rw [wellFormed.listed_eq_nil missing, wellFormed'.listed_eq_nil fun names => ?_]
    have outside : ¬ output <+: location ++ names :=
      not_prefix_of_apart apart.notBelow apart.notAbove (List.prefix_append location names)
    rcases entry?_of_writeOutput wellFormed named stays h outside with same | ⟨_, _, isAbove⟩
    · rw [same, missing]
    · exact absurd ((List.prefix_append location names).trans
        (isAbove.trans (List.dropLast_prefix _))) apart.notBelow

theorem framed_of_generated {root : String} {config : Config} {target : Config.Target} {isDry : Bool}
    {log : List Log.Entry} {result : Result}
    (accepted : Config.isSuffix config.naming.suffix = true) (wellFormed : before.tree.WellFormed)
    (statics : StaticsStayBelow root config target before)
    (h : generated root config isDry target log before = (result, after))
    : Framed (outputOf root config target) before after := by
  have unchanged : Framed (outputOf root config target) before before :=
    ⟨rfl, .refl _, wellFormed, fun _ _ => rfl⟩
  cases targetRun_of_generated h with
  | unplanned failure => exact unchanged
  | dry planned => exact unchanged
  | written planned wrote =>
      rw [← absolute_outputOf] at wrote
      exact framed_of_writeOutput wellFormed named_outputOf
        (planned.staysBelow wellFormed accepted statics) wrote
  | unwritten planned failed =>
      rw [← absolute_outputOf] at failed
      exact framed_of_writeOutput wellFormed named_outputOf
        (planned.staysBelow wellFormed accepted statics) failed

end Stencil.Generate
