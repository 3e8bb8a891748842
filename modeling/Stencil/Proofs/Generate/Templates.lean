import Stencil.Generate.Target
import Stencil.Proofs.Files.Glob.Findings
import Stencil.Proofs.Files.Glob.TemplateRegex
import Stencil.Proofs.Generate.Outputs

/-! What the searches of a target find. Templates are files below the source directory, each found
once, and none has a hidden name.
-/

namespace Stencil.Generate

open Stencil.Files
open Stencil.Config (IsShown isSuffix Naming)
open Stencil.Files.Glob (IsWord isOwn_of_isNameChar templatePattern templateRegex
  planOf_templatePattern regexOf_templatePattern head?_ne_dot_of_isFoundIn)

variable {workspace after : Workspace} {naming : Naming} {source : Location}

/-- An accepted suffix is a dot and a word. -/
theorem exists_word_of_isSuffix (h : isSuffix naming.suffix = true)
    : ∃ word, IsWord word ∧ naming.suffix.toList = '.' :: word := by
  rw [isSuffix] at h
  split at h
  · rename_i word eq
    simp only [Bool.and_eq_true, Bool.not_eq_true', List.isEmpty_eq_false_iff,
      List.all_eq_true] at h
    exact ⟨word, ⟨h.1, fun c member => isOwn_of_isNameChar (h.2 c member)⟩, eq⟩
  · cases h

theorem pattern_eq_of_suffix {word : List Char} (h : naming.suffix.toList = '.' :: word)
    : naming.pattern = String.ofList (templatePattern word) := by
  have start : "**/*".toList = ['*', '*', '/', '*'] := rfl
  have ending : ".*".toList = ['.', '*'] := rfl
  rw [← String.toList_inj, String.toList_ofList, Naming.pattern, String.toList_append,
    String.toList_append, h, start, ending]
  rfl

/-- The pattern of the templates of an accepted configuration. -/
theorem exists_word (h : isSuffix naming.suffix = true)
    : ∃ word, IsWord word ∧ naming.pattern = String.ofList (templatePattern word) := by
  obtain ⟨word, isWord, eq⟩ := exists_word_of_isSuffix h
  exact ⟨word, isWord, pattern_eq_of_suffix eq⟩

theorem withoutDot_join {names : Location} (named : names.Named) (nonempty : names ≠ [])
    : Glob.Expression.withoutDot (PathText.join names).toList = (PathText.join names).toList := by
  refine Glob.withoutDot_eq_self fun ⟨rest, eq⟩ => ?_
  have dotted : PathText.join names = "." ++ "/" ++ String.ofList rest := by
    rw [← String.toList_inj, ← eq, String.toList_append, String.toList_ofList]
    rfl
  have only : PathText.segments "." = ["."] := by decide
  have same := PathText.segments_join named nonempty
  rw [dotted, PathText.segments_append, only] at same
  exact absurd rfl (named "." (same ▸ List.mem_cons_self ..)).notHere

/-- A found template leads through names to a file. -/
theorem isShown_of_found {plan : Glob.Plan} {word path : List Char}
    (wellFormed : workspace.tree.WellFormed) (named : source.Named)
    (folder : workspace.tree.entry? source = some .directory) (isWord : IsWord word)
    (lookups : plan.lookups = []) (searches : plan.searches = [⟨['.'], [templatePattern word]⟩])
    (h : Glob.Found plan (PathText.absolute source) workspace path)
    : ∃ names content,
        IsShown (String.ofList path) names
        ∧ workspace.tree.file? (source ++ names) = some content := by
  cases h with
  | spelled member _ _ _ =>
      rw [lookups] at member
      exact absurd member List.not_mem_nil
  | @matched group names member below eq _ accepted =>
      rw [searches, List.mem_singleton] at member
      subst member
      have here : PathText.resolve (PathText.absolute source) (String.ofList ['.'])
          = PathText.absolute source := by
        rw [PathText.resolve_absolute named,
          PathText.locate_of_relative named (by decide) (by decide)]
        exact congrArg _ (List.append_nil _)
      rw [here, Workspace.locate_of_spells (PathText.spells_absolute named),
        wellFormed.mem_filesBelow_iff] at below
      obtain ⟨content, stands⟩ := below
      have isNamed : Location.Named names :=
        (wellFormed.named_of_entry? (FileTree.file?_eq_some_iff.1 stands)).right
      have eq : path = (PathText.join names).toList := by
        rw [eq, PathText.toList_join]
        rfl
      subst eq
      have nonempty : names ≠ [] := by
        rintro rfl
        rw [List.append_nil, FileTree.file?_eq_none_of_directory folder] at stands
        cases stands
      refine ⟨names, content, ⟨isNamed, String.ofList_toList, nonempty, ?_⟩, stands⟩
      intro last isLast
      obtain ⟨above, rfl⟩ := List.getLast?_eq_some_iff.1 isLast
      obtain ⟨lead, starts, joined⟩ := PathText.exists_lead_of_join above
      have found : (templateRegex word).isFoundIn (lead ++ last.toList) = true := by
        simp only [Glob.Filter.accepts, Glob.Filter.ofGroup, withoutDot_join isNamed nonempty,
          List.map_cons, List.map_nil, Bool.and_eq_true, List.any_cons, List.any_nil, Bool.or_false,
          regexOf_templatePattern isWord] at accepted
        rw [← joined]
        exact accepted.1.1
      exact head?_ne_dot_of_isFoundIn isWord starts (isNamed last (by simp)).noSlash found

theorem sourceFiles_eq_ok {patterns files : List String} {output : String} (named : source.Named)
    (h : outcome (sourceFiles patterns (PathText.absolute source) output) workspace
      = (.ok files, after))
    : ∃ plan,
        Glob.planOf (sourceQuery patterns (PathText.absolute source) output) = .ok plan
        ∧ files.Nodup
        ∧ ∀ file ∈ files, Glob.Found plan (PathText.absolute source) workspace file.toList := by
  have found := Glob.run_eq_ok rfl (adapt_eq_ok.1 h)
  have directory : PathText.resolve (PathText.absolute workspace.directory)
      (sourceQuery patterns (PathText.absolute source) output).directory
      = PathText.absolute source := by
    exact congrArg _ ((PathText.spells_absolute named).locate_eq _)
  rwa [directory] at found

/-- What a search for templates finds. -/
theorem findTemplates_eq_ok {output : String} {templates : List String}
    (wellFormed : workspace.tree.WellFormed) (named : source.Named)
    (folder : workspace.tree.entry? source = some .directory)
    (accepted : isSuffix naming.suffix = true)
    (h : outcome (findTemplates naming (PathText.absolute source) output) workspace
      = (.ok templates, after))
    : templates.Nodup
      ∧ ∀ template ∈ templates,
          naming.isTemplate template = true
          ∧ ∃ names content,
              IsShown template names
              ∧ workspace.tree.file? (source ++ names) = some content := by
  obtain ⟨files, _, searched, h⟩ := bind_eq_ok.1 h
  cases h
  obtain ⟨plan, planned, nodup, found⟩ := sourceFiles_eq_ok named searched
  obtain ⟨word, isWord, pattern⟩ := exists_word accepted
  rw [sourceQuery, pattern] at planned
  obtain ⟨lookups, searches⟩ := planOf_templatePattern isWord planned
  refine ⟨(List.mergeSort_perm _ _).nodup_iff.2 (nodup.filter _), fun template member => ?_⟩
  obtain ⟨member, isTemplate⟩ := List.mem_filter.1 (List.mem_mergeSort.1 member)
  obtain ⟨names, content, isShown, stands⟩ :=
    isShown_of_found wellFormed named folder isWord lookups searches (found template member)
  rw [String.ofList_toList] at isShown
  exact ⟨isTemplate, names, content, isShown, stands⟩

/-- What a search for files to be copied finds. -/
theorem findStatics_eq_ok {target : Config.Target} {output : String} {files : List String}
    (named : source.Named)
    (h : outcome (findStatics naming target (PathText.absolute source) output) workspace
      = (.ok files, after))
    : files.Nodup
      ∧ ∀ file ∈ files,
          ∃ plan,
            Glob.planOf (sourceQuery target.statics (PathText.absolute source) output) = .ok plan
            ∧ Glob.Found plan (PathText.absolute source) workspace file.toList := by
  rw [findStatics] at h
  split at h
  · cases h
    exact ⟨List.nodup_nil, fun file none => absurd none List.not_mem_nil⟩
  · obtain ⟨found, _, searched, h⟩ := bind_eq_ok.1 h
    cases h
    obtain ⟨plan, planned, nodup, each⟩ := sourceFiles_eq_ok named searched
    refine ⟨(List.mergeSort_perm _ _).nodup_iff.2 (nodup.filter _), fun file member => ?_⟩
    exact ⟨plan, planned, each file (List.mem_of_mem_filter (List.mem_mergeSort.1 member))⟩

end Stencil.Generate
