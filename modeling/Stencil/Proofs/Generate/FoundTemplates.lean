import Stencil.Proofs.Generate.TemplateFilter
import Stencil.Proofs.Text.Units

/-! The templates of a source directory whose output directory lies below it. They are the files of
the tree that have the names of templates, stand below no hidden directory and no directory of
packages, and do not stand below the output directory.
-/

namespace Stencil.Files.Glob

open Stencil.Generate (sourceQuery ignoredPatterns_eq IsLeftOut withoutDot_join)

variable {word : List Char} {workspace : Workspace} {source folder : Location}

-----------------------------------------------------------------------------------------
-- The search
-----------------------------------------------------------------------------------------

/-- A pattern with a star is not a name that every record knows. -/
theorem faultOf?_eq_none {text : List Char} (star : '*' ∈ text) : faultOf? text = none := by
  have nonempty : text.isEmpty = false := List.isEmpty_eq_false_iff.2 (List.ne_nil_of_mem star)
  have notReserved : reservedNames.contains (String.ofList text) = false := by
    have noStar : ∀ name ∈ reservedNames, '*' ∉ name.toList := by decide
    rw [← Bool.not_eq_true, List.contains_iff_mem]
    intro member
    exact noStar _ member (by rwa [String.toList_ofList])
  rw [faultOf?, nonempty, notReserved]
  rfl

/-- What a search for templates leaves out stands for itself: it has no alternatives. -/
theorem expandAll_ignored (named : folder.Named) (nonempty : folder ≠ []) (plain : PlainNames folder)
    : expandAll ["**/node_modules/**", String.ofList (folderPattern (PathText.join folder).toList)]
      = .ok [packagePattern, folderPattern (PathText.join folder).toList] := by
  have isLiteral := isLiteral_join named nonempty plain
  have noBraces : '\x7d' ∉ folderPattern (PathText.join folder).toList := by
    simp [folderPattern, isLiteral.not_mem (c := '\x7d') (by decide)]
  have own := expand_eq_self (by simp [folderPattern]) noBraces
  have package : Braces.expand "**/node_modules/**".toList = .ok [packagePattern] := by decide
  simp only [expandAll, List.mapM_cons, List.mapM_nil, String.toList_ofList, own, package]
  change Except.ok [singleSlashes packagePattern, singleSlashes (folderPattern _)] = _
  rw [singleSlashes_eq_self (apart_folderPattern isLiteral), singleSlashes_eq_self (by decide)]

section

variable (isWord : IsWord word) (named : (source ++ folder).Named) (nonempty : folder ≠ [])
  (isLeftOut : IsLeftOut folder)

include isWord named nonempty isLeftOut

/-- Packages and the output directory take files away from all that stands below the source
directory.
-/
theorem planOf_sourceQuery
    : planOf (sourceQuery [String.ofList (templatePattern word)] (PathText.absolute source)
        (PathText.absolute (source ++ folder)))
      = .ok ⟨[], [⟨['.'], [templatePattern word]⟩],
          [packagePattern, folderPattern (PathText.join folder).toList]⟩ := by
  have isLiteral := isLiteral_join named.right nonempty isLeftOut.plain
  have query : sourceQuery [String.ofList (templatePattern word)] (PathText.absolute source)
      (PathText.absolute (source ++ folder))
      = ⟨[String.ofList (templatePattern word)], PathText.absolute source,
          ["**/node_modules/**", String.ofList (folderPattern (PathText.join folder).toList)],
          false⟩ := by
    rw [sourceQuery, ignoredPatterns_eq named nonempty isLeftOut]
  have texts : [templatePattern word].filter (!isNegative ·) = [templatePattern word] := rfl
  have taken : [templatePattern word].filter isNegative = [] := rfl
  have spelled : searchGroups ([templatePattern word].partition isOpenEnded).2 = [] := rfl
  have searched : searchGroups ([templatePattern word].partition isOpenEnded).1
      = [⟨['.'], [templatePattern word]⟩] :=
    searchGroups_templatePattern isWord
  have negatives : [packagePattern, folderPattern (PathText.join folder).toList].map positive
      = [packagePattern, folderPattern (PathText.join folder).toList] := by
    rw [List.map_cons, List.map_cons, List.map_nil, positive_folderPattern isLiteral]
    rfl
  have notReserved : ([templatePattern word].any fun text =>
      reservedNames.contains (String.ofList (baseOf text))) = false := by
    rw [List.any_cons, baseOf_templatePattern isWord]
    decide
  have starred : ∀ text ∈ [packagePattern, folderPattern (PathText.join folder).toList]
      ++ [templatePattern word], '*' ∈ text := by
    simp only [List.cons_append, List.nil_append, List.forall_mem_cons]
    exact ⟨by decide, by simp [folderPattern], by simp [templatePattern]⟩
  have faultless : ([packagePattern, folderPattern (PathText.join folder).toList]
      ++ [templatePattern word]).findSome? faultOf? = none :=
    List.findSome?_eq_none_iff.2 fun text member => faultOf?_eq_none (starred text member)
  rw [query]
  simp only [planOf, expandAll_templatePattern isWord, expandAll_ignored named.right nonempty
    isLeftOut.plain, bind, Except.bind, texts, taken, List.nil_append, negatives, notReserved, faultless,
    spelled, searched, List.isEmpty_cons, Bool.false_eq_true, if_false]
  rfl

end

/-- The paths of files that a search for templates matches, those below a directory among them. -/
def templatePaths (word : List Char) (source folder : Location) (files : List Location)
    : List (List Char) :=
  matching ⟨['.'], [templatePattern word]⟩ (templateFilter word folder)
    (fun path => (PathText.resolve (PathText.absolute source) (String.ofList path)).toList) files

/-- Matched are the paths of the files that pass the filter. -/
theorem mem_templatePaths_iff {path : String} {files : List Location}
    : path.toList ∈ templatePaths word source folder files
      ↔ ∃ names ∈ files,
          path = PathText.join names
          ∧ (templateFilter word folder).Passes names
              (PathText.resolve (PathText.absolute source) path).toList := by
  rw [templatePaths, mem_matching_iff]
  refine exists_congr fun names => and_congr_right fun _ => ?_
  have lead : basePrefix ['.'] = [] := rfl
  rw [← PathText.toList_join, lead, List.nil_append, String.toList_inj, String.ofList_toList]
  refine and_congr_right fun eq => ?_
  subst eq
  exact Iff.rfl

/-- No two of the matched paths are told apart by dots in front of them. -/
theorem mem_distinct_templatePaths_iff {path : List Char}
    (wellFormed : workspace.tree.WellFormed)
    (isFolder : workspace.tree.entry? source = some .directory)
    : path ∈ distinct (templatePaths word source folder (workspace.tree.filesBelow source))
      ↔ path ∈ templatePaths word source folder (workspace.tree.filesBelow source) := by
  let paths := templatePaths word source folder (workspace.tree.filesBelow source)
  have plain {path : List Char} (member : path ∈ paths) : Expression.withoutDot path = path := by
    rw [← String.toList_ofList (l := path), mem_templatePaths_iff] at member
    obtain ⟨names, below, eq, _⟩ := member
    obtain ⟨content, stands⟩ := wellFormed.mem_filesBelow_iff.1 below
    have isNamed := (wellFormed.named_of_entry? (FileTree.file?_eq_some_iff.1 stands)).right
    rw [← String.toList_ofList (l := path), eq]
    refine withoutDot_join isNamed ?_
    rintro rfl
    rw [List.append_nil, FileTree.file?_eq_none_of_directory isFolder] at stands
    cases stands
  obtain ⟨_, subset⟩ := distinct_spec paths
  refine ⟨fun member => subset member, fun member => ?_⟩
  obtain ⟨other, isIn, same⟩ := exists_mem_distinct member
  rw [plain (subset isIn), plain member] at same
  exact same ▸ isIn

section

variable (isWord : IsWord word) (named : (source ++ folder).Named) (nonempty : folder ≠ [])
  (isLeftOut : IsLeftOut folder)

include isWord named nonempty isLeftOut

/-- A search for templates gives each of the matched paths once, and changes nothing. -/
theorem outcome_run_sourceQuery (isFolder : workspace.tree.entry? source = some .directory)
    : outcome (run (sourceQuery [String.ofList (templatePattern word)] (PathText.absolute source)
        (PathText.absolute (source ++ folder)))) workspace
      = (.ok ((distinct (templatePaths word source folder
          (workspace.tree.filesBelow source))).map String.ofList), workspace) := by
  have here : PathText.resolve (PathText.absolute source) (String.ofList ['.'])
      = PathText.absolute source := by
    rw [PathText.resolve_absolute named.left,
      PathText.locate_of_relative named.left (by decide) (by decide)]
    exact congrArg _ (List.append_nil _)
  have searched : outcome (search ⟨[], [⟨['.'], [templatePattern word]⟩],
      [packagePattern, folderPattern (PathText.join folder).toList]⟩ (PathText.absolute source))
      workspace
      = (.ok (distinct (templatePaths word source folder (workspace.tree.filesBelow source))),
          workspace) := by
    have listed := outcome_filesBelow (PathText.spells_absolute named.left) isFolder
    simp only [search, List.mapM_nil, List.mapM_cons, pure_bind, bind_assoc, outcome_bind,
      outcome_pure, here, listed]
    simp [templatePaths, templateFilter]
  have someText : ([String.ofList (templatePattern word)].any (· == "")) = false := by
    rw [List.any_cons, List.any_nil, Bool.or_false, beq_eq_false_iff_ne, ne_eq,
      ← String.toList_inj, String.toList_ofList]
    exact List.cons_ne_nil _ _
  have directory : PathText.resolve (PathText.absolute workspace.directory)
      (PathText.absolute source) = PathText.absolute source :=
    congrArg _ ((PathText.spells_absolute named.left).locate_eq _)
  have planned := planOf_sourceQuery isWord named nonempty isLeftOut
  rw [run, sourceQuery]
  simp only [sourceQuery] at planned
  have located : outcome (liftM (Disk.workingDirectory : StateM Workspace String)
      : ExceptT GlobFault (StateM Workspace) String) workspace
      = (.ok (PathText.absolute workspace.directory), workspace) := rfl
  simp only [someText, Bool.false_eq_true, if_false, outcome_bind, planned, located, directory,
    outcome_adapt, searched, Except.mapError, outcome_pure]

/-- A search for templates changes nothing and finds what passes its filter. -/
theorem run_sourceQuery (wellFormed : workspace.tree.WellFormed)
    (isFolder : workspace.tree.entry? source = some .directory)
    : ∃ files,
        outcome (run (sourceQuery [String.ofList (templatePattern word)] (PathText.absolute source)
            (PathText.absolute (source ++ folder)))) workspace
          = (.ok files, workspace)
        ∧ files.Nodup
        ∧ ∀ path, path ∈ files ↔ ∃ names ∈ workspace.tree.filesBelow source,
            path = PathText.join names
            ∧ (templateFilter word folder).Passes names
                (PathText.resolve (PathText.absolute source) path).toList := by
  refine ⟨_, outcome_run_sourceQuery isWord named nonempty isLeftOut isFolder, ?_, fun path => ?_⟩
  · obtain ⟨nodup, _⟩ :=
      distinct_spec (templatePaths word source folder (workspace.tree.filesBelow source))
    exact List.pairwise_map.2 (nodup.imp fun differ same => differ (String.ofList_inj.1 same))
  · have injective : Function.Injective String.ofList := fun _ _ => String.ofList_inj.1
    rw [← mem_templatePaths_iff, ← mem_distinct_templatePaths_iff wellFormed isFolder,
      ← List.mem_map_of_injective injective, String.ofList_toList]

end

end Stencil.Files.Glob

namespace Stencil.Generate

open Stencil.Files
open Stencil.Config (Naming isSuffix isMark_of_isSuffix)
open Stencil.Files.Glob (IsSearched SpellsNames)

variable {naming : Naming} {workspace : Workspace} {source folder : Location}

-----------------------------------------------------------------------------------------
-- Templates
-----------------------------------------------------------------------------------------

/-- The last name on the way to a template has the word of the suffix between two dots, behind
something else.
-/
theorem exists_ending_of_isTemplate {word : List Char} {above : Location} {last : String}
    (accepted : isSuffix naming.suffix = true) (suffix : naming.suffix.toList = '.' :: word)
    (isName : IsName last)
    (isTemplate : naming.isTemplate (PathText.join (above ++ [last])) = true)
    : ∃ front ending,
        front ≠ [] ∧ last.toList = front ++ '.' :: (word ++ '.' :: ending) := by
  have mark := isMark_of_isSuffix accepted
  have nonempty : last.toList ≠ [] := fun empty => isName.nonempty (String.toList_inj.1 empty)
  have whole := Glob.toList_join_leadOf above last
  have isFile : (PathText.join (above ++ [last])).toList.getLast? ≠ some '/' := by
    rw [whole, List.getLast?_append_of_ne_nil _ nonempty]
    exact fun atEnd => isName.noSlash (List.mem_of_getLast? atEnd)
  obtain ⟨output, isOutput⟩ := Option.isSome_iff_exists.1 isTemplate
  obtain ⟨parts, isParts, _⟩ := (Naming.outputName?_eq_some_iff mark isFile).1 isOutput
  refine ⟨parts.name, parts.ending, parts.nonempty, ?_⟩
  -- The last name and what stands behind the directory part are both the base name of the path.
  have noSlash : '/' ∉ parts.name ++ naming.suffix.toList ++ '.' :: parts.ending := by
    have apart := parts.noSlash
    simp only [List.mem_append, List.mem_cons, not_or] at apart ⊢
    exact ⟨⟨apart.1, mark.noSlash⟩, by decide, apart.2⟩
  have base := PathText.baseName_append (Glob.leadOf_starts above) nonempty isName.noSlash
  have base' := PathText.baseName_append parts.isDirectory
    (List.append_ne_nil_of_right_ne_nil _ (List.cons_ne_nil _ _)) noSlash
  have same : Glob.leadOf above ++ last.toList
      = parts.directory ++ (parts.name ++ naming.suffix.toList ++ '.' :: parts.ending) :=
    whole.symm.trans isParts
  rw [← base, same, base', suffix, List.append_assoc]
  rfl

/-- The path of a template passes the filter of the search exactly if it is searched and does not
stand below the output directory.
-/
theorem passes_templateFilter_iff {word absolute : List Char} {names : Location}
    (isWord : Glob.IsWord word) (accepted : isSuffix naming.suffix = true)
    (suffix : naming.suffix.toList = '.' :: word) (named' : folder.Named) (nonempty : folder ≠ [])
    (plain : Glob.PlainNames folder) (named : names.Named) (nonempty' : names ≠ [])
    (isTemplate : naming.isTemplate (PathText.join names) = true)
    : (Glob.templateFilter word folder).Passes names absolute
      ↔ IsSearched names ∧ ¬ folder <+: names := by
  obtain ⟨above, last, rfl⟩ := (List.eq_nil_or_concat' names).resolve_left nonempty'
  obtain ⟨front, ending, isFront, parts⟩ :=
    exists_ending_of_isTemplate accepted suffix (named last (by simp)) isTemplate
  refine ⟨Glob.isSearched_of_passes isWord named' nonempty plain named (by simp [parts]), ?_⟩
  rintro ⟨searched, outside⟩
  exact Glob.passes_of_isSearched isWord named' nonempty plain named isFront parts searched outside

/-- Templates are found in order, each once: the files of the tree that have an output and are
searched, besides those below the output directory.
-/
theorem outcome_findTemplates (accepted : isSuffix naming.suffix = true)
    (wellFormed : workspace.tree.WellFormed)
    (isFolder : workspace.tree.entry? source = some .directory)
    (named : (source ++ folder).Named) (nonempty : folder ≠ []) (isLeftOut : IsLeftOut folder)
    : ∃ templates,
        outcome (findTemplates naming (PathText.absolute source)
            (PathText.absolute (source ++ folder))) workspace
          = (.ok templates, workspace)
        ∧ templates.Pairwise (fun first second => Text.unitsLE first second = true)
        ∧ templates.Nodup
        ∧ ∀ path, path ∈ templates ↔ ∃ names content,
            path = PathText.join names
            ∧ workspace.tree.file? (source ++ names) = some content
            ∧ IsSearched names
            ∧ ¬ folder <+: names
            ∧ (naming.outputName? path).isSome = true := by
  obtain ⟨word, isWord, suffix⟩ := exists_word_of_isSuffix accepted
  obtain ⟨files, ran, nodup, found⟩ :=
    Glob.run_sourceQuery isWord named nonempty isLeftOut wellFormed isFolder
  refine ⟨Text.sortByUnits (files.filter naming.isTemplate), ?_, Text.pairwise_sortByUnits _,
    (List.mergeSort_perm _ _).nodup_iff.2 (nodup.filter _), fun path => ?_⟩
  · rw [findTemplates, outcome_bind, sourceFiles, outcome_adapt, pattern_eq_of_suffix suffix, ran]
    rfl
  · have passes {names : Location} {content : Bytes} {absolute : List Char}
        (stands : workspace.tree.file? (source ++ names) = some content)
        (isTemplate : naming.isTemplate (PathText.join names) = true)
        : (Glob.templateFilter word folder).Passes names absolute
          ↔ IsSearched names ∧ ¬ folder <+: names := by
      refine passes_templateFilter_iff isWord accepted suffix named.right nonempty isLeftOut.plain
        (wellFormed.named_of_entry? (FileTree.file?_eq_some_iff.1 stands)).right ?_ isTemplate
      rintro rfl
      rw [List.append_nil, FileTree.file?_eq_none_of_directory isFolder] at stands
      cases stands
    rw [Text.sortByUnits, List.mem_mergeSort, List.mem_filter, found]
    constructor
    · rintro ⟨⟨names, below, rfl, passed⟩, isTemplate⟩
      obtain ⟨content, stands⟩ := wellFormed.mem_filesBelow_iff.1 below
      obtain ⟨searched, outside⟩ := (passes stands isTemplate).1 passed
      exact ⟨names, content, rfl, stands, searched, outside, isTemplate⟩
    · rintro ⟨names, content, rfl, stands, searched, outside, isTemplate⟩
      exact ⟨⟨names, wellFormed.mem_filesBelow_iff.2 ⟨content, stands⟩, rfl,
        (passes stands isTemplate).2 ⟨searched, outside⟩⟩, isTemplate⟩

/-- No file to copy has an output. -/
theorem outputName?_of_findStatics {target : Config.Target} {sourceDir outputDir file : String}
    {files : List String} {after : Workspace}
    (h : outcome (findStatics naming target sourceDir outputDir) workspace = (.ok files, after))
    (member : file ∈ files)
    : naming.outputName? file = none := by
  rw [findStatics] at h
  split at h
  · cases h
    exact absurd member List.not_mem_nil
  · obtain ⟨found, _, _, h⟩ := bind_eq_ok.1 h
    cases h
    obtain ⟨_, isOther⟩ := List.mem_filter.1 (List.mem_mergeSort.1 member)
    simpa [Naming.isTemplate] using isOther

/-- The searches of a target see all templates, and nothing of what has been generated before. The
files to copy have no output, and none that spells its names stands below the output directory.
-/
theorem found_outside_output {data : Plain} {config : Config}
    (accepted : Config.ofPlain data = .ok config) (wellFormed : workspace.tree.WellFormed)
    (isFolder : workspace.tree.entry? source = some .directory)
    (named : (source ++ folder).Named) (nonempty : folder ≠ []) (isLeftOut : IsLeftOut folder)
    : (∃ templates,
        outcome (findTemplates config.naming (PathText.absolute source)
            (PathText.absolute (source ++ folder))) workspace
          = (.ok templates, workspace)
        ∧ templates.Pairwise (fun first second => Text.unitsLE first second = true)
        ∧ templates.Nodup
        ∧ ∀ path, path ∈ templates ↔ ∃ names content,
            path = PathText.join names
            ∧ workspace.tree.file? (source ++ names) = some content
            ∧ IsSearched names
            ∧ ¬ folder <+: names
            ∧ (config.naming.outputName? path).isSome = true)
      ∧ ∀ (target : Config.Target) (files : List String) (after : Workspace),
          outcome (findStatics config.naming target (PathText.absolute source)
              (PathText.absolute (source ++ folder))) workspace
            = (.ok files, after) →
          after = workspace
          ∧ ∀ file ∈ files,
              config.naming.outputName? file = none
              ∧ (".." ∉ PathText.segments file → SpellsNames file →
                ¬ folder <+: PathText.place file) := by
  refine ⟨outcome_findTemplates (Config.isSuffix_of_ofPlain accepted) wellFormed isFolder named
    nonempty isLeftOut, fun target files after h => ⟨?_, fun file member => ⟨?_, ?_⟩⟩⟩
  · exact (readsOnly_findStatics _ _ _ _).eq h
  · exact outputName?_of_findStatics h member
  · intro stays spells
    exact not_below_of_findStatics named nonempty isLeftOut h member stays spells

/-- A source directory with templates and plots in several places, some of them in the output
directory.
-/
def nestedPaper : Workspace where
  directory := []
  tree := ⟨[
    (["paper"], .directory),
    (["paper", ".draft.tmp.typ"], .file (Encoding.encode "draft")),
    (["paper", "part"], .directory),
    (["paper", "part", "meta.tmp.typ"], .file (Encoding.encode "meta")),
    (["paper", "part", "plot.svg"], .file (Encoding.encode "plot")),
    (["paper", "node_modules"], .directory),
    (["paper", "node_modules", "pack.tmp.typ"], .file (Encoding.encode "pack")),
    (["paper", "_generated"], .directory),
    (["paper", "_generated", "old.svg"], .file (Encoding.encode "old plot")),
    (["paper", "_generated", "old.tmp.typ"], .file (Encoding.encode "old"))]⟩

/-- A target that copies plots from wherever they stand. -/
def plotTarget : Config.Target := { sampleTarget "notes.txt" with statics := ["**/*.svg"] }

/-- One template of the sample is found, and it is the only one that is searched and does not stand
below the output directory. One plot is found, and it does not stand there either.
-/
theorem found_outside_output_nested
    : outcome (findTemplates (sampleConfig "notes.txt").naming "/paper" "/paper/_generated")
        nestedPaper
      = (.ok ["part/meta.tmp.typ"], nestedPaper)
      ∧ (∀ names content,
          nestedPaper.tree.file? ("paper" :: names) = some content →
          IsSearched names →
          ¬ ["_generated"] <+: names →
          ((sampleConfig "notes.txt").naming.outputName? (PathText.join names)).isSome = true →
          PathText.join names = "part/meta.tmp.typ")
      ∧ outcome (findStatics (sampleConfig "notes.txt").naming plotTarget "/paper"
          "/paper/_generated") nestedPaper
        = (.ok ["part/plot.svg"], nestedPaper)
      ∧ ¬ ["_generated"] <+: PathText.place "part/plot.svg" := by
  have accepted : Config.ofPlain (sampleData "notes.txt") = .ok (sampleConfig "notes.txt") := rfl
  have wellFormed : nestedPaper.tree.WellFormed := by decide
  have isFolder : nestedPaper.tree.entry? ["paper"] = some .directory := by decide
  have isLeftOut : IsLeftOut ["_generated"] := by decide
  have named : Location.Named (["paper"] ++ ["_generated"]) := by decide
  obtain ⟨⟨templates, ran, _, _, found⟩, statics⟩ := found_outside_output accepted wellFormed
    isFolder named (by decide) isLeftOut
  have paths : PathText.absolute ["paper"] = "/paper"
      ∧ PathText.absolute (["paper"] ++ ["_generated"]) = "/paper/_generated" := by decide
  rw [paths.1, paths.2] at ran statics
  have listed : (outcome (findTemplates (sampleConfig "notes.txt").naming "/paper"
      "/paper/_generated") nestedPaper).1.toOption
      = some ["part/meta.tmp.typ"] := by decide +kernel
  rw [ran] at listed
  cases listed
  have copied : (outcome (findStatics (sampleConfig "notes.txt").naming plotTarget "/paper"
      "/paper/_generated") nestedPaper).1.toOption
      = some ["part/plot.svg"] := by decide +kernel
  have ran' : outcome (findStatics (sampleConfig "notes.txt").naming plotTarget "/paper"
      "/paper/_generated") nestedPaper = (.ok ["part/plot.svg"], nestedPaper) :=
    (readsOnly_findStatics _ _ _ _).eq_ok_of_mem (Option.mem_def.2 copied)
  obtain ⟨_, apart⟩ := (statics _ _ _ ran').2 "part/plot.svg" (List.mem_singleton_self _)
  refine ⟨ran, fun names content stands searched outside isTemplate => List.mem_singleton.1 <|
    (found _).2 ⟨names, content, rfl, stands, searched, outside, isTemplate⟩, ran', ?_⟩
  exact apart (by decide) (by decide)

end Stencil.Generate
