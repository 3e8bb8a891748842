import Stencil.Proofs.Config.Accepted
import Stencil.Proofs.Generate.Outputs

/-! Which paths are those of templates, and what their outputs are called. A template path is a
directory part, a name, the suffix and a final extension, and its output is the same without the
suffix. So an output tells its template.
-/

namespace Stencil

namespace Files.PathText

/-- What stands before and behind the last slash of a text that does not end with one. -/
theorem exists_lead_name {path : List Char} (nonempty : path ≠ [])
    (open' : path.getLast? ≠ some '/')
    : ∃ lead name : List Char,
        (lead = [] ∨ lead.getLast? = some '/')
        ∧ name ≠ []
        ∧ '/' ∉ name
        ∧ path = lead ++ name := by
  by_cases slashed : '/' ∈ path.reverse
  · obtain ⟨behind, before, cut, noSlash⟩ := List.eq_append_cons_of_mem slashed
    have eq : path = (before.reverse ++ ['/']) ++ behind.reverse := by
      rw [← List.reverse_reverse path, cut]
      simp
    refine ⟨before.reverse ++ ['/'], behind.reverse, .inr (by simp), ?_, ?_, eq⟩
    · intro atEnd
      apply open'
      rw [eq, atEnd, List.append_nil, List.getLast?_concat]
    · intro member
      exact noSlash (List.mem_reverse.1 member)
  · exact ⟨[], path, .inl rfl, nonempty, fun member => slashed (List.mem_reverse.2 member), rfl⟩

/-- The extension of a name starts at its last dot, unless that dot starts the name. -/
theorem nameExtension_append {stem rest : List Char} (nonempty : stem ≠ []) (noDot : '.' ∉ rest)
    (notAbove : stem ++ '.' :: rest ≠ ['.', '.'])
    : nameExtension (stem ++ '.' :: rest) = '.' :: rest := by
  have cut : (stem ++ '.' :: rest).take
      ((stem ++ '.' :: rest).length - (rest.length + 1)) = stem := by
    rw [List.length_append, List.length_cons, Nat.add_sub_cancel, List.take_left]
  have shorter : rest.length ≠ (stem ++ '.' :: rest).length := by
    rw [List.length_append, List.length_cons]
    omega
  simp only [nameExtension, afterLastDot_eq stem noDot, cut, shorter, notAbove, decide_false,
    List.isEmpty_eq_false_iff.2 nonempty, Bool.or_self, Bool.false_eq_true, if_false]

end Files.PathText

namespace Config

open Files.PathText (extension)

/-- The parts of a template path besides the suffix: a directory part, which is empty or ends with a
slash, a name, and what follows the last dot.
-/
structure TemplateParts where
  directory : List Char
  name : List Char
  ending : List Char
  isDirectory : directory = [] ∨ directory.getLast? = some '/'
  nonempty : name ≠ []
  noSlash : '/' ∉ name ++ ending
  noDot : '.' ∉ ending

namespace TemplateParts

/-- The path of the template, with a suffix behind the name. -/
def template (parts : TemplateParts) (suffix : List Char) : List Char :=
  parts.directory ++ (parts.name ++ suffix ++ '.' :: parts.ending)

/-- The path of the output. -/
def output (parts : TemplateParts) : List Char :=
  parts.directory ++ (parts.name ++ '.' :: parts.ending)

/-- An output is cut at its last dot, so it tells the template. -/
theorem template_eq_of_output_eq {parts parts' : TemplateParts} (same : parts.output = parts'.output)
    (suffix : List Char)
    : parts.template suffix = parts'.template suffix := by
  have whole (parts : TemplateParts)
      : parts.output = (parts.directory ++ parts.name) ++ '.' :: parts.ending := by
    rw [output, List.append_assoc]
  rw [whole, whole] at same
  have endings : parts.ending = parts'.ending := by
    rw [← Files.PathText.afterLastDot_eq (parts.directory ++ parts.name) parts.noDot, same,
      Files.PathText.afterLastDot_eq _ parts'.noDot]
  rw [endings] at same
  have fronts := List.append_cancel_right same
  simp only [template, ← List.append_assoc, fronts, endings]

end TemplateParts

/-- An accepted suffix is a dot with something behind it that has no slash. -/
structure IsMark (suffix : List Char) : Prop where
  noSlash : '/' ∉ suffix
  long : 2 ≤ suffix.length

theorem isMark_of_isSuffix {suffix : String} (h : isSuffix suffix = true)
    : IsMark suffix.toList := by
  refine ⟨noSlash_of_isSuffix h, ?_⟩
  rw [isSuffix] at h
  split at h
  · rename_i rest eq
    rw [eq]
    cases rest with
    | nil => cases h
    | cons first more => exact Nat.le_add_left 2 more.length
  · cases h

variable {naming : Naming}

/-- The path that parts make up has the output that they make up. -/
theorem Naming.outputName?_template (mark : IsMark naming.suffix.toList) (parts : TemplateParts)
    : naming.outputName? (String.ofList (parts.template naming.suffix.toList))
      = some (String.ofList parts.output) := by
  obtain ⟨directory, name, ending, isDirectory, nonempty, noSlash, noDot⟩ := parts
  rw [List.mem_append, not_or] at noSlash
  generalize eq : naming.suffix.toList = suffix at mark
  have stem : name ++ suffix ≠ [] := List.append_ne_nil_of_left_ne_nil nonempty suffix
  have stemNoSlash : '/' ∉ name ++ suffix := by
    rw [List.mem_append, not_or]
    exact ⟨noSlash.1, mark.noSlash⟩
  have nameNoSlash : '/' ∉ name ++ suffix ++ '.' :: ending := by
    rw [List.mem_append, not_or]
    exact ⟨stemNoSlash, by simpa using noSlash.2⟩
  have notAbove : name ++ suffix ++ '.' :: ending ≠ ['.', '.'] := by
    intro short
    have lengths := congrArg List.length short
    have := mark.long
    simp only [List.length_append, List.length_cons, List.length_nil] at lengths
    omega
  -- The path is cut twice at its end: before the last dot, and before the suffix.
  have base := Files.PathText.baseName_append isDirectory
    (List.append_ne_nil_of_left_ne_nil stem ('.' :: ending)) nameNoSlash
  have isExtension := Files.PathText.nameExtension_append stem noDot notAbove
  have cut : (directory ++ (name ++ suffix ++ '.' :: ending)).take
      ((directory ++ (name ++ suffix ++ '.' :: ending)).length - ('.' :: ending).length)
      = directory ++ (name ++ suffix) := by
    rw [← List.append_assoc directory, List.length_append, Nat.add_sub_cancel, List.take_left]
  have cut' : (directory ++ (name ++ suffix)).take
      ((directory ++ (name ++ suffix)).length - suffix.length)
      = directory ++ name := by
    rw [← List.append_assoc, List.length_append, Nat.add_sub_cancel, List.take_left]
  have stemBase := Files.PathText.baseName_append isDirectory stem stemNoSlash
  have ends : suffix.isSuffixOf (directory ++ (name ++ suffix)) = true :=
    List.isSuffixOf_iff_suffix.2 ⟨directory ++ name, List.append_assoc ..⟩
  have differ : (name ++ suffix == suffix) = false := by
    rw [beq_eq_false_iff_ne]
    intro same
    exact nonempty (List.append_left_eq_self.1 same)
  simp only [outputName?, TemplateParts.template, TemplateParts.output, extension,
    String.toList_ofList, eq, base, isExtension, cut, stemBase, ends, differ, cut',
    List.isEmpty_cons, Bool.not_true, Bool.or_self, Bool.false_eq_true, if_false]
  rw [List.append_assoc]

/-- A path that does not end with a slash has an output exactly if it is made of the parts of a
template path.
-/
theorem Naming.outputName?_eq_some_iff (mark : IsMark naming.suffix.toList) {path output : String}
    (isFile : path.toList.getLast? ≠ some '/')
    : naming.outputName? path = some output
      ↔ ∃ parts : TemplateParts,
          path.toList = parts.template naming.suffix.toList
          ∧ output.toList = parts.output := by
  constructor
  · intro h
    have nonempty : path.toList ≠ [] := by
      intro empty
      rw [outputName?, empty] at h
      cases h
    obtain ⟨lead, name, starts, named, noSlash, cut⟩ :=
      Files.PathText.exists_lead_name nonempty isFile
    rw [← String.ofList_toList (s := path), cut] at h
    obtain ⟨stem, rest, nonempty, noDot, eq, isOutput⟩ :=
      naming.outputName?_eq_some mark.noSlash starts named noSlash h
    have noSlash' : '/' ∉ stem ++ rest := by
      intro member
      apply noSlash
      rw [eq]
      rcases List.mem_append.1 member with inStem | inRest
      · exact List.mem_append_left _ (List.mem_append_left _ inStem)
      · exact List.mem_append_right _ (List.mem_cons_of_mem _ inRest)
    refine ⟨⟨lead, stem, rest, starts, nonempty, noSlash', noDot⟩, ?_, isOutput⟩
    rw [cut, eq]
    rfl
  · intro h
    obtain ⟨parts, isTemplate, isOutput⟩ := h
    rw [← String.ofList_toList (s := path), isTemplate, outputName?_template mark, ← isOutput,
      String.ofList_toList]

/-- Under any accepted suffix, exactly the paths of a directory part, a name, the suffix and a final
extension have an output, which is the same path without the suffix. No two paths have the same
output.
-/
theorem outputName?_exact {data : Plain} {config : Config} (accepted : ofPlain data = .ok config)
    : (∀ path output : String,
        path.toList.getLast? ≠ some '/' →
        (config.naming.outputName? path = some output
          ↔ ∃ parts : TemplateParts,
              path.toList = parts.template config.naming.suffix.toList
              ∧ output.toList = parts.output))
      ∧ ∀ path path' output : String,
          path.toList.getLast? ≠ some '/' →
          path'.toList.getLast? ≠ some '/' →
          config.naming.outputName? path = some output →
          config.naming.outputName? path' = some output →
          path = path' := by
  have mark := isMark_of_isSuffix (isSuffix_of_ofPlain accepted)
  refine ⟨fun path output isFile => Naming.outputName?_eq_some_iff mark isFile, ?_⟩
  intro path path' output isFile isFile' h h'
  obtain ⟨parts, isTemplate, isOutput⟩ := (Naming.outputName?_eq_some_iff mark isFile).1 h
  obtain ⟨parts', isTemplate', isOutput'⟩ := (Naming.outputName?_eq_some_iff mark isFile').1 h'
  rw [← String.toList_inj, isTemplate, isTemplate']
  exact TemplateParts.template_eq_of_output_eq (isOutput.symm.trans isOutput') _

/-- A suffix that looks like an extension, behind a name that starts with a dot and has the suffix
once more. The path is the only one with its output.
-/
theorem outputName?_exact_repeated
    : let data : Plain :=
        .record [("generate", .record [("template_suffix", .text ".typ")])]
      let config : Config := ⟨10000000, ⟨".typ", "_generated"⟩, []⟩
      ofPlain data = .ok config
        ∧ config.naming.outputName? "v1.0/.notes.typ.typ.typ" = some "v1.0/.notes.typ.typ"
        ∧ ∀ path : String,
            path.toList.getLast? ≠ some '/' →
            config.naming.outputName? path = some "v1.0/.notes.typ.typ" →
            path = "v1.0/.notes.typ.typ.typ" := by
  intro data config
  have accepted : ofPlain data = .ok config := rfl
  have exact' := outputName?_exact accepted
  have isOutput
      : config.naming.outputName? "v1.0/.notes.typ.typ.typ" = some "v1.0/.notes.typ.typ" := by
    refine (exact'.1 _ _ (by decide)).2 ⟨⟨"v1.0/".toList, ".notes.typ".toList, "typ".toList,
      .inr rfl, by decide, by decide, by decide⟩, by decide, by decide⟩
  refine ⟨accepted, isOutput, ?_⟩
  intro path isFile h
  exact exact'.2 path _ _ isFile (by decide) h isOutput

end Config

end Stencil
