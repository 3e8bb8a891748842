import Stencil.Generate.Naming
import Stencil.Proofs.Files.Places

/-! The outputs of templates. An output differs from its template in the last name only, which lacks
the suffix before its last dot. So it stays in the directory of the template, and no two templates
have the same output.
-/

namespace Stencil

namespace Files.PathText

theorem afterLastDot_eq (stem : List Char) {rest : List Char} (noDot : '.' ∉ rest)
    : ((stem ++ '.' :: rest).reverse.takeWhile (· != '.')).reverse = rest := by
  have split : stem ++ '.' :: rest = (stem ++ ['.']) ++ rest := by simp
  rw [split, Text.takeWhile_reverse (.inr (by simp)) noDot, List.reverse_reverse]

/-- An extension is what follows the last dot of a name, unless that dot starts the name. -/
theorem exists_extension {name : List Char} (h : nameExtension name ≠ [])
    : ∃ stem rest : List Char,
        stem ≠ []
        ∧ '.' ∉ rest
        ∧ name = stem ++ '.' :: rest
        ∧ nameExtension name = '.' :: rest := by
  by_cases dotted : '.' ∈ name.reverse
  · obtain ⟨behind, before, eq, noDot⟩ := List.eq_append_cons_of_mem dotted
    have eq : name = before.reverse ++ '.' :: behind.reverse := by
      rw [← List.reverse_reverse name, eq]
      simp
    have noDot : '.' ∉ behind.reverse := fun member => noDot (List.mem_reverse.1 member)
    generalize before.reverse = stem at eq
    generalize behind.reverse = rest at eq noDot
    subst eq
    have cut : (stem ++ '.' :: rest).take
        ((stem ++ '.' :: rest).length - (rest.length + 1)) = stem := by
      rw [List.length_append, List.length_cons, Nat.add_sub_cancel, List.take_left]
    simp only [nameExtension, afterLastDot_eq stem noDot, cut] at h ⊢
    split at h
    · exact absurd rfl h
    · rename_i proper
      simp only [Bool.or_eq_true, decide_eq_true_eq, List.isEmpty_iff, not_or] at proper
      exact ⟨stem, rest, proper.1.2, noDot, rfl, if_neg (by simpa using proper)⟩
  · have whole : (name.reverse.takeWhile (· != '.')).reverse = name := by
      have same := @Text.takeWhile_reverse _ _ '.' [] name (.inl rfl)
        fun member => dotted (List.mem_reverse.2 member)
      rw [List.nil_append] at same
      rw [same, List.reverse_reverse]
    simp [nameExtension, whole] at h

end Files.PathText

namespace Config

open Files (Location IsName)
open Files.PathText (join place segments extension)

variable {naming : Naming}

/-- The suffix of an accepted configuration stays within a name. -/
theorem noSlash_of_isSuffix {suffix : String} (h : isSuffix suffix = true)
    : '/' ∉ suffix.toList := by
  rw [isSuffix] at h
  split at h
  · rename_i rest eq
    simp only [Bool.and_eq_true, List.all_eq_true] at h
    rw [eq]
    rintro (_ | ⟨_, member⟩)
    exact absurd (h.2 '/' member) (by decide)
  · cases h

/-- The end of a text that has no slash is the end of its last name. -/
theorem suffix_of_suffix_append {lead name ending : List Char}
    (starts : lead = [] ∨ lead.getLast? = some '/') (noSlash : '/' ∉ ending)
    (h : ending <:+ lead ++ name)
    : ending <:+ name := by
  rcases starts with rfl | slashed
  · exact h
  · obtain ⟨above, rfl⟩ := List.getLast?_eq_some_iff.1 slashed
    -- Of two ends of a text one is an end of the other, and only the name has no slash.
    have last : '/' :: name <:+ above ++ ['/'] ++ name := ⟨above, by simp⟩
    rcases List.suffix_or_suffix_of_suffix h last with within | longer
    · rcases List.suffix_cons_iff.1 within with rfl | within
      · exact absurd (List.mem_cons_self ..) noSlash
      · exact within
    · exact absurd (longer.subset (List.mem_cons_self ..)) noSlash

/-- An output has the name of its template, without the suffix before the last dot. -/
theorem Naming.outputName?_eq_some {lead name : List Char} {output : String}
    (noSlash : '/' ∉ naming.suffix.toList) (starts : lead = [] ∨ lead.getLast? = some '/')
    (nonempty : name ≠ []) (noSlash' : '/' ∉ name)
    (h : naming.outputName? (String.ofList (lead ++ name)) = some output)
    : ∃ stem rest,
        stem ≠ []
        ∧ '.' ∉ rest
        ∧ name = stem ++ naming.suffix.toList ++ '.' :: rest
        ∧ output.toList = lead ++ (stem ++ '.' :: rest) := by
  simp only [outputName?, extension, String.toList_ofList,
    Files.PathText.baseName_append starts nonempty noSlash'] at h
  split at h
  · cases h
  rename_i proper
  simp only [Bool.or_eq_true, not_or, List.isEmpty_iff] at proper
  obtain ⟨⟨hasExtension, ends⟩, differ⟩ := proper
  -- The path is cut twice at its end: before the last dot, and before the suffix.
  obtain ⟨start, rest, nonempty', noDot, rfl, eq⟩ := Files.PathText.exists_extension hasExtension
  have cut : (lead ++ (start ++ '.' :: rest)).take
      ((lead ++ (start ++ '.' :: rest)).length - ('.' :: rest).length) = lead ++ start := by
    rw [← List.append_assoc, List.length_append, Nat.add_sub_cancel, List.take_left]
  have noSlash'' : '/' ∉ start := fun member => noSlash' (List.mem_append_left _ member)
  simp only [eq, cut, Files.PathText.baseName_append starts nonempty' noSlash'', beq_iff_eq,
    Bool.not_eq_true', Bool.not_eq_false, List.isSuffixOf_iff_suffix] at h ends differ
  obtain ⟨stem, rfl⟩ := suffix_of_suffix_append starts noSlash ends
  have cut' : (lead ++ (stem ++ naming.suffix.toList)).take
      ((lead ++ (stem ++ naming.suffix.toList)).length - naming.suffix.toList.length)
      = lead ++ stem := by
    rw [← List.append_assoc, List.length_append, Nat.add_sub_cancel, List.take_left]
  refine ⟨stem, rest, ?_, noDot, rfl, ?_⟩
  · rintro rfl
    exact differ rfl
  · rw [← Option.some.inj h, String.toList_ofList, cut', List.append_assoc]

/-- A path that leads through names to a last one that does not start with a dot. -/
structure IsShown (path : String) (names : Location) : Prop where
  named : names.Named
  eq : path = join names
  nonempty : names ≠ []
  shown : ∀ name, names.getLast? = some name → name.toList.head? ≠ some '.'

theorem IsShown.stays {path : String} {names : Location} (h : IsShown path names)
    : ".." ∉ segments path := by
  rw [h.eq, Files.PathText.segments_join h.named h.nonempty]
  exact h.named.notAbove

/-- The output of a template leads to a place below any directory, and the template is the output
with the suffix before its last dot.
-/
structure IsOutput (naming : Naming) (template output : String) : Prop where
  eq : output = join (place output)
  stays : ".." ∉ segments output
  parts : ∃ front rest : List Char,
    '.' ∉ rest
    ∧ template.toList = front ++ naming.suffix.toList ++ '.' :: rest
    ∧ output.toList = front ++ '.' :: rest

/-- A dot that does not start a name makes no name that stands for a directory. -/
theorem isName_of_stem {stem rest : List Char} (nonempty : stem ≠ [])
    (shown : stem.head? ≠ some '.') (noSlash : '/' ∉ stem ++ '.' :: rest)
    : IsName (String.ofList (stem ++ '.' :: rest)) := by
  obtain ⟨first, more, rfl⟩ := List.exists_cons_of_ne_nil nonempty
  have other : first ≠ '.' := by simpa using shown
  have differs {text : String} (dots : text.toList.head? = some '.')
      : String.ofList (first :: more ++ '.' :: rest) ≠ text := by
    rintro rfl
    exact other (by simpa using dots)
  refine ⟨?_, differs rfl, differs rfl, by simpa using noSlash⟩
  intro empty
  simpa using congrArg String.toList empty

theorem isOutput_of_outputName? {template output : String} {names : Location}
    (noSlash : '/' ∉ naming.suffix.toList) (isShown : IsShown template names)
    (h : naming.outputName? template = some output)
    : IsOutput naming template output := by
  obtain ⟨named, rfl, nonempty, shown⟩ := isShown
  rcases List.eq_nil_or_concat names with rfl | ⟨above, name, rfl⟩
  · exact absurd rfl nonempty
  rw [List.concat_eq_append] at h named shown ⊢
  have isName : IsName name := named name (by simp)
  have shown : name.toList.head? ≠ some '.' := shown name (by simp)
  obtain ⟨lead, starts, joined⟩ := Files.PathText.exists_lead_of_join above
  have path : String.ofList (lead ++ name.toList) = join (above ++ [name]) := by
    rw [← joined, String.ofList_toList]
  rw [← path] at h
  obtain ⟨stem, rest, nonempty, noDot, eq, output_eq⟩ :=
    naming.outputName?_eq_some noSlash starts
      (fun empty => isName.nonempty (String.toList_inj.1 empty)) isName.noSlash h
  have isName' : IsName (String.ofList (stem ++ '.' :: rest)) := by
    refine isName_of_stem nonempty (fun isDot => shown ?_) fun member => isName.noSlash ?_
    · obtain ⟨more, rfl⟩ := List.head?_eq_some_iff.1 isDot
      simp [eq]
    · rw [eq, List.append_assoc]
      rcases List.mem_append.1 member with inStem | inRest
      · exact List.mem_append_left _ inStem
      · exact List.mem_append_right _ (List.mem_append_right _ inRest)
  have named' : Location.Named (above ++ [String.ofList (stem ++ '.' :: rest)]) :=
    named.left.concat isName'
  have joined' : output = join (above ++ [String.ofList (stem ++ '.' :: rest)]) := by
    rw [← String.toList_inj, output_eq, joined, String.toList_ofList]
  refine ⟨?_, ?_, lead ++ stem, rest, noDot, ?_, ?_⟩
  · rw [joined', Files.PathText.place_join named']
  · rw [joined', Files.PathText.segments_join named' (by simp)]
    exact named'.notAbove
  · rw [joined, eq]
    simp only [List.append_assoc]
  · rw [output_eq, List.append_assoc]

/-- Templates with outputs in one place are the same: the place tells the output, and the last dot
of that where the suffix was.
-/
theorem IsOutput.template_eq {template template' output output' : String}
    (h : IsOutput naming template output) (h' : IsOutput naming template' output')
    (same : place output = place output')
    : template = template' := by
  obtain ⟨front, rest, noDot, eq, out⟩ := h.parts
  obtain ⟨front', rest', noDot', eq', out'⟩ := h'.parts
  have outputs : front ++ '.' :: rest = front' ++ '.' :: rest' := by
    rw [← out, ← out', h.eq, h'.eq, same]
  have rests : rest = rest' := by
    rw [← Files.PathText.afterLastDot_eq front noDot, outputs,
      Files.PathText.afterLastDot_eq front' noDot']
  subst rests
  have fronts : front = front' := List.append_cancel_right outputs
  rw [← String.toList_inj, eq, eq', fronts]

end Config

end Stencil
