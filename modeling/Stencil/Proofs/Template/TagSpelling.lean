import Stencil.Proofs.Path.Spelling
import Stencil.Template.Tag

/-! The grammar of tag contents, and that the reader of tags accepts exactly this grammar.
A loop header is taken apart in one way only: a path holds neither blanks nor bars, and the
variable stands between the only two bars.
-/

namespace Stencil.Template.Tag

open Stencil.Text

/-- The spellings of a tag without outer blanks. -/
inductive Spelling : Tag → List Char → Prop
  | placeholder {path : Path} (path_wf : path.WellFormed) (notLoopWord : path ≠ ["each"])
    : Spelling (.placeholder path) path.format.toList
  | loopStart {path : Path} {binding : String} {gap space left right : List Char}
    (path_wf : path.WellFormed) (isName : Path.isName binding = true)
    (gapBlank : Blanks gap) (gap_ne_nil : gap ≠ []) (spaceBlank : Blanks space)
    (leftBlank : Blanks left) (rightBlank : Blanks right)
    : Spelling (.loopStart path binding)
        (loopWord ++ gap ++ path.format.toList ++ space
          ++ ['|'] ++ left ++ binding.toList ++ right ++ ['|'])
  | loopEnd : Spelling .loopEnd loopEndWord

/-- A content stands for a tag: it is a spelling of the tag between blanks. -/
def Written (tag : Tag) (content : List Char) : Prop :=
  ∃ left core right,
    Blanks left ∧ Spelling tag core ∧ Blanks right ∧ content = left ++ core ++ right

/-- A spelling stands for its tag. -/
theorem Spelling.written {tag : Tag} {core : List Char} (h : Spelling tag core)
    : Written tag core :=
  ⟨[], core, [], by simp [Blanks], h, by simp [Blanks], by simp⟩

/-- What follows the loop word in a content is nothing or starts with a blank. -/
def OpensLoop (content rest : List Char) : Prop :=
  content = loopWord ++ rest ∧ ∀ c more, rest = c :: more → isBlank c = true

/-- The complaint about a content without outer blanks that stands for no tag. -/
inductive Faulty : List Char → TagFault → Prop
  | empty : Faulty [] .empty
  | unknownClosing (rest : List Char)
    : Faulty ('/' :: rest) (.unknownClosing (String.ofList ('/' :: rest)))
  | malformedLoop {content rest : List Char} (opens : OpensLoop content rest)
    : Faulty content (.malformedLoop (String.ofList content))
  | notAPath {content : List Char} (nonempty : content ≠ [])
    (notClosing : ∀ rest, content ≠ '/' :: rest) (notLoop : ∀ rest, ¬ OpensLoop content rest)
    : Faulty content (.notAPath (String.ofList content))

-----------------------------------------------------------------------------------------
-- The parts of a loop header
-----------------------------------------------------------------------------------------

/-- Dropping as many characters as were taken leaves what was not taken. -/
theorem drop_length_takeWhile (p : Char → Bool) (text : List Char)
    : text.drop (text.takeWhile p).length = text.dropWhile p := by
  calc text.drop (text.takeWhile p).length
      = (text.takeWhile p ++ text.dropWhile p).drop (text.takeWhile p).length := by
        rw [List.takeWhile_append_dropWhile]
    _ = text.dropWhile p := List.drop_left

/-- The reader finds the loop word exactly where a content opens a loop. -/
theorem afterLoopWord?_eq_some_iff {content rest : List Char}
    : afterLoopWord? content = some rest ↔ OpensLoop content rest := by
  unfold afterLoopWord? OpensLoop
  constructor
  · intro h
    split at h
    · rename_i isPrefix
      obtain ⟨tail, rfl⟩ := List.isPrefixOf_iff_prefix.1 isPrefix
      simp only [List.drop_left] at h
      cases tail with
      | nil => simp_all
      | cons c more =>
          simp only [Option.ite_none_right_eq_some, Option.some.injEq] at h
          obtain ⟨blank, rfl⟩ := h
          refine ⟨rfl, ?_⟩
          rintro _ _ ⟨⟩
          exact blank
    · simp at h
  · rintro ⟨rfl, blank⟩
    have isPrefix : loopWord.isPrefixOf (loopWord ++ rest) = true :=
      List.isPrefixOf_iff_prefix.2 ⟨rest, rfl⟩
    rw [if_pos isPrefix]
    simp only [List.drop_left]
    cases rest with
    | nil => rfl
    | cons c more => simp [blank c more rfl]

/-- Bars are read exactly where they surround a text without bars. -/
theorem betweenBars?_eq_some_iff {text name : List Char}
    : betweenBars? text = some name ↔ text = ['|'] ++ name ++ ['|'] ∧ '|' ∉ name := by
  constructor
  · intro h
    unfold betweenBars? at h
    split at h
    · rename_i rest
      simp only [Option.ite_none_right_eq_some, Option.some.injEq] at h
      obtain ⟨closed, rfl⟩ := h
      rw [drop_length_takeWhile] at closed
      constructor
      · have whole : rest.takeWhile (· != '|') ++ rest.dropWhile (· != '|') = rest :=
          List.takeWhile_append_dropWhile
        rw [closed] at whole
        simp [whole]
      · intro member
        simpa using List.all_eq_true.1 List.all_takeWhile _ member
    · simp at h
  · rintro ⟨rfl, noBar⟩
    have allOther : ∀ c ∈ name, (c != '|') = true := by
      intro c member
      simp only [bne_iff_ne]
      rintro rfl
      exact noBar member
    simp [betweenBars?, List.takeWhile_append_of_pos allOther]

/-- The characters of a path go on to its end: the blanks or the bar behind it stop them. -/
theorem takeWhile_source {path : Path} (path_wf : path.WellFormed) {space : List Char}
    (spaceBlank : Blanks space) (rest : List Char)
    : (path.format.toList ++ (space ++ ['|'] ++ rest)).takeWhile
          (fun c => !isBlank c && c != '|')
        = path.format.toList := by
  have inPath : ∀ c ∈ path.format.toList, (!isBlank c && c != '|') = true := by
    intro c member
    have notBar : c ≠ '|' := by
      rintro rfl
      exact path_wf.not_mem (by decide) (by decide) member
    simp [path_wf.not_isBlank member, notBar]
  rw [List.takeWhile_append_of_pos inPath]
  cases space with
  | nil => simp
  | cons c more => simp [spaceBlank c (by simp)]

/-- Neither a name nor the blanks around it hold a bar. -/
theorem bar_not_mem_between {binding : String} {left right : List Char}
    (isName : Path.isName binding = true) (leftBlank : Blanks left) (rightBlank : Blanks right)
    : '|' ∉ left ++ binding.toList ++ right := by
  simp only [List.mem_append, not_or]
  refine ⟨⟨fun bar => ?_, fun bar => ?_⟩, fun bar => ?_⟩
  · exact absurd (leftBlank _ bar) (by decide)
  · exact Path.not_mem_of_isName isName (by decide) bar
  · exact absurd (rightBlank _ bar) (by decide)

/-- Trimming the start in front of a bar removes the blanks up to the bar. -/
theorem trimStart_bars {space : List Char} (spaceBlank : Blanks space) (name : List Char)
    : trimStart (space ++ ['|'] ++ (name ++ ['|'])) = ['|'] ++ name ++ ['|'] := by
  have barStarts : trimStart (['|'] ++ name ++ ['|']) = ['|'] ++ name ++ ['|'] :=
    trimStart_eq_self (by rintro c rest ⟨⟩; decide)
  rw [List.append_assoc, trimStart_append spaceBlank, ← List.append_assoc, barStarts]

/-- A loop header is read exactly as a path, a bar, a variable and a bar, each of the three
gaps between them being blank.
-/
theorem loopHeader?_eq_some_iff {text : List Char} {path : Path} {binding : String}
    : loopHeader? text = some (path, binding)
      ↔ path.WellFormed
        ∧ Path.isName binding = true
        ∧ ∃ gap space left right,
            Blanks gap ∧ Blanks space ∧ Blanks left ∧ Blanks right
            ∧ text
              = gap ++ (path.format.toList
                ++ (space ++ ['|'] ++ (left ++ binding.toList ++ right ++ ['|']))) := by
  constructor
  · intro h
    simp only [loopHeader?, Option.bind_eq_bind, Option.bind_eq_some_iff,
      Option.ite_none_right_eq_some, Option.some.injEq, Prod.mk.injEq] at h
    obtain ⟨path', isPath, name, isBars, isName, rfl, rfl⟩ := h
    obtain ⟨path_wf, source⟩ := Path.ofText?_eq_some_iff.1 isPath
    obtain ⟨bars, _⟩ := betweenBars?_eq_some_iff.1 isBars
    obtain ⟨gap, gapBlank, gapEq⟩ := exists_trimStart text
    obtain ⟨space, spaceBlank, spaceEq⟩ :=
      exists_trimStart ((trimStart text).drop path'.format.toList.length)
    obtain ⟨left, right, leftBlank, rightBlank, nameEq⟩ := exists_trim name
    have whole
        : path'.format.toList ++ (trimStart text).drop path'.format.toList.length
          = trimStart text := by
      rw [← source, drop_length_takeWhile, List.takeWhile_append_dropWhile]
    refine ⟨path_wf, by simpa [Path.isName] using isName, gap, space, left, right, gapBlank,
      spaceBlank, leftBlank, rightBlank, ?_⟩
    rw [source] at bars
    rw [bars] at spaceEq
    rw [← whole, spaceEq] at gapEq
    rw [String.toList_ofList, ← nameEq, gapEq]
    simp
  · rintro ⟨path_wf, isName, gap, space, left, right, gapBlank, spaceBlank, leftBlank,
      rightBlank, rfl⟩
    have nameSolid : ∀ c ∈ binding.toList, isBlank c = false :=
      fun c member => Path.not_isBlank_of_isNameChar ((Path.isNameText_iff.1 isName).2 c member)
    have noBar := bar_not_mem_between isName leftBlank rightBlank
    have bars := betweenBars?_eq_some_iff.2 ⟨rfl, noBar⟩
    have afterSource := trimStart_bars spaceBlank (left ++ binding.toList ++ right)
    have isPath := Path.ofText?_eq_some_iff.2 ⟨path_wf, rfl⟩
    simp only [loopHeader?, trimStart_append gapBlank,
      trimStart_solid path_wf.format_ne_nil (fun c => path_wf.not_isBlank),
      takeWhile_source path_wf spaceBlank, isPath, List.drop_left, afterSource, bars,
      trim_of_blanks leftBlank (unpadded_of_solid nameSolid) rightBlank,
      Option.bind_eq_bind, Option.bind_some]
    rw [if_pos (by simpa [Path.isName] using isName), String.ofList_toList]

-----------------------------------------------------------------------------------------
-- Whole tags
-----------------------------------------------------------------------------------------

/-- A spelling has no blanks at its ends: it is a path, or it runs from the loop word to a bar,
or it is the word of a loop end.
-/
theorem Spelling.unpadded {tag : Tag} {core : List Char} (h : Spelling tag core)
    : Unpadded core := by
  cases h with
  | placeholder path_wf _ => exact unpadded_of_solid fun c => path_wf.not_isBlank
  | loopStart =>
      constructor
      · rintro c rest ⟨⟩
        decide
      · intro rest c eq
        obtain ⟨_, eq⟩ := List.append_inj' eq rfl
        cases eq
        decide
  | loopEnd =>
      have solid : loopEndWord.all (fun c => !isBlank c) = true := by decide
      exact unpadded_of_solid fun c member => by simpa using List.all_eq_true.1 solid c member

/-- A spelling other than that of a loop end is not its word. -/
theorem Spelling.eq_loopEnd {tag : Tag} (h : Spelling tag loopEndWord) : tag = .loopEnd := by
  generalize eq : loopEndWord = core at h
  cases h with
  | placeholder path_wf _ =>
      have slash : '/' ∈ (_ : Path).format.toList := eq ▸ (by decide : '/' ∈ loopEndWord)
      exact (path_wf.not_mem (by decide) (by decide) slash).elim
  | loopStart => cases eq
  | loopEnd => rfl

/-- A path other than the bare loop word opens no loop: the character behind the loop word
would be a blank, and a path has none.
-/
theorem not_opensLoop_format {path : Path} (path_wf : path.WellFormed)
    (notLoopWord : path ≠ ["each"]) (rest : List Char)
    : ¬ OpensLoop path.format.toList rest := by
  rintro ⟨eq, blank⟩
  cases rest with
  | nil =>
      have isPath := Path.ofText?_eq_some_iff.2 ⟨path_wf, rfl⟩
      have isLoopWord : Path.ofText? loopWord = some ["each"] := by decide
      rw [eq, List.append_nil, isLoopWord] at isPath
      exact notLoopWord (Option.some.inj isPath).symm
  | cons c more =>
      have solid := path_wf.not_isBlank (c := c) (by simp [eq])
      simp [blank c more rfl] at solid

/-- The loop word opens a loop, so it is no placeholder. -/
theorem opensLoop_loopWord : OpensLoop loopWord [] := ⟨rfl, by simp⟩

/-- A content that opens a loop is a spelling exactly of the loop whose header follows.
The gap behind the loop word is not empty, since a path does not start with a blank.
-/
theorem spelling_iff_of_opensLoop {content rest : List Char} {tag : Tag}
    (opens : OpensLoop content rest)
    : Spelling tag content
      ↔ ∃ path binding,
          loopHeader? rest = some (path, binding) ∧ tag = .loopStart path binding := by
  constructor
  · intro h
    cases h with
    | placeholder path_wf notLoopWord =>
        exact (not_opensLoop_format path_wf notLoopWord rest opens).elim
    | @loopStart path binding gap space left right path_wf isName gapBlank gap_ne_nil
        spaceBlank leftBlank rightBlank =>
        refine ⟨path, binding, loopHeader?_eq_some_iff.2 ⟨path_wf, isName, gap, space, left,
          right, gapBlank, spaceBlank, leftBlank, rightBlank, ?_⟩, rfl⟩
        refine List.append_cancel_left (?_ : loopWord ++ _ = loopWord ++ _)
        rw [← opens.1]
        simp
    | loopEnd => cases opens.1
  · rintro ⟨path, binding, header, rfl⟩
    obtain ⟨path_wf, isName, gap, space, left, right, gapBlank, spaceBlank, leftBlank,
      rightBlank, eq⟩ := loopHeader?_eq_some_iff.1 header
    have gap_ne_nil : gap ≠ [] := by
      rintro rfl
      cases text : path.format.toList with
      | nil => exact path_wf.format_ne_nil text
      | cons c more =>
          rw [text] at eq
          have blank := opens.2 c _ eq
          simp [path_wf.not_isBlank (c := c) (by simp [text])] at blank
    have spelled := Spelling.loopStart path_wf isName gapBlank gap_ne_nil spaceBlank leftBlank
      rightBlank
    rw [opens.1, eq]
    simpa using spelled

/-- A content that opens no loop and ends none is a spelling exactly of its placeholder. -/
theorem spelling_iff_of_not_opensLoop {content : List Char} {tag : Tag}
    (notLoop : ∀ rest, ¬ OpensLoop content rest) (notLoopEnd : content ≠ loopEndWord)
    : Spelling tag content
      ↔ ∃ path, Path.ofText? content = some path ∧ tag = .placeholder path := by
  constructor
  · intro h
    cases h with
    | @placeholder path path_wf _ => exact ⟨path, Path.ofText?_eq_some_iff.2 ⟨path_wf, rfl⟩, rfl⟩
    | @loopStart path binding gap space left right path_wf isName gapBlank gap_ne_nil =>
        refine (notLoop (gap ++ (path.format.toList ++ space ++ ['|'] ++ left ++ binding.toList
          ++ right ++ ['|'])) ⟨by simp, ?_⟩).elim
        intro c more eq
        cases gap with
        | nil => exact absurd rfl gap_ne_nil
        | cons d gap =>
            cases eq
            exact gapBlank c (by simp)
    | loopEnd => exact absurd rfl notLoopEnd
  · rintro ⟨path, isPath, rfl⟩
    obtain ⟨path_wf, rfl⟩ := Path.ofText?_eq_some_iff.1 isPath
    refine .placeholder path_wf ?_
    rintro rfl
    exact notLoop [] opensLoop_loopWord

/-- The reader tells the tag that the trimmed content spells, or the fault it has. -/
theorem ofContent_cases (content : List Char)
    : (∃ tag, ofContent content = .ok tag
        ∧ ∀ other, Spelling other (trim content) ↔ other = tag)
      ∨ ∃ fault, ofContent content = .error fault
          ∧ Faulty (trim content) fault
          ∧ ∀ tag, ¬ Spelling tag (trim content) := by
  unfold ofContent
  generalize trim content = core
  by_cases isEnd : core = loopEndWord
  · subst isEnd
    exact Or.inl ⟨.loopEnd, rfl, fun other => ⟨Spelling.eq_loopEnd, fun eq => eq ▸ .loopEnd⟩⟩
  simp only [isEnd, if_false]
  cases word : afterLoopWord? core with
  | some rest =>
      have opens := afterLoopWord?_eq_some_iff.1 word
      cases header : loopHeader? rest with
      | some pair =>
          refine Or.inl ⟨.loopStart pair.1 pair.2, by simp only [header], fun other => ?_⟩
          rw [spelling_iff_of_opensLoop opens, header]
          constructor
          · rintro ⟨path, binding, ⟨⟩, rfl⟩
            rfl
          · rintro rfl
            exact ⟨_, _, rfl, rfl⟩
      | none =>
          refine Or.inr ⟨_, by simp only [header], .malformedLoop opens, fun tag h => ?_⟩
          simp [spelling_iff_of_opensLoop opens, header] at h
  | none =>
      have notLoop : ∀ rest, ¬ OpensLoop core rest := by
        intro rest opens
        simp [afterLoopWord?_eq_some_iff.2 opens] at word
      cases isPath : Path.ofText? core with
      | some path =>
          refine Or.inl ⟨.placeholder path, rfl, fun other => ?_⟩
          simp [spelling_iff_of_not_opensLoop notLoop isEnd, isPath]
      | none =>
          refine Or.inr ⟨faultOf core, rfl, ?_, fun tag h => ?_⟩
          · unfold faultOf
            split
            · exact .empty
            · exact .unknownClosing _
            · rename_i nonempty notClosing
              exact .notAPath nonempty notClosing notLoop
          · simp [spelling_iff_of_not_opensLoop notLoop isEnd, isPath] at h

/-- A content stands for a tag exactly if its trimmed form spells the tag. -/
theorem written_iff {tag : Tag} {content : List Char}
    : Written tag content ↔ Spelling tag (trim content) := by
  constructor
  · rintro ⟨left, core, right, leftBlank, spelled, rightBlank, rfl⟩
    rwa [trim_of_blanks leftBlank spelled.unpadded rightBlank]
  · intro spelled
    obtain ⟨left, right, leftBlank, rightBlank, eq⟩ := exists_trim content
    exact ⟨left, trim content, right, leftBlank, spelled, rightBlank, eq⟩

/-- A content without outer blanks has one fault only. -/
theorem Faulty.unique {core : List Char} {fault other : TagFault} (h : Faulty core fault)
    (h' : Faulty core other)
    : fault = other := by
  cases h with
  | empty =>
      cases h' with
      | empty => rfl
      | malformedLoop opens => cases opens.1
      | notAPath nonempty => exact absurd rfl nonempty
  | unknownClosing rest =>
      cases h' with
      | unknownClosing => rfl
      | malformedLoop opens => cases opens.1
      | notAPath _ notClosing => exact absurd rfl (notClosing rest)
  | malformedLoop opens =>
      cases h' with
      | empty => cases opens.1
      | unknownClosing => cases opens.1
      | malformedLoop => rfl
      | notAPath _ _ notLoop => exact absurd opens (notLoop _)
  | notAPath nonempty notClosing notLoop =>
      cases h' with
      | empty => exact absurd rfl nonempty
      | unknownClosing rest => exact absurd rfl (notClosing rest)
      | malformedLoop opens => exact absurd opens (notLoop _)
      | notAPath => rfl

/-- The reader gives a tag exactly for the contents that stand for it. -/
theorem ofContent_eq_ok_iff {content : List Char} {tag : Tag}
    : ofContent content = .ok tag ↔ Written tag content := by
  rw [written_iff]
  rcases ofContent_cases content with ⟨found, eq, only⟩ | ⟨fault, eq, _, none⟩
  · rw [eq, only tag, Except.ok.injEq, eq_comm]
  · simp [eq, none tag]

/-- The reader gives a fault exactly for the contents that stand for no tag and have it. -/
theorem ofContent_eq_error_iff {content : List Char} {fault : TagFault}
    : ofContent content = .error fault
      ↔ (∀ tag, ¬ Written tag content) ∧ Faulty (trim content) fault := by
  simp only [written_iff]
  rcases ofContent_cases content with ⟨found, eq, only⟩ | ⟨fault', eq, faulty, none⟩
  · simp only [eq, reduceCtorEq, false_iff, not_and]
    intro nothing
    exact absurd ((only found).2 rfl) (nothing found)
  · simp only [eq, Except.error.injEq]
    exact ⟨fun same => same ▸ ⟨none, faulty⟩, fun h => faulty.unique h.2⟩

end Stencil.Template.Tag
