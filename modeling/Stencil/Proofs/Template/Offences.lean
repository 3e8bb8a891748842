import Stencil.Proofs.Template.LoopMatching
import Stencil.Proofs.Template.Scanning
import Stencil.Proofs.Template.TagSpelling

/-! What is wrong with a template text. Tokenizing fails exactly at the first tag that offends, or
else at the first loop start that stays unmatched, and the text behind a tag has no part in what
is wrong with it.
-/

namespace Stencil.Template

open Stencil.Text

/-- A text at a position is read through closed tags up to a rest. Escaped tags are passed; any
other one stands for a tag, which is told with the position of its delimiter.
-/
inductive Reads : Position → List Char → Tags → Position → List Char → Prop
  | stop (position : Position) (text : List Char) : Reads position text [] position text
  | escaped {position place : Position} {text before after content rest last : List Char}
    {tags : Tags}
    (opens : FirstPlace opening text before after)
    (closes : FirstPlace closing after content rest)
    (odd : Piece.escapes before = true)
    (later : Reads (position.after (Piece.throughTag before content)) rest tags place last)
    : Reads position text tags place last
  | live {position place : Position} {text before after content rest last : List Char}
    {tag : Tag} {tags : Tags}
    (opens : FirstPlace opening text before after)
    (closes : FirstPlace closing after content rest)
    (even : Piece.escapes before = false)
    (written : Tag.Written tag content)
    (later : Reads (position.after (Piece.throughTag before content)) rest tags place last)
    : Reads position text ((tag, position.after before) :: tags) place last

/-- The first tag of a text at a position offends behind the tags before it: it is not closed, or
it is not escaped and stands for no tag or for a loop end where no loop is open.
-/
inductive TagOffence (tags : Tags) (position : Position) (text : List Char) : Error → Prop
  | unclosedTag {before after : List Char}
    (opens : FirstPlace opening text before after)
    (absent : ¬ closing <:+: after)
    : TagOffence tags position text
        (.unclosedTag (Piece.escapes before) (Piece.tagPosition position before))
  | invalidTag {before after content rest : List Char} {fault : TagFault}
    (opens : FirstPlace opening text before after)
    (closes : FirstPlace closing after content rest)
    (even : Piece.escapes before = false)
    (notTag : ∀ tag, ¬ Tag.Written tag content)
    (faulty : Tag.Faulty (trim content) fault)
    : TagOffence tags position text (.invalidTag fault (position.after before))
  | strayLoopEnd {before after content rest : List Char}
    (opens : FirstPlace opening text before after)
    (closes : FirstPlace closing after content rest)
    (even : Piece.escapes before = false)
    (written : Tag.Written .loopEnd content)
    (noneOpen : tags.starts = tags.ends)
    : TagOffence tags position text (.strayLoopEnd (position.after before))

/-- What is wrong with a template text: the first tag that offends, or the first loop start that
stays unmatched if none does.
-/
inductive Offence (text : List Char) : Error → Prop
  | tag {tags : Tags} {position : Position} {rest : List Char} {cause : Error}
    (reads : Reads .start text tags position rest)
    (covered : tags.Covered)
    (offends : TagOffence tags position rest cause)
    : Offence text cause
  | unclosedLoop {tags : Tags} {position place : Position} {rest : List Char} {path : Path}
    (reads : Reads .start text tags position rest)
    (covered : tags.Covered)
    (absent : ¬ opening <:+: rest)
    (unmatched : tags.FirstUnmatched path place)
    : Offence text (.unclosedLoop path.format place)

-----------------------------------------------------------------------------------------
-- Assembling what is left of a text
-----------------------------------------------------------------------------------------

namespace Assembly

variable {position : Position} {text before after content rest : List Char}

/-- The assembly after the pieces of a text at a position, or the first thing wrong with them. -/
def addText (assembly : Assembly) (position : Position) (text : List Char)
    : Except Error Assembly :=
  (Piece.scanFrom position text #[]).toList.foldlM add assembly

/-- Tokenizing a text is finishing its assembly. -/
theorem tokenize_eq (text : String)
    : tokenize text = (empty.addText .start text.toList).bind finish := by
  simp only [tokenize, addText, Piece.scan, ← Array.foldlM_toList]
  rfl

/-- A literal piece leaves the open loops as they are. -/
theorem exists_foldlM_ofLiteral (assembly : Assembly) (text : List Char) (position : Position)
    : ∃ next,
        (Piece.ofLiteral text position).foldlM add assembly = .ok next
        ∧ next.openLoops = assembly.openLoops := by
  unfold Piece.ofLiteral
  split
  · exact ⟨assembly, rfl, rfl⟩
  · exact ⟨_, rfl, rfl⟩

/-- A text without tags leaves the open loops as they are. -/
theorem addText_of_absent (absent : ¬ opening <:+: text) (assembly : Assembly)
    : ∃ next,
        assembly.addText position text = .ok next
        ∧ next.openLoops = assembly.openLoops := by
  rw [addText, Piece.scanFrom_of_absent absent]
  simpa using exists_foldlM_ofLiteral assembly text position

/-- A text whose first tag is not closed fails there. -/
theorem addText_of_unclosed (opens : FirstPlace opening text before after)
    (absent : ¬ closing <:+: after) (assembly : Assembly)
    : assembly.addText position text
      = .error (.unclosedTag (Piece.escapes before) (Piece.tagPosition position before)) := by
  obtain ⟨next, added, _⟩ :=
    exists_foldlM_ofLiteral assembly (Piece.literalBefore before) position
  rw [addText, Piece.scanFrom_of_unclosed opens absent]
  simp only [Array.toList_push, Array.toList_appendList, List.nil_append, List.foldlM_append, added]
  rfl

/-- A text whose first tag is closed goes on behind it, after the piece of the tag. -/
theorem addText_of_closed (opens : FirstPlace opening text before after)
    (closes : FirstPlace closing after content rest) (assembly : Assembly)
    : ∃ next : Assembly,
        next.openLoops = assembly.openLoops
        ∧ assembly.addText position text
          = (next.add (Piece.ofTag before content, Piece.tagPosition position before)).bind
              fun last => last.addText (position.after (Piece.throughTag before content)) rest := by
  obtain ⟨next, added, same⟩ :=
    exists_foldlM_ofLiteral assembly (Piece.literalBefore before) position
  obtain ⟨pieces, _, appends⟩ :=
    Piece.exists_scan (position.after (Piece.throughTag before content)) rest
  have whole : (Piece.scanFrom position text #[]).toList
      = Piece.ofLiteral (Piece.literalBefore before) position
        ++ (Piece.ofTag before content, Piece.tagPosition position before) :: pieces := by
    rw [Piece.scanFrom_of_closed opens closes, appends]
    simp
  have behind := appends #[]
  refine ⟨next, same, ?_⟩
  simp only [addText, whole, behind, List.foldlM_append, added]
  rfl

/-- A live tag changes the open loops as it stands for a loop start, a loop end or neither. -/
theorem add_live {content : List Char} {tag : Tag} {tags : Tags} {place : Position}
    {assembly : Assembly} (written : Tag.Written tag content)
    (loops : Tags.OpenBehind assembly.openLoops tags)
    (covered : Tags.Covered (tags ++ [(tag, place)]))
    : ∃ next,
        assembly.add (.tag content, place) = .ok next
        ∧ Tags.OpenBehind next.openLoops (tags ++ [(tag, place)]) := by
  simp only [add, Tag.ofContent_eq_ok_iff.2 written]
  cases tag with
  | placeholder path =>
      exact ⟨_, rfl, loops.append (Tags.balanced_placeholder path place)⟩
  | loopStart path binding =>
      have opened : Tags.OpenBehind
          (⟨assembly.tokens.size, path, place⟩ :: assembly.openLoops)
          (tags ++ [(.loopStart path binding, place)]) :=
        .inside loops Tags.balanced_nil
      exact ⟨_, rfl, opened⟩
  | loopEnd =>
      simp only [closeLoop]
      cases all : assembly.openLoops with
      | nil =>
          rw [all] at loops
          have equal := loops.covered.2
          have more := covered.ends_le
          simp [Tags.starts, Tags.ends, Tag.startsLoop, Tag.endsLoop] at equal more
          omega
      | cons innermost outer =>
          rw [all] at loops
          exact ⟨_, rfl, loops.close place⟩

/-- Reading on through tags that are covered, the assembly goes on with the rest of the text, and
the open loops are those behind the tags. By induction on the reading.
-/
theorem addText_of_reads {position place : Position} {text last : List Char} {tags read : Tags}
    (reads : Reads position text read place last) {assembly : Assembly}
    (loops : Tags.OpenBehind assembly.openLoops tags) (covered : Tags.Covered (tags ++ read))
    : ∃ next : Assembly,
        assembly.addText position text = next.addText place last
        ∧ Tags.OpenBehind next.openLoops (tags ++ read) := by
  induction reads generalizing assembly tags with
  | stop position text => exact ⟨assembly, rfl, by simpa using loops⟩
  | @escaped position place text before after content rest last read opens closes odd _ ih =>
      obtain ⟨next, same, goesOn⟩ := addText_of_closed opens closes assembly
      have next_loops : Tags.OpenBehind (next.push (.escaped (String.ofList
          (opening ++ content ++ closing)) (Piece.tagPosition position before))).openLoops tags :=
        same ▸ loops
      obtain ⟨final, eq, final_loops⟩ := ih next_loops covered
      refine ⟨final, ?_, final_loops⟩
      rw [goesOn, Piece.ofTag, if_pos odd]
      exact eq
  | @live position place text before after content rest last tag read opens closes even written _
      ih =>
      obtain ⟨next, same, goesOn⟩ := addText_of_closed opens closes assembly
      rw [← List.singleton_append, ← List.append_assoc] at covered ⊢
      obtain ⟨behind, added, behind_loops⟩ := add_live written (same ▸ loops) covered.left
      obtain ⟨final, eq, final_loops⟩ := ih behind_loops covered
      refine ⟨final, ?_, final_loops⟩
      rw [goesOn, Piece.ofTag, if_neg (by simp [even]), Piece.tagPosition, if_neg (by simp [even]),
        added]
      exact eq

/-- A tag that offends makes the assembly fail. -/
theorem addText_of_offends {tags : Tags} {position : Position} {text : List Char} {cause : Error}
    (offends : TagOffence tags position text cause) {assembly : Assembly}
    (loops : Tags.OpenBehind assembly.openLoops tags)
    : assembly.addText position text = .error cause := by
  cases offends with
  | unclosedTag opens absent => exact addText_of_unclosed opens absent assembly
  | @invalidTag before after content rest fault opens closes even notTag faulty =>
      obtain ⟨next, _, goesOn⟩ := addText_of_closed opens closes assembly
      have fails := Tag.ofContent_eq_error_iff.2 ⟨notTag, faulty⟩
      rw [goesOn, Piece.ofTag, if_neg (by simp [even]), Piece.tagPosition, if_neg (by simp [even]),
        add, fails]
      rfl
  | @strayLoopEnd before after content rest opens closes even written noneOpen =>
      obtain ⟨next, same, goesOn⟩ := addText_of_closed opens closes assembly
      have none : next.openLoops = [] := by
        have count := loops.covered.2
        rw [same]
        exact List.length_eq_zero_iff.1 (by omega)
      rw [goesOn, Piece.ofTag, if_neg (by simp [even]), Piece.tagPosition, if_neg (by simp [even])]
      simp only [add, Tag.ofContent_eq_ok_iff.2 written, closeLoop, none]
      rfl

/-- Finishing fails exactly if a loop start stays unmatched, and names the first one. -/
theorem finish_eq_error_iff {tags : Tags} {assembly : Assembly}
    (loops : Tags.OpenBehind assembly.openLoops tags) {cause : Error}
    : assembly.finish = .error cause
      ↔ ∃ path place,
          tags.FirstUnmatched path place ∧ cause = .unclosedLoop path.format place := by
  simp only [loops.firstUnmatched_iff, finish]
  cases assembly.openLoops.getLast? with
  | none => simp
  | some outermost =>
      constructor
      · rintro ⟨⟩
        exact ⟨_, _, ⟨outermost, rfl, rfl, rfl⟩, rfl⟩
      · rintro ⟨_, _, ⟨_, ⟨⟩, rfl, rfl⟩, rfl⟩
        rfl

end Assembly

-----------------------------------------------------------------------------------------
-- The first offence of a text
-----------------------------------------------------------------------------------------

/-- A tag behind covered tags leaves them covered, unless it is a loop end and no loop is open. -/
theorem Tags.Covered.append_tag {tags : Tags} (h : tags.Covered) (tag : Tag) (place : Position)
    : Tags.Covered (tags ++ [(tag, place)]) ∨ tag = .loopEnd ∧ tags.starts = tags.ends := by
  cases tag with
  | placeholder path => exact Or.inl (h.append (balanced_placeholder path place).covered)
  | loopStart path binding =>
      exact Or.inl (h.append (balanced_nil.covered.loopStart path binding place))
  | loopEnd =>
      have most := h.ends_le
      by_cases noneOpen : tags.starts = tags.ends
      · exact Or.inr ⟨rfl, noneOpen⟩
      · exact Or.inl (h.loopEnd (by omega) place)

/-- Every text is read up to a rest without tags or up to a tag that offends, by induction on the
length of the text.
-/
theorem exists_reads {tags : Tags} (covered : tags.Covered) (position : Position)
    (text : List Char)
    : ∃ read place rest,
        Reads position text read place rest
        ∧ Tags.Covered (tags ++ read)
        ∧ (¬ opening <:+: rest ∨ ∃ cause, TagOffence (tags ++ read) place rest cause) := by
  have stops {cause : Error} (offends : TagOffence tags position text cause)
      : ∃ read place rest,
          Reads position text read place rest
          ∧ Tags.Covered (tags ++ read)
          ∧ (¬ opening <:+: rest ∨ ∃ cause, TagOffence (tags ++ read) place rest cause) := by
    rw [← List.append_nil tags] at covered offends
    exact ⟨[], position, text, .stop position text, covered, Or.inr ⟨_, offends⟩⟩
  rcases Piece.firstPlace_or_absent opening_ne_nil text with ⟨before, after, opens⟩ | absent
  · rcases Piece.firstPlace_or_absent closing_ne_nil after with ⟨content, rest, closes⟩ | absent
    · have shorter := Piece.length_rest_lt opens closes
      cases escaped : Piece.escapes before with
      | true =>
          obtain ⟨read, place, last, reads, covered', ending⟩ :=
            exists_reads covered (position.after (Piece.throughTag before content)) rest
          exact ⟨read, place, last, .escaped opens closes escaped reads, covered', ending⟩
      | false =>
          cases found : Tag.ofContent content with
          | error fault =>
              obtain ⟨notTag, faulty⟩ := Tag.ofContent_eq_error_iff.1 found
              exact stops (.invalidTag opens closes escaped notTag faulty)
          | ok tag =>
              have written := Tag.ofContent_eq_ok_iff.1 found
              rcases covered.append_tag tag (position.after before)
                with further | ⟨rfl, noneOpen⟩
              · obtain ⟨read, place, last, reads, covered', ending⟩ :=
                  exists_reads further (position.after (Piece.throughTag before content)) rest
                rw [List.append_assoc, List.singleton_append] at covered' ending
                exact ⟨_, place, last, .live opens closes escaped written reads, covered', ending⟩
              · exact stops (.strayLoopEnd opens closes escaped written noneOpen)
    · exact stops (.unclosedTag opens absent)
  · rw [← List.append_nil tags] at covered
    exact ⟨[], position, text, .stop position text, covered, Or.inl absent⟩
  termination_by text.length

/-- Tokenizing a text that is read up to a rest is going on with the rest, where the loops are
open that the tags leave open.
-/
theorem tokenize_of_reads {text : List Char} {tags : Tags} {position : Position}
    {rest : List Char} (reads : Reads .start text tags position rest) (covered : tags.Covered)
    : ∃ assembly : Assembly,
        tokenize (String.ofList text) = (assembly.addText position rest).bind Assembly.finish
        ∧ Tags.OpenBehind assembly.openLoops tags := by
  have none : Tags.OpenBehind Assembly.empty.openLoops [] := .none Tags.balanced_nil
  obtain ⟨assembly, eq, loops⟩ := Assembly.addText_of_reads reads none covered
  refine ⟨assembly, ?_, loops⟩
  rw [Assembly.tokenize_eq, String.toList_ofList, eq]

/-- An offence of a text is what tokenizing fails with. -/
theorem Offence.tokenize_eq {text : List Char} {cause : Error} (h : Offence text cause)
    : tokenize (String.ofList text) = .error cause := by
  cases h with
  | tag reads covered offends =>
      obtain ⟨assembly, eq, loops⟩ := tokenize_of_reads reads covered
      rw [eq, Assembly.addText_of_offends offends loops]
      rfl
  | unclosedLoop reads covered absent unmatched =>
      obtain ⟨assembly, eq, loops⟩ := tokenize_of_reads reads covered
      obtain ⟨last, added, same⟩ := Assembly.addText_of_absent absent assembly
      rw [eq, added]
      exact (Assembly.finish_eq_error_iff (same ▸ loops)).2 ⟨_, _, unmatched, rfl⟩

/-- What tokenizing fails with is an offence of the text: the text is read as far as it goes, and
there tokenizing fails with the offence found or with an unmatched loop start.
-/
theorem offence_of_tokenize {text : List Char} {cause : Error}
    (fails : tokenize (String.ofList text) = .error cause)
    : Offence text cause := by
  obtain ⟨tags, position, rest, reads, covered, ending⟩ :=
    exists_reads Tags.balanced_nil.covered .start text
  rcases ending with absent | ⟨found, offends⟩
  · obtain ⟨assembly, eq, loops⟩ := tokenize_of_reads reads covered
    obtain ⟨last, added, same⟩ := Assembly.addText_of_absent absent assembly
    rw [eq, added] at fails
    obtain ⟨path, place, unmatched, rfl⟩ :=
      (Assembly.finish_eq_error_iff (same ▸ loops)).1 fails
    exact .unclosedLoop reads covered absent unmatched
  · -- A text has one outcome, so the offence found is the one that tokenizing fails with.
    have offence : Offence text found := .tag reads covered offends
    have eq := offence.tokenize_eq.symm.trans fails
    cases eq
    exact offence

-----------------------------------------------------------------------------------------
-- The text behind an offending tag
-----------------------------------------------------------------------------------------

/-- The first tag of a text stays the first one, and as it is, whatever follows it. -/
theorem Piece.firstPlace_throughTag {text before after content rest : List Char}
    (opens : FirstPlace opening text before after)
    (closes : FirstPlace closing after content rest)
    : text = throughTag before content ++ rest
      ∧ ∀ other,
          FirstPlace opening (throughTag before content ++ other) before
            (content ++ closing ++ other)
          ∧ FirstPlace closing (content ++ closing ++ other) content other := by
  constructor
  · rw [opens.whole, closes.whole, throughTag]
    simp
  · intro other
    have opens' := opens.replaceAfter (content ++ closing ++ other)
    exact ⟨by simpa [throughTag] using opens', closes.replaceAfter other⟩

/-- What a text is read through is read in the same way whatever follows it, by induction on the
reading.
-/
theorem Reads.exists_lead {position place : Position} {text rest : List Char} {tags : Tags}
    (h : Reads position text tags place rest)
    : ∃ lead,
        text = lead ++ rest
        ∧ place = position.after lead
        ∧ ∀ other, Reads position (lead ++ other) tags place other := by
  induction h with
  | stop position text => exact ⟨[], rfl, rfl, .stop position⟩
  | @escaped position place text before after content rest last tags opens closes odd _ ih =>
      obtain ⟨lead, rfl, there, any⟩ := ih
      obtain ⟨whole, first⟩ := Piece.firstPlace_throughTag opens closes
      refine ⟨Piece.throughTag before content ++ lead, by simp [whole], by simp [there], ?_⟩
      intro other
      rw [List.append_assoc]
      exact .escaped (first _).1 (first _).2 odd (any other)
  | @live position place text before after content rest last tag tags opens closes even written _
      ih =>
      obtain ⟨lead, rfl, there, any⟩ := ih
      obtain ⟨whole, first⟩ := Piece.firstPlace_throughTag opens closes
      refine ⟨Piece.throughTag before content ++ lead, by simp [whole], by simp [there], ?_⟩
      intro other
      rw [List.append_assoc]
      exact .live (first _).1 (first _).2 even written (any other)

/-- An error is about a closed tag at a place: it is no tag, or a loop end where no loop is open. -/
def Error.BlamesTag (place : Position) : Error → Prop
  | invalidTag _ position => position = place
  | strayLoopEnd position => position = place
  | _ => False

/-- An offence of a closed tag is the same whatever follows the tag. -/
theorem TagOffence.exists_tag {tags : Tags} {position place : Position} {text : List Char}
    {cause : Error} (h : TagOffence tags position text cause) (blames : cause.BlamesTag place)
    : ∃ before content rest,
        text = before ++ opening ++ content ++ closing ++ rest
        ∧ place = position.after before
        ∧ FirstPlace closing (content ++ closing ++ rest) content rest
        ∧ ∀ other,
            TagOffence tags position (before ++ opening ++ content ++ closing ++ other) cause := by
  cases h with
  | unclosedTag => exact blames.elim
  | @invalidTag before after content rest fault opens closes even notTag faulty =>
      obtain ⟨whole, first⟩ := Piece.firstPlace_throughTag opens closes
      refine ⟨before, content, rest, whole, blames.symm, (first rest).2, fun other => ?_⟩
      exact .invalidTag (first other).1 (first other).2 even notTag faulty
  | @strayLoopEnd before after content rest opens closes even written noneOpen =>
      obtain ⟨whole, first⟩ := Piece.firstPlace_throughTag opens closes
      refine ⟨before, content, rest, whole, blames.symm, (first rest).2, fun other => ?_⟩
      exact .strayLoopEnd (first other).1 (first other).2 even written noneOpen

/-- An error about a closed tag is the offence of the text up to that tag, whatever follows it. -/
theorem Offence.exists_tag {text : List Char} {cause : Error} {place : Position}
    (h : Offence text cause) (blames : cause.BlamesTag place)
    : ∃ lead content rest,
        text = lead ++ opening ++ content ++ closing ++ rest
        ∧ place = Position.start.after lead
        ∧ FirstPlace closing (content ++ closing ++ rest) content rest
        ∧ ∀ other, Offence (lead ++ opening ++ content ++ closing ++ other) cause := by
  cases h with
  | unclosedLoop => exact blames.elim
  | tag reads covered offends =>
      obtain ⟨lead, rfl, rfl, any⟩ := reads.exists_lead
      obtain ⟨before, content, rest, rfl, there, closes, same⟩ := offends.exists_tag blames
      refine ⟨lead ++ before, content, rest, by simp, by simp [there], closes, fun other => ?_⟩
      have offence := Offence.tag (any _) covered (same other)
      simpa using offence

/-- Tokenizing fails exactly with the offence of the text, the first tag that offends or else the
first loop start that stays unmatched. If a closed tag is at fault, the error is the same whatever
follows that tag.
-/
theorem tokenize_eq_error_iff (text : String)
    : (∀ cause, tokenize text = .error cause ↔ Offence text.toList cause)
      ∧ ∀ cause place,
          tokenize text = .error cause
          → cause.BlamesTag place
          → ∃ lead content rest,
              text.toList = lead ++ opening ++ content ++ closing ++ rest
              ∧ place = Position.start.after lead
              ∧ FirstPlace closing (content ++ closing ++ rest) content rest
              ∧ ∀ other,
                  tokenize (String.ofList (lead ++ opening ++ content ++ closing ++ other))
                    = .error cause := by
  have offence {cause : Error} (fails : tokenize text = .error cause)
      : Offence text.toList cause :=
    offence_of_tokenize (by rw [String.ofList_toList, fails])
  refine ⟨fun cause => ⟨offence, fun h => ?_⟩, ?_⟩
  · rw [← String.ofList_toList (s := text)]
    exact h.tokenize_eq
  · intro cause place fails blames
    obtain ⟨lead, content, rest, whole, there, closes, same⟩ :=
      (offence fails).exists_tag blames
    exact ⟨lead, content, rest, whole, there, closes, fun other => (same other).tokenize_eq⟩

end Stencil.Template
