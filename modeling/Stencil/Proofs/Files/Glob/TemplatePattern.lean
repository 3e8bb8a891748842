import Mathlib.Data.List.Infix
import Stencil.Files.Glob
import Stencil.Proofs.Files.Places

/-! Patterns that are taken as they stand, and among them the pattern that the templates of a
directory match. It is matched below the directory itself, against all files there, and no hidden
name stands for its star.
-/

namespace Stencil.Files.Glob

-----------------------------------------------------------------------------------------
-- Patterns that are taken as they stand
-----------------------------------------------------------------------------------------

variable {text : List Char}

theorem expand_eq_self (nonempty : text ≠ []) (noBraces : '\x7d' ∉ text)
    : Braces.expand text = .ok [text] := by
  have none : Braces.hasBraces text = false := by
    rw [Braces.hasBraces, ← Bool.not_eq_true, List.contains_iff_mem]
    exact fun member => noBraces ((List.dropWhile_suffix _).subset member)
  rw [Braces.expand, none]
  exact congrArg Except.ok (List.filter_eq_self.2 (by simpa using nonempty))

theorem go_eq_self {last : Char} (apart : ¬ ['/', '/'] <:+: last :: text)
    : singleSlashes.go last text = text := by
  induction text generalizing last with
  | nil => rfl
  | cons c text ih =>
      have differ : ¬ (c == '/' && last == '/') = true := by
        intro both
        simp only [Bool.and_eq_true, beq_iff_eq] at both
        obtain ⟨rfl, rfl⟩ := both
        exact apart ⟨[], text, rfl⟩
      rw [singleSlashes.go, if_neg differ, ih fun found => apart (List.infix_cons found)]

theorem singleSlashes_eq_self (apart : ¬ ['/', '/'] <:+: text) : singleSlashes text = text := by
  cases text with
  | nil => rfl
  | cons c text => rw [singleSlashes, go_eq_self apart]

theorem withoutDot_suffix (text : List Char) : Expression.withoutDot text <:+ text := by
  unfold Expression.withoutDot
  split
  · exact List.suffix_append ['.', '/'] _
  · exact List.suffix_rfl

theorem withoutDot_eq_self (notHere : ¬ ['.', '/'] <+: text)
    : Expression.withoutDot text = text := by
  unfold Expression.withoutDot
  split
  · exact absurd ⟨_, rfl⟩ notHere
  · rfl

theorem mem_of_mapM_eq_ok {α β ε : Type} {f : α → Except ε β} {items : List α} {results : List β}
    (h : items.mapM f = .ok results) {item : α} (member : item ∈ items)
    : ∃ result ∈ results, f item = .ok result := by
  induction items generalizing results with
  | nil => exact absurd member List.not_mem_nil
  | cons first items ih =>
      rw [List.mapM_cons] at h
      cases here : f first with
      | error cause =>
          rw [here] at h
          cases h
      | ok result =>
      cases later : items.mapM f with
      | error cause =>
          rw [here, later] at h
          cases h
      | ok rest =>
      rw [here, later] at h
      cases h
      rcases List.mem_cons.1 member with rfl | inItems
      · exact ⟨result, List.mem_cons_self .., here⟩
      · obtain ⟨found, inRest, got⟩ := ih later inItems
        exact ⟨found, List.mem_cons_of_mem _ inRest, got⟩

/-- A pattern that stands for itself is among those that patterns are expanded to. -/
theorem mem_expandAll {patterns : List String} {texts : List (List Char)}
    (h : expandAll patterns = .ok texts) (member : String.ofList text ∈ patterns)
    (nonempty : text ≠ []) (noBraces : '\x7d' ∉ text) (apart : ¬ ['/', '/'] <:+: text)
    : text ∈ texts := by
  rw [expandAll] at h
  cases expanded : patterns.mapM fun pattern => Braces.expand pattern.toList with
  | error fault =>
      rw [expanded] at h
      cases h
  | ok lists =>
      rw [expanded] at h
      cases h
      obtain ⟨list, inLists, alone⟩ := mem_of_mapM_eq_ok expanded member
      rw [String.toList_ofList, expand_eq_self nonempty noBraces] at alone
      cases alone
      exact List.mem_map.2 ⟨text, List.mem_flatten.2 ⟨_, inLists, List.mem_singleton_self _⟩,
        singleSlashes_eq_self apart⟩

-----------------------------------------------------------------------------------------
-- Template suffixes
-----------------------------------------------------------------------------------------

/-- Whether a character is a single unit that stands for itself wherever it stands in a pattern. -/
def isOwn (c : Char) : Bool :=
  c.toNat < 0x10000 && !"@![].,$*+?^\x7b\x7d()|\\/\"\x00".toList.contains c

/-- The characters of accepted suffixes stand for themselves. -/
theorem isOwn_of_isNameChar {c : Char} (h : (Path.isNameChar c || c == '-') = true)
    : isOwn c = true := by
  have marks : ("@![].,$*+?^\x7b\x7d()|\\/\"\x00".toList.all fun mark =>
      !(Path.isNameChar mark || mark == '-')) = true := rfl
  have noMark : c ∉ "@![].,$*+?^\x7b\x7d()|\\/\"\x00".toList := fun isMark => by
    have other := List.all_eq_true.1 marks c isMark
    rw [h] at other
    cases other
  have small : c.toNat < 0x10000 := by
    rw [Bool.or_eq_true, beq_iff_eq] at h
    rcases h with isName | rfl
    · have code := Path.toNat_of_isNameChar isName
      omega
    · decide
  rw [isOwn, Bool.and_eq_true, decide_eq_true_eq, Bool.not_eq_true', ← Bool.not_eq_true,
    List.contains_iff_mem]
  exact ⟨small, noMark⟩

/-- A text of characters that stand for themselves. -/
structure IsWord (word : List Char) : Prop where
  nonempty : word ≠ []
  isWord : ∀ c ∈ word, isOwn c = true

/-- The pattern of templates whose suffix is a dot and a word. -/
def templatePattern (word : List Char) : List Char :=
  '*' :: '*' :: '/' :: '*' :: '.' :: (word ++ ['.', '*'])

variable {word : List Char} (isWord : IsWord word)

include isWord

theorem IsWord.not_mem {c : Char} (isMark : isOwn c = false)
    : c ∉ word := by
  intro member
  rw [isWord.isWord c member] at isMark
  cases isMark

-----------------------------------------------------------------------------------------
-- The plan of the search
-----------------------------------------------------------------------------------------

theorem expand_templatePattern
    : Braces.expand (templatePattern word) = .ok [templatePattern word] :=
  expand_eq_self (List.cons_ne_nil _ _)
    (by simp [templatePattern, isWord.not_mem (c := '\x7d') (by decide)])

theorem singleSlashes_templatePattern
    : singleSlashes (templatePattern word) = templatePattern word := by
  have once : (templatePattern word).count '/' = 1 := by
    simp [templatePattern, List.count_eq_zero.2 (isWord.not_mem (c := '/') (by decide))]
  refine singleSlashes_eq_self fun twice => ?_
  have atMost := twice.sublist.count_le '/'
  rw [once] at atMost
  exact absurd atMost (by decide)

theorem expandAll_templatePattern
    : expandAll [String.ofList (templatePattern word)] = .ok [templatePattern word] := by
  have expanded : Braces.expand (String.ofList (templatePattern word)).toList
      = .ok [templatePattern word] := by
    rw [String.toList_ofList, expand_templatePattern isWord]
  simp only [expandAll, List.mapM_cons, List.mapM_nil, expanded]
  change Except.ok [singleSlashes (templatePattern word)] = _
  rw [singleSlashes_templatePattern isWord]

theorem parent_templatePattern {more : List Char} (noSlash : '/' ∉ more)
    : PathText.parent (String.ofList (templatePattern word ++ more)) = "**" := by
  have absent : '/' ∉ '*' :: '.' :: (word ++ ['.', '*'] ++ more) := by
    simp [noSlash, isWord.not_mem (c := '/') (by decide)]
  rw [PathText.parent_of_lead ['*', '*'] (List.cons_ne_nil _ _) absent (.inl rfl)
    (by simp [templatePattern])]
  rfl

omit isWord in
theorem isOpenPath_templatePattern : isOpenPath (templatePattern word) = true := by
  simp [isOpenPath, hasOpenWithin, startsOpen, templatePattern]

/-- The directory of the pattern is the one that it is seen from: above its slash there are
stars. -/
theorem baseOf_templatePattern : baseOf (templatePattern word) = ['.'] := by
  have fromStars (fuel : Nat) : spelledParent (fuel + 1) "**".toList = ['.'] := by
    have above : (PathText.parent (String.ofList "**".toList)).toList = ['.'] := by decide
    have isOpen : (isOpenPath ['.'] || isCut ['.']) = false := by decide +kernel
    rw [spelledParent, above, isOpen, if_neg Bool.false_ne_true]
  have starsOpen : isOpenPath "**".toList = true := by decide
  have fromPattern {more : List Char} (noSlash : '/' ∉ more) (fuel : Nat)
      : spelledParent (fuel + 2) (templatePattern word ++ more) = ['.'] := by
    rw [spelledParent, parent_templatePattern isWord noSlash, starsOpen, Bool.true_or, if_pos rfl,
      fromStars]
  have enclosed (fuel : Nat)
      : spelledParent (fuel + 3) (templatePattern word ++ ['/', 'a']) = ['.'] := by
    have nonempty : templatePattern word ≠ [] := List.cons_ne_nil _ _
    have above : (PathText.parent (String.ofList (templatePattern word ++ ['/', 'a']))).toList
        = templatePattern word := by
      rw [PathText.parent_of_lead (templatePattern word) (List.cons_ne_nil 'a' [])
        (by decide) (.inl rfl) (by simp), if_neg nonempty,
        String.toList_ofList]
    rw [spelledParent, above, isOpenPath_templatePattern, Bool.true_or, if_pos rfl,
      ← List.append_nil (templatePattern word), fromPattern List.not_mem_nil]
  have length (more : List Char)
      : (templatePattern word ++ more).length + 1 = word.length + more.length + 5 + 3 := by
    simp [templatePattern]
    omega
  simp only [baseOf]
  generalize Regex.finds _ (templatePattern word) = isEnclosed
  cases isEnclosed with
  | true =>
      rw [if_pos rfl, length, enclosed]
      rfl
  | false =>
      rw [if_neg Bool.false_ne_true, length, fromPattern (by decide)]
      rfl

/-- The pattern is searched for from the directory itself. -/
theorem searchGroups_templatePattern
    : searchGroups [templatePattern word] = [⟨['.'], [templatePattern word]⟩] := by
  have inside : [templatePattern word].partition leadsOut = ([], [templatePattern word]) := rfl
  simp only [searchGroups, inside, groupsOf, List.foldl_cons, List.foldl_nil, addToGroup,
    baseOf_templatePattern isWord]
  rfl

/-- Templates are searched for among all files below the directory. -/
theorem planOf_templatePattern {directory : String} {ignored : List String} {isAbsolute : Bool}
    {plan : Plan}
    (h : planOf ⟨[String.ofList (templatePattern word)], directory, ignored, isAbsolute⟩ = .ok plan)
    : plan.lookups = [] ∧ plan.searches = [⟨['.'], [templatePattern word]⟩] := by
  simp only [planOf, expandAll_templatePattern isWord] at h
  cases found : expandAll ignored with
  | error fault =>
      rw [found] at h
      cases h
  | ok negatives =>
      have texts : [templatePattern word].filter (!isNegative ·) = [templatePattern word] := rfl
      have spelled : searchGroups ([templatePattern word].partition isOpenEnded).2 = [] := rfl
      have searched : searchGroups ([templatePattern word].partition isOpenEnded).1
          = [⟨['.'], [templatePattern word]⟩] :=
        searchGroups_templatePattern isWord
      rw [found] at h
      simp only [bind, Except.bind, texts, spelled, searched, List.isEmpty_cons] at h
      split at h
      · cases h
      · simp only [Bool.false_eq_true, if_false] at h
        split at h
        · cases h
        · cases h
          exact ⟨rfl, rfl⟩

end Stencil.Files.Glob
