import Mathlib.Data.List.Infix
import Stencil.Proofs.Files.Glob.Findings
import Stencil.Proofs.Outcome

/-! The groups of a plan. Their texts and bases have no slashes that follow others behind a dot at
the start, and neither has any path that is found, so a path that is left of such as repeat each
other is absolute if one of the others is.
-/

namespace Stencil.Files.Glob

/-- A text that does not start with a dot and two slashes. -/
def IsSingle (text : List Char) : Prop := ¬ ['.', '/', '/'] <+: text

instance (text : List Char) : Decidable (IsSingle text) :=
  inferInstanceAs (Decidable (¬ _ <+: _))

-----------------------------------------------------------------------------------------
-- Pattern texts
-----------------------------------------------------------------------------------------

/-- After a slash no other one is left, by induction on the text. -/
theorem head?_go_slash (text : List Char) : (singleSlashes.go '/' text).head? ≠ some '/' := by
  induction text with
  | nil => exact nofun
  | cons c text ih =>
      rw [singleSlashes.go]
      by_cases slash : c = '/'
      · subst slash
        exact ih
      · simp [slash]

theorem isSingle_singleSlashes (text : List Char) : IsSingle (singleSlashes text) := by
  rintro ⟨more, eq⟩
  cases text with
  | nil => cases eq
  | cons c text =>
  rw [singleSlashes] at eq
  obtain ⟨rfl, eq⟩ := List.cons_eq_cons.1 eq
  cases text with
  | nil => cases eq
  | cons d text =>
  rw [singleSlashes.go, if_neg (by simp)] at eq
  obtain ⟨rfl, eq⟩ := List.cons_eq_cons.1 eq
  exact head?_go_slash text (by rw [← eq]; rfl)

/-- The directory above a path starts the path, or is the top or the directory itself. -/
theorem parent_cases (path : List Char)
    : (PathText.parent (String.ofList path)).toList = ['/']
      ∨ (PathText.parent (String.ofList path)).toList = ['.']
      ∨ (PathText.parent (String.ofList path)).toList <+: path := by
  have trimmed : PathText.withoutEndSlashes path <+: path := by
    rw [PathText.withoutEndSlashes, ← List.reverse_suffix, List.reverse_reverse]
    exact List.dropWhile_suffix _
  rw [PathText.parent, String.toList_ofList]
  split
  · split
    · exact .inl rfl
    · exact .inr (.inl rfl)
  · rw [String.toList_ofList]
    exact .inr (.inr (((List.dropLast_prefix _).trans (List.take_prefix _ _)).trans trimmed))

theorem isSingle_parent {path : List Char} (h : IsSingle path)
    : IsSingle (PathText.parent (String.ofList path)).toList := by
  rcases parent_cases path with eq | eq | isPrefix
  · rw [eq]
    decide
  · rw [eq]
    decide
  · exact fun isDoubled => h (isDoubled.trans isPrefix)

theorem isSingle_spelledParent {fuel : Nat} {path : List Char} (h : IsSingle path)
    : IsSingle (spelledParent fuel path) := by
  induction fuel generalizing path with
  | zero => exact h
  | succ fuel ih =>
      rw [spelledParent]
      split
      · exact ih (isSingle_parent h)
      · exact isSingle_parent h

/-- A character that starts a text without backslashes before marks starts the text, unless it is a
mark or a backslash.
-/
theorem exists_of_unescaped {c : Char} {text rest : List Char}
    (notMark : "!*?|[]()\x7b\x7d".toList.contains c = false) (notEscape : c ≠ '\\')
    (h : unescaped text = c :: rest)
    : ∃ more, text = c :: more ∧ unescaped more = rest := by
  unfold unescaped at h
  split at h
  · rename_i mark more
    split at h
    · rename_i isMark
      obtain ⟨rfl, _⟩ := List.cons_eq_cons.1 h
      rw [notMark] at isMark
      cases isMark
    · obtain ⟨rfl, _⟩ := List.cons_eq_cons.1 h
      exact absurd rfl notEscape
  · obtain ⟨rfl, eq⟩ := List.cons_eq_cons.1 h
    exact ⟨_, rfl, eq⟩
  · cases h

theorem isSingle_unescaped {text : List Char} (h : IsSingle text) : IsSingle (unescaped text) := by
  rintro ⟨more, eq⟩
  obtain ⟨text, rfl, dotted⟩ := exists_of_unescaped (c := '.') (by decide) (by decide) eq.symm
  obtain ⟨text, rfl, slashed⟩ := exists_of_unescaped (c := '/') (by decide) (by decide) dotted
  obtain ⟨text, rfl, _⟩ := exists_of_unescaped (c := '/') (by decide) (by decide) slashed
  exact h ⟨text, rfl⟩

/-- A text of which the start of a longer one is made up has one of few spellings. -/
theorem isSingle_append {text more : List Char} (h : IsSingle text) (first : IsSingle more)
    (behindDot : IsSingle ('.' :: more)) (behindSlash : text = ['.', '/'] → more.head? ≠ some '/')
    : IsSingle (text ++ more) := by
  intro isDoubled
  rcases List.prefix_or_prefix_of_prefix isDoubled (List.prefix_append text more) with inText | short
  · exact h inText
  rcases List.prefix_cons_iff.1 short with rfl | ⟨text, rfl, afterDot⟩
  · exact first isDoubled
  rcases List.prefix_cons_iff.1 afterDot with rfl | ⟨text, rfl, afterSlash⟩
  · exact behindDot isDoubled
  rcases List.prefix_cons_iff.1 afterSlash with rfl | ⟨text, rfl, _⟩
  · obtain ⟨rest, eq⟩ := isDoubled
    have eq : '/' :: rest = more := (List.cons_eq_cons.1 (List.cons_eq_cons.1 eq).2).2
    exact behindSlash rfl (eq ▸ rfl)
  · exact h ⟨text, rfl⟩

/-- A dot and a slash end with no bracket or brace. -/
theorem finds_here : Regex.finds "[\\\x7b\\[].*[\\\x7d\\]]$" ['.', '/'] = false := by
  decide +kernel

theorem isSingle_baseOf {text : List Char} (h : IsSingle text) : IsSingle (baseOf text) := by
  simp only [baseOf]
  generalize found : Regex.finds _ text = isEnclosed
  refine isSingle_unescaped (isSingle_spelledParent ?_)
  cases isEnclosed with
  | false =>
      rw [if_neg Bool.false_ne_true]
      exact isSingle_append h (by decide) (by decide) fun _ => by decide
  | true =>
      rw [if_pos rfl]
      refine isSingle_append h (by decide) (by decide) fun here => ?_
      rw [here] at found
      exact absurd (found.symm.trans finds_here) (by decide)

-----------------------------------------------------------------------------------------
-- Groups
-----------------------------------------------------------------------------------------

/-- The texts of a group have a property, and its base is that of such a text or the directory
itself.
-/
structure GroupOf (P : List Char → Prop) (group : Group) : Prop where
  texts : ∀ text ∈ group.texts, P text
  base : group.base = ['.'] ∨ ∃ text, P text ∧ group.base = baseOf text

variable {P : List Char → Prop} {texts : List (List Char)}

/-- A group of one text. The base is kept from being computed. -/
theorem groupOf_single {base text : List Char} (h : P text) (eq : base = baseOf text)
    : GroupOf P ⟨base, [text]⟩ :=
  ⟨fun other member => by rwa [List.mem_singleton.1 member], .inr ⟨text, h, eq⟩⟩

theorem groupOf_addToGroup {text : List Char} {groups : List Group} (h : P text)
    (all : ∀ group ∈ groups, GroupOf P group)
    : ∀ group ∈ addToGroup text groups, GroupOf P group := by
  induction groups with
  | nil =>
      intro group member
      rw [addToGroup, List.mem_singleton] at member
      rw [member]
      exact groupOf_single h rfl
  | cons first groups ih =>
      rw [List.forall_mem_cons] at all
      rw [addToGroup]
      by_cases same : first.base = baseOf text
      · rw [if_pos same]
        refine List.forall_mem_cons.2 ⟨⟨fun other member => ?_, all.1.base⟩, all.2⟩
        rcases List.mem_append.1 member with inFirst | last
        · exact all.1.texts other inFirst
        · rwa [List.mem_singleton.1 last]
      · rw [if_neg same]
        exact List.forall_mem_cons.2 ⟨all.1, ih all.2⟩

/-- All groups of texts, by induction on the texts. -/
theorem groupOf_groupsOf (h : ∀ text ∈ texts, P text)
    : ∀ group ∈ groupsOf texts, GroupOf P group := by
  suffices key : ∀ groups, (∀ group ∈ groups, GroupOf P group) →
      ∀ group ∈ texts.foldl (fun groups text => addToGroup text groups) groups, GroupOf P group from
    key [] fun _ none => absurd none List.not_mem_nil
  induction texts with
  | nil => exact fun _ all => all
  | cons text texts ih =>
      rw [List.forall_mem_cons] at h
      exact fun groups all => ih h.2 _ (groupOf_addToGroup h.1 all)

theorem groupOf_searchGroups (h : ∀ text ∈ texts, P text)
    : ∀ group ∈ searchGroups texts, GroupOf P group := by
  have within {keep : List Char → Bool} : ∀ text ∈ texts.filter keep, P text :=
    fun text member => h text (List.mem_filter.1 member).1
  intro group member
  rw [searchGroups, List.partition_eq_filter_filter] at member
  rcases List.mem_append.1 member with outside | inside
  · exact groupOf_groupsOf within group outside
  · split at inside
    · rw [List.mem_singleton] at inside
      subst inside
      exact ⟨within, .inl rfl⟩
    · exact groupOf_groupsOf within group inside

/-- The groups of a plan are made of texts without slashes that follow others. -/
theorem groupOf_planOf {query : GlobQuery} {plan : Plan} (h : planOf query = .ok plan)
    : ∀ group ∈ plan.lookups ++ plan.searches, GroupOf IsSingle group := by
  simp only [planOf] at h
  obtain ⟨texts, expanded, h⟩ := Outcome.bind_eq_ok_iff.1 h
  obtain ⟨ignored, _, h⟩ := Outcome.bind_eq_ok_iff.1 h
  have single : ∀ text ∈ texts, IsSingle text := by
    rw [expandAll] at expanded
    obtain ⟨lists, _, eq⟩ := Outcome.bind_eq_ok_iff.1 expanded
    cases eq
    intro text member
    obtain ⟨other, _, rfl⟩ := List.mem_map.1 member
    exact isSingle_singleSlashes other
  have within {keep : List Char → Bool} {texts : List (List Char)}
      (all : ∀ text ∈ texts, IsSingle text)
      : ∀ text ∈ texts.filter keep, IsSingle text :=
    fun text member => all text (List.mem_filter.1 member).1
  split at h
  · cases h
  split at h
  · cases h
    exact fun group none => absurd none List.not_mem_nil
  split at h
  · cases h
  rw [List.partition_eq_filter_filter] at h
  cases h
  intro group member
  rcases List.mem_append.1 member with spelled | matched
  · exact groupOf_searchGroups (within (within single)) group spelled
  · exact groupOf_searchGroups (within (within single)) group matched

-----------------------------------------------------------------------------------------
-- Found paths
-----------------------------------------------------------------------------------------

/-- Joined names start with no slash, and with no dot for the directory itself. -/
theorem not_prefix_joined {names : Location} (named : names.Named)
    : ¬ ['/'] <+: Text.joinWith ['/'] (names.map String.toList)
      ∧ ¬ ['.', '/'] <+: Text.joinWith ['/'] (names.map String.toList) := by
  cases names with
  | nil => exact ⟨nofun, nofun⟩
  | cons name names =>
  obtain ⟨isName, _⟩ := List.forall_mem_cons.1 named
  obtain ⟨more, eq⟩ : ∃ more, Text.joinWith ['/'] ((name :: names).map String.toList)
      = name.toList ++ more := by
    cases names with
    | nil => exact ⟨[], (List.append_nil _).symm⟩
    | cons next names => exact ⟨_, List.append_assoc ..⟩
  obtain ⟨c, rest, split⟩ := List.exists_cons_of_ne_nil fun empty =>
    isName.nonempty (String.toList_inj.1 empty)
  have noSlash : '/' ∉ c :: rest := split ▸ isName.noSlash
  rw [eq, split]
  constructor
  · intro slashed
    obtain ⟨rfl, _⟩ := List.cons_prefix_cons.1 slashed
    exact noSlash (List.mem_cons_self ..)
  · intro dotted
    obtain ⟨rfl, slashed⟩ := List.cons_prefix_cons.1 dotted
    cases rest with
    | nil => exact isName.notHere (String.toList_inj.1 split)
    | cons d rest =>
        obtain ⟨rfl, _⟩ := List.cons_prefix_cons.1 slashed
        exact noSlash (by simp)

/-- No path is found that starts with a dot and two slashes. -/
theorem Found.isSingle {query : GlobQuery} {plan : Plan} {directory : String}
    {workspace : Workspace} {path : List Char} (wellFormed : workspace.tree.WellFormed)
    (planned : planOf query = .ok plan) (h : Found plan directory workspace path)
    : IsSingle path := by
  have groups := groupOf_planOf planned
  cases h with
  | spelled member isText _ _ => exact (groups _ (List.mem_append_left _ member)).texts path isText
  | @matched group names member below eq _ _ =>
  obtain ⟨content, stands⟩ := wellFormed.mem_filesBelow_iff.1 below
  have named : Location.Named names :=
    (wellFormed.named_of_entry? (FileTree.file?_eq_some_iff.1 stands)).right
  obtain ⟨noSlash, notHere⟩ := not_prefix_joined named
  subst eq
  by_cases isHere : group.base = ['.']
  · rw [isHere]
    exact fun isDoubled => notHere ((List.prefix_append ['.', '/'] ['/']).trans isDoubled)
  have single : IsSingle group.base := by
    rcases (groups _ (List.mem_append_right _ member)).base with here | ⟨text, single, eq⟩
    · exact absurd here isHere
    · rw [eq]
      exact isSingle_baseOf single
  have noDouble {rest : List Char} (h : ¬ ['/'] <+: rest) : ¬ ['/', '/'] <+: rest :=
    fun isDoubled => h ((List.prefix_append ['/'] ['/']).trans isDoubled)
  rw [basePrefix, if_neg isHere]
  split
  · refine isSingle_append single ?_ ?_ fun _ slash => ?_
    · exact fun isDoubled => notHere ((List.prefix_append ['.', '/'] ['/']).trans isDoubled)
    · exact fun isDoubled => noDouble noSlash (List.cons_prefix_cons.1 isDoubled).2
    · obtain ⟨rest, eq⟩ := List.head?_eq_some_iff.1 slash
      exact noSlash ⟨rest, eq.symm⟩
  · rename_i unslashed
    rw [List.append_assoc]
    refine isSingle_append single (by simp [IsSingle]) ?_ fun slashed => ?_
    · intro isDoubled
      exact noSlash (List.cons_prefix_cons.1 (List.cons_prefix_cons.1 isDoubled).2).2
    · rw [slashed] at unslashed
      exact absurd rfl unslashed

end Stencil.Files.Glob
