import Stencil.Proofs.Files.Glob.TemplateExpression
import Stencil.Proofs.Regex.Matching

/-! The regular expression of the pattern of templates. It matches no path with a name that starts
with a dot, and none whose directory part goes over the end of a line.
-/

namespace Stencil.Files.Glob

open Expression (nameStart noDot beforeUnit anyUnits dot slash templateOutput)
open Regex (readSequence readTerm readEither repeatedAs repetition? Unread Carries)

/-- A dot at the start of a name. -/
def hiddenRegex : Regex :=
  .sequence (.either (.sequence .start .empty) (.sequence (.exactly 47) .empty))
    (.sequence (.exactly 46) .empty)

/-- The places where names start, behind units before which something does not come. -/
def nameStartBehind (barred : Regex) : Regex :=
  .either (.sequence .start .empty)
    (.either (.sequence (.exactly 47) .empty)
      (.sequence
        (.sequence
          (.times 0 none true
            (.sequence (.look true true barred)
              (.sequence (.oneOf true UnitSet.lineEnds) .empty)))
          .empty)
        (.sequence (.exactly 47) .empty)))

/-- The places where names start behind names that are not hidden. -/
def nameStartRegex : Regex := nameStartBehind hiddenRegex

/-- Any units but slashes. -/
def anyUnitsRegex : Regex := .times 0 none true (.oneOf true [(47, 47)])

/-- The characters of a word, and what follows them. -/
def wordRegex (word : List Char) (last : Regex) : Regex :=
  word.foldr (fun c rest => .sequence (.exactly c.toNat) rest) last

/-- A name with a suffix and an extension, up to the end of the text. -/
def nameRegex (word : List Char) : Regex :=
  .sequence (.look true true (.sequence (.exactly 46) .empty))
    (.sequence (.look true false (.sequence (.oneOf true UnitSet.lineEnds) .empty))
      (.sequence anyUnitsRegex
        (.sequence (.exactly 46)
          (wordRegex word
            (.sequence (.exactly 46)
              (.sequence anyUnitsRegex
                (.sequence (.times 0 (some 1) false (.exactly 47)) .empty)))))))

/-- The expression of the pattern of templates. -/
def templateRegex (word : List Char) : Regex :=
  .sequence .start
    (.sequence (.sequence nameStartRegex (nameRegex word)) (.sequence .stop .empty))

variable {groups fuel number : Nat} {text tail word : List Char}

-----------------------------------------------------------------------------------------
-- Reading the expression
-----------------------------------------------------------------------------------------

/-- Whether a term stands first in a text. -/
def startsTerm (text : List Char) : Bool := text.head?.any fun c => c != '|' && c != ')'

theorem readSequence_of_readTerm {unread middle after : Unread} {first second : Regex}
    (starts : startsTerm unread.text = true)
    (h : readTerm groups (readEither groups fuel) unread = some (first, middle))
    (h' : readSequence groups fuel middle = some (second, after))
    : readSequence groups (fuel + 1) unread = some (.sequence first second, after) := by
  rw [readSequence]
  split
  · rename_i eq
    rw [eq] at starts
    cases starts
  · rename_i eq
    rw [eq] at starts
    cases starts
  · rename_i eq
    rw [eq] at starts
    cases starts
  · rw [h]
    simp [h']

/-- An expression that has to match a text as a whole stands in a group between the two ends. -/
theorem whole_eq (output : List Char)
    : Expression.whole output = '^' :: '(' :: '?' :: ':' :: (output ++ [')', '$']) := by
  simp only [Expression.whole, List.append_assoc]
  rfl

theorem readEither_whole {output : List Char} {body : Regex}
    (h : readSequence groups (fuel + 1) ⟨output ++ [')', '$'], number⟩
      = some (body, ⟨[')', '$'], number⟩))
    : readEither groups (fuel + 5) ⟨Expression.whole output, number⟩
      = some (.sequence .start (.sequence body (.sequence .stop .empty)), ⟨[], number⟩) := by
  have path : readEither groups (fuel + 2) ⟨output ++ [')', '$'], number⟩
      = some (body, ⟨[')', '$'], number⟩) := by
    rw [readEither, h]
    rfl
  have group : readTerm groups (readEither groups (fuel + 2))
      ⟨'(' :: '?' :: ':' :: (output ++ [')', '$']), number⟩ = some (body, ⟨['$'], number⟩) := by
    change (Regex.inParentheses _ ⟨output ++ [')', '$'], number⟩).bind _ = _
    rw [Regex.inParentheses, path]
    rfl
  have ends : readSequence groups (fuel + 2) ⟨['$'], number⟩
      = some (.sequence .stop .empty, ⟨[], number⟩) := rfl
  have start : readTerm groups (readEither groups (fuel + 3))
      ⟨'^' :: '(' :: '?' :: ':' :: (output ++ [')', '$']), number⟩
      = some (.start, ⟨'(' :: '?' :: ':' :: (output ++ [')', '$']), number⟩) := rfl
  rw [whole_eq, readEither, readSequence_of_readTerm rfl start
    (readSequence_of_readTerm rfl group ends)]
  rfl

theorem toNat_of_isWord {c : Char} (isWord : isOwn c = true)
    : c.toNat < 0x10000 := by
  rw [isOwn, Bool.and_eq_true, decide_eq_true_eq] at isWord
  exact isWord.1

theorem repetition?_of_isWord {c : Char} (isWord : isOwn c = true)
    : repetition? (c :: text) = none := by
  unfold repetition?
  split <;> first
    | rfl
    | (rename_i eq; exact absurd ((List.cons.inj eq).1 ▸ isWord) (by decide))

theorem unitsOf_of_isWord {c : Char} (isWord : isOwn c = true)
    : Text.unitsOf c = [c.toNat] := by
  exact if_pos (toNat_of_isWord isWord)

theorem readTerm_of_isWord {c : Char} {read : Regex.ReadPart}
    (isWord : isOwn c = true) (follows : repetition? text = none)
    : readTerm groups read ⟨c :: text, number⟩ = some (.exactly c.toNat, ⟨text, number⟩) := by
  have none : repetition? (c :: text) = none := repetition?_of_isWord isWord
  simp only [readTerm]
  split <;> first
    | exact absurd isWord (by decide)
    | simp [none, Regex.readLiteral, unitsOf_of_isWord isWord, repeatedAs, follows]

theorem startsTerm_of_isWord {c : Char} (isWord : isOwn c = true)
    : startsTerm (c :: text) = true := by
  have differs (mark : Char) (isMark : isOwn mark = false)
      : c ≠ mark := by
    rintro rfl
    rw [isMark] at isWord
    cases isWord
  simp [startsTerm, differs '|' (by decide), differs ')' (by decide)]

/-- A word is read character by character, by induction on it. -/
theorem readSequence_word {last : Regex} {after : Unread} (isWord : ∀ c ∈ word,
      isOwn c = true)
    (h : readSequence groups fuel ⟨'\\' :: tail, number⟩ = some (last, after))
    : readSequence groups (fuel + word.length) ⟨word ++ '\\' :: tail, number⟩
      = some (wordRegex word last, after) := by
  induction word with
  | nil => exact h
  | cons c word ih =>
      have isFirst := isWord c (List.mem_cons_self ..)
      have isRest (other : Char) (member : other ∈ word) :=
        isWord other (List.mem_cons_of_mem _ member)
      refine readSequence_of_readTerm (startsTerm_of_isWord isFirst) ?_ (ih isRest)
      · cases word with
        | nil => exact readTerm_of_isWord isFirst rfl
        | cons next word =>
            exact readTerm_of_isWord isFirst
              (repetition?_of_isWord (isRest next (List.mem_cons_self ..)))

theorem repeatedAs_word {body : Regex} (isWord : IsWord word)
    : repeatedAs body ⟨word ++ tail, number⟩ = some (body, ⟨word ++ tail, number⟩) := by
  obtain ⟨nonempty, isWord⟩ := isWord
  cases word with
  | nil => contradiction
  | cons c word =>
      simp only [repeatedAs, List.cons_append,
        repetition?_of_isWord (isWord c (List.mem_cons_self ..))]

/-- The text of a name with a suffix and an extension, and the parenthesis that closes it. -/
def nameText (word tail : List Char) : List Char :=
  noDot ++ (beforeUnit ++ (anyUnits ++ (dot ++ (word ++ (dot ++ (anyUnits ++ (slash ++
    '?' :: ')' :: tail)))))))

theorem readSequence_name (isWord : IsWord word)
    : readSequence groups (fuel + word.length + 34) ⟨nameText word tail, number⟩
      = some (nameRegex word, ⟨')' :: tail, number⟩) := by
  have ending : readSequence groups (fuel + 30)
      ⟨dot ++ (anyUnits ++ (slash ++ '?' :: ')' :: tail)), number⟩
      = some (.sequence (.exactly 46) (.sequence anyUnitsRegex
          (.sequence (.times 0 (some 1) false (.exactly 47)) .empty)), ⟨')' :: tail, number⟩) :=
    rfl
  have named := readSequence_word isWord.isWord ending
  rw [Nat.add_right_comm] at named
  have dotted (rest : List Char) : readTerm groups (readEither groups (fuel + word.length + 30))
      ⟨dot ++ (word ++ rest), number⟩ = some (.exactly 46, ⟨word ++ rest, number⟩) :=
    show repeatedAs (.exactly 46) ⟨word ++ rest, number⟩ = _ from repeatedAs_word isWord
  have units (rest : List Char) : readTerm groups (readEither groups (fuel + word.length + 31))
      ⟨anyUnits ++ (dot ++ rest), number⟩ = some (anyUnitsRegex, ⟨dot ++ rest, number⟩) :=
    rfl
  have before (rest : List Char) : readTerm groups (readEither groups (fuel + word.length + 32))
      ⟨beforeUnit ++ (anyUnits ++ rest), number⟩
      = some (.look true false (.sequence (.oneOf true UnitSet.lineEnds) .empty),
          ⟨anyUnits ++ rest, number⟩) :=
    rfl
  have noDots (rest : List Char) : readTerm groups (readEither groups (fuel + word.length + 33))
      ⟨noDot ++ (beforeUnit ++ rest), number⟩
      = some (.look true true (.sequence (.exactly 46) .empty), ⟨beforeUnit ++ rest, number⟩) :=
    rfl
  exact readSequence_of_readTerm rfl (noDots _) <| readSequence_of_readTerm rfl (before _) <|
    readSequence_of_readTerm rfl (units _) <| readSequence_of_readTerm rfl (dotted _) named

/-- The expression as a text, in the order of its terms. -/
theorem templateOutput_append (word : List Char)
    : templateOutput word ++ [')', '$'] = nameStart ++ nameText word ['$'] := by
  simp only [templateOutput, nameText, List.append_assoc]
  rfl

theorem readEither_template (isWord : IsWord word)
    : readEither groups (fuel + word.length + 39)
        ⟨Expression.whole (templateOutput word), number⟩
      = some (templateRegex word, ⟨[], number⟩) := by
  have starting : readTerm groups (readEither groups (fuel + word.length + 34))
      ⟨nameStart ++ nameText word ['$'], number⟩
      = some (nameStartRegex, ⟨nameText word ['$'], number⟩) :=
    rfl
  have inside := readSequence_of_readTerm rfl starting (readSequence_name isWord)
  rw [← templateOutput_append] at inside
  exact readEither_whole inside

theorem regexOf_templatePattern (isWord : IsWord word)
    : regexOf false (templatePattern word) = templateRegex word := by
  obtain ⟨fuel, length⟩ : ∃ fuel,
      3 * (Expression.whole (templateOutput word)).length + 3 = fuel + word.length + 39 := by
    refine ⟨3 * (Expression.whole (templateOutput word)).length - word.length - 36, ?_⟩
    have long : word.length + 12 ≤ (Expression.whole (templateOutput word)).length := by
      have start : 12 ≤ nameStart.length := by decide
      rw [whole_eq, templateOutput_append, nameText]
      simp only [List.length_cons, List.length_append]
      omega
    omega
  rw [regexOf, Expression.ofPattern_templatePattern isWord, Regex.ofText?, length,
    readEither_template isWord]
  rfl

-----------------------------------------------------------------------------------------
-- What the expression matches
-----------------------------------------------------------------------------------------

section

variable (units : List Nat)

/-- The place is in a text. -/
def InText : Regex.Property := fun before after => before.reverse ++ after = units

/-- A name starts at the place. -/
def AtName : Regex.Property := fun before after =>
  InText units before after ∧ (before = [] ∨ before.head? = some 47)

/-- One of the units is a dot at the start of a name. -/
def HasHidden (units : List Nat) : Prop := units.head? = some 46 ∨ [47, 46] <:+: units

/-- The place is in a text, on its first line. No hidden name starts up to the place if that is
behind a unit.
-/
def Passed : Regex.Property := fun before after =>
  InText units before after
  ∧ (∀ unit ∈ before, UnitSet.lineEnds.has unit = false)
  ∧ (before ≠ [] → ¬ HasHidden (before.reverse ++ after.take 1))

/-- A name starts at the place, behind names on one line that are not hidden. -/
def BehindShown : Regex.Property := fun before after =>
  AtName units before after
  ∧ (∀ unit ∈ before, UnitSet.lineEnds.has unit = false)
  ∧ ¬ HasHidden before.reverse

/-- A name starts at the place that is not hidden either, and does not start with a line end. -/
def AtShownName : Regex.Property := fun before after =>
  BehindShown units before after
  ∧ after.head? ≠ some 46
  ∧ ∃ unit ∈ after.head?, UnitSet.lineEnds.has unit = false

/-- Between a place with a property and this one there are some units but no slash. -/
def InName (start : Regex.Property) : Regex.Property := fun before after =>
  ∃ before' passed,
    start before' (passed ++ after)
    ∧ before = passed.reverse ++ before'
    ∧ 47 ∉ passed

variable {units}

theorem inText_next {before after : List Nat} {unit : Nat}
    (h : InText units before (unit :: after))
    : InText units (unit :: before) after := by
  simpa [InText] using h

theorem inName_next {start : Regex.Property} {before after : List Nat} {unit : Nat}
    (other : unit ≠ 47) (h : InName start before (unit :: after))
    : InName start (unit :: before) after := by
  obtain ⟨before', passed, at_, rfl, noSlash⟩ := h
  exact ⟨before', passed ++ [unit], by simpa using at_, by simp, by simp [noSlash, Ne.symm other]⟩

-----------------------------------------------------------------------------------------
-- The places where names start
-----------------------------------------------------------------------------------------

/-- A slash is the start of a name. -/
theorem carries_slash : Carries (.exactly 47) (InText units) (AtName units) :=
  Regex.carries_exactly fun _ _ at_ => ⟨inText_next at_, .inr rfl⟩

theorem carries_nameStart (barred : Regex)
    : Carries (nameStartBehind barred) (fun before after => InText units before after ∧ before = [])
        (AtName units) := by
  have weaken {body : Regex} {Q : Regex.Property} (h : Carries body (InText units) Q)
      : Carries body (fun before after => InText units before after ∧ before = []) Q :=
    fun _ _ _ at_ matched => h at_.1 matched
  have unit : Carries (.sequence (.look true true barred)
      (.sequence (.oneOf true UnitSet.lineEnds) .empty)) (InText units) (InText units) :=
    Regex.carries_look.sequence
      ((Regex.carries_oneOf fun _ _ _ _ at_ => inText_next at_).sequence Regex.carries_empty)
  refine Carries.either ?_ (Carries.either ?_ ?_)
  · refine (Regex.carries_start.weaken fun before after at_ => ?_).sequence Regex.carries_empty
    exact ⟨at_.1.1, .inl at_.2⟩
  · exact weaken (carries_slash.sequence Regex.carries_empty)
  · exact weaken ((unit.times.sequence Regex.carries_empty).sequence
      (carries_slash.sequence Regex.carries_empty))

/-- A hidden name starts at the place if that is the start of the text, or behind the next unit. -/
def HiddenAhead : Regex.Property := fun before after =>
  before = [] ∧ after.head? = some 46 ∨ [47, 46] <+: after

theorem isSome_hiddenRegex {before after : List Nat} {groups : List (Nat × List Nat)}
    (h : HiddenAhead before after)
    : (hiddenRegex.step true some ⟨before, after, groups⟩).isSome := by
  have dotted (before after : List Nat)
      : Regex.Reaches (.sequence (.exactly 46) .empty) ⟨before, 46 :: after, groups⟩
          ⟨46 :: before, after, groups⟩ :=
    (Regex.reaches_exactly ..).sequence (Regex.reaches_empty _)
  rcases h with ⟨rfl, isDot⟩ | ⟨after, rfl⟩
  · obtain ⟨after, rfl⟩ := List.head?_eq_some_iff.1 isDot
    have starts := (Regex.reaches_start rfl).sequence (Regex.reaches_empty ⟨[], 46 :: after, groups⟩)
    exact starts.either_left.sequence (dotted [] after) rfl
  · have slash : Regex.Reaches (.sequence (.exactly 47) .empty) ⟨before, 47 :: 46 :: after, groups⟩
        ⟨47 :: before, 46 :: after, groups⟩ :=
      (Regex.reaches_exactly ..).sequence (Regex.reaches_empty _)
    exact slash.either_right.sequence (dotted (47 :: before) after) rfl

/-- Behind a unit before which no hidden name comes, the text is read up to the place as well. -/
theorem passed_next {before after : List Nat} {unit : Nat}
    (line : UnitSet.lineEnds.has unit = false) (ahead : ¬ HiddenAhead before (unit :: after))
    (h : Passed units before (unit :: after))
    : Passed units (unit :: before) after := by
  obtain ⟨inText, lines, shown⟩ := h
  refine ⟨inText_next inText, List.forall_mem_cons.2 ⟨line, lines⟩, fun _ => ?_⟩
  have first : ¬ HasHidden (before.reverse ++ [unit]) := by
    by_cases atStart : before = []
    · subst atStart
      rintro (isDot | pair)
      · exact ahead (.inl ⟨rfl, isDot⟩)
      · exact absurd pair.length_le (Nat.not_succ_le_self 1)
    · exact shown atStart
  rw [List.reverse_cons]
  cases after with
  | nil => simpa using first
  | cons next after =>
      rintro (isDot | pair)
      · exact first (.inl (by simpa using isDot))
      · rw [List.take_succ_cons, List.take_zero, List.infix_concat_iff] at pair
        rcases pair with atEnd | within
        · obtain ⟨left, eq⟩ := atEnd
          rw [List.append_cons left 47 [46]] at eq
          obtain ⟨eq, isDot⟩ := List.append_inj' eq rfl
          obtain ⟨_, isSlash⟩ := List.append_inj' eq rfl
          obtain ⟨⟨rfl⟩, ⟨rfl⟩⟩ := And.intro isDot isSlash
          exact ahead (.inr ⟨after, rfl⟩)
        · exact first (.inr within)

theorem carries_shownStart
    : Carries nameStartRegex (fun before after => InText units before after ∧ before = [])
        (BehindShown units) := by
  have nothing : ¬ HasHidden [] := by simp [HasHidden]
  have lonely : ¬ HasHidden [47] := by
    rintro (isDot | pair)
    · cases isDot
    · exact absurd pair.length_le (Nat.not_succ_le_self 1)
  have slashIsNoEnd : UnitSet.lineEnds.has 47 = false := by decide
  have unit : Carries (.sequence (.look true true hiddenRegex)
      (.sequence (.oneOf true UnitSet.lineEnds) .empty)) (Passed units) (Passed units) := by
    refine (Regex.carries_notAhead_of_isSome fun _ _ _ => isSome_hiddenRegex).sequence
      ((Regex.carries_oneOf fun before unit after isOne at_ => ?_).sequence Regex.carries_empty)
    exact passed_next (by simpa using isOne) at_.2 at_.1
  refine Carries.either ?_ (Carries.either ?_ ?_)
  · refine (Regex.carries_start.weaken ?_).sequence Regex.carries_empty
    rintro before after ⟨⟨inText, _⟩, rfl⟩
    exact ⟨⟨inText, .inl rfl⟩, by simp, nothing⟩
  · refine (Regex.carries_exactly ?_).sequence Regex.carries_empty
    rintro before after ⟨inText, rfl⟩
    exact ⟨⟨inText_next inText, .inr rfl⟩, by simpa using slashIsNoEnd, lonely⟩
  · have names : Carries (.times 0 none true (.sequence (.look true true hiddenRegex)
        (.sequence (.oneOf true UnitSet.lineEnds) .empty)))
        (fun before after => InText units before after ∧ before = []) (Passed units) := by
      refine fun rest spot found at_ matched => unit.times ?_ matched
      exact ⟨at_.1, by simp [at_.2], fun behind => absurd at_.2 behind⟩
    refine (names.sequence Regex.carries_empty).sequence
      ((Regex.carries_exactly ?_).sequence Regex.carries_empty)
    rintro before after ⟨inText, lines, shown⟩
    refine ⟨⟨inText_next inText, .inr rfl⟩, List.forall_mem_cons.2 ⟨slashIsNoEnd, lines⟩, ?_⟩
    rw [List.reverse_cons]
    by_cases atStart : before = []
    · rw [atStart]
      exact lonely
    · exact shown atStart

-----------------------------------------------------------------------------------------
-- Names with a suffix and an extension
-----------------------------------------------------------------------------------------

theorem carries_anyUnits {start : Regex.Property}
    : Carries anyUnitsRegex (InName start) (InName start) := by
  refine Carries.times (Regex.carries_oneOf fun before unit after outside at_ => ?_)
  refine inName_next ?_ at_
  rintro rfl
  exact absurd outside (by decide)

theorem carries_word {start : Regex.Property} {last : Regex} {Q : Regex.Property}
    (noSlash : '/' ∉ word) (h : Carries last (InName start) Q)
    : Carries (wordRegex word last) (InName start) Q := by
  induction word with
  | nil => exact h
  | cons c word ih =>
      simp only [List.mem_cons, not_or] at noSlash
      refine (Regex.carries_exactly fun before after at_ => ?_).sequence (ih noSlash.2)
      refine inName_next (fun same => noSlash.1 ?_) at_
      exact Char.toNat_inj.1 same.symm

/-- After the whole of a name, at most one slash has come. -/
theorem carries_name (isWord : IsWord word)
    : Carries (nameRegex word) (BehindShown units) (fun before after =>
        InName (AtShownName units) before after
        ∨ ∃ before', before = 47 :: before' ∧ InName (AtShownName units) before' (47 :: after)) := by
  let InShown : Regex.Property := InName (AtShownName units)
  have dotted : Carries (.exactly 46) InShown InShown :=
    Regex.carries_exactly fun _ _ at_ => inName_next (by decide) at_
  have slashed : Carries (.exactly 47) InShown (fun before after =>
      ∃ before', before = 47 :: before' ∧ InShown before' (47 :: after)) :=
    Regex.carries_exactly fun before _ at_ => ⟨before, rfl, at_⟩
  have starts : Carries (.look true false (.sequence (.oneOf true UnitSet.lineEnds) .empty))
      (fun before after => BehindShown units before after ∧ after.head? ≠ some 46) InShown := by
    refine Regex.carries_unitAhead.weaken fun before after at_ => ?_
    obtain ⟨⟨behind, shown⟩, unit, isNext, isOne⟩ := at_
    exact ⟨before, [], ⟨behind, shown, unit, isNext, by simpa using isOne⟩, rfl, List.not_mem_nil⟩
  exact Regex.carries_notAhead.sequence (starts.sequence (carries_anyUnits.sequence
    (dotted.sequence (carries_word (isWord.not_mem (by decide)) (dotted.sequence
      (carries_anyUnits.sequence (slashed.optional.sequence Regex.carries_empty)))))))

/-- Where the expression is found, the text ends with a name that is not hidden, behind others on one
line that are not hidden, and perhaps with a slash.
-/
theorem exists_shown (isWord : IsWord word) {text : List Char}
    (h : (templateRegex word).isFoundIn text = true)
    : ∃ before passed slashes,
        AtShownName (text.flatMap Text.unitsOf) before (passed ++ slashes)
        ∧ 47 ∉ passed
        ∧ (slashes = [] ∨ slashes = [47]) := by
  obtain ⟨start, stop, found, eq, matched⟩ := Regex.exists_of_isFoundFrom h
  have whole : Carries (templateRegex word) (InText (text.flatMap Text.unitsOf)) _ :=
    Regex.carries_start.sequence ((carries_shownStart.sequence (carries_name isWord)).sequence
      (Regex.carries_stop.sequence Regex.carries_empty))
  obtain ⟨next, ⟨at_, atEnd⟩, _⟩ := @whole some ⟨start, stop, []⟩ found eq matched
  rw [atEnd] at at_
  rcases at_ with ⟨before, passed, shown, _, noSlash⟩ | ⟨_, _, before, passed, shown, _, noSlash⟩
  · exact ⟨before, passed, [], shown, noSlash, .inl rfl⟩
  · exact ⟨before, passed, [47], shown, noSlash, .inr rfl⟩

end

-----------------------------------------------------------------------------------------
-- Hidden names
-----------------------------------------------------------------------------------------

theorem eq_slash_of_mem_unitsOf {c : Char} (member : 47 ∈ Text.unitsOf c) : c = '/' := by
  rw [Text.unitsOf] at member
  split at member
  · exact Char.toNat_inj.1 (List.mem_singleton.1 member).symm
  · simp only [List.mem_cons, List.not_mem_nil, or_false] at member
    omega

theorem slash_not_mem_units {text : List Char} (noSlash : '/' ∉ text)
    : 47 ∉ text.flatMap Text.unitsOf := by
  intro member
  obtain ⟨c, inText, inUnits⟩ := List.mem_flatMap.1 member
  exact noSlash (eq_slash_of_mem_unitsOf inUnits ▸ inText)

theorem units_starts {lead : List Char} (starts : lead = [] ∨ lead.getLast? = some '/')
    : lead.flatMap Text.unitsOf = [] ∨ (lead.flatMap Text.unitsOf).getLast? = some 47 := by
  rcases starts with rfl | atEnd
  · exact .inl rfl
  · obtain ⟨before, rfl⟩ := List.getLast?_eq_some_iff.1 atEnd
    have slash : Text.unitsOf '/' = [47] := rfl
    exact .inr (by simp [slash])

/-- A name that is not hidden leaves none hidden behind others that are not. -/
theorem not_hasHidden_append {lead name : List Nat} (shown : ¬ HasHidden lead)
    (noSlash : 47 ∉ name) (notDot : name.head? ≠ some 46)
    : ¬ HasHidden (lead ++ name) := by
  rintro (isDot | ⟨left, right, eq⟩)
  · cases lead with
    | nil => exact notDot isDot
    | cons unit lead => exact shown (.inl isDot)
  · have eq : (left ++ [47]) ++ (46 :: right) = lead ++ name := by simpa using eq
    rcases List.append_eq_append_iff.1 eq with ⟨more, rfl, rest⟩ | ⟨more, own, rest⟩
    · cases more with
      | nil => exact notDot (by simpa using (congrArg List.head? rest).symm)
      | cons unit more =>
          obtain ⟨rfl, _⟩ := List.cons.inj rest
          exact shown (.inr ⟨left, more, by simp⟩)
    · rcases List.eq_nil_or_concat more with rfl | ⟨more, last, rfl⟩
      · exact notDot (by simpa using congrArg List.head? rest)
      · rw [List.concat_eq_append, ← List.append_assoc] at own
        obtain ⟨_, isLast⟩ := List.append_inj' own rfl
        obtain rfl : 47 = last := by simpa using isLast
        exact noSlash (by simp [rest])

/-- What is known of a directory part and a name that the pattern of templates matches. -/
theorem shown_of_isFoundIn (isWord : IsWord word) {lead name : List Char}
    (starts : lead = [] ∨ lead.getLast? = some '/') (nonempty : name ≠ []) (noSlash : '/' ∉ name)
    (h : (templateRegex word).isFoundIn (lead ++ name) = true)
    : ¬ HasHidden ((lead ++ name).flatMap Text.unitsOf)
      ∧ (∀ unit ∈ lead.flatMap Text.unitsOf, UnitSet.lineEnds.has unit = false)
      ∧ ∃ unit ∈ (name.flatMap Text.unitsOf).head?, UnitSet.lineEnds.has unit = false := by
  have noSlash' := slash_not_mem_units noSlash
  obtain ⟨before, passed, slashes, ⟨⟨⟨inText, atName⟩, lines, shown⟩, notDot, line⟩, noSlash'',
      atEnd⟩ :=
    exists_shown isWord h
  rw [InText, List.flatMap_append] at inText
  have isName := Text.takeWhile_reverse (units_starts starts) noSlash'
  rw [← inText] at isName
  rcases atEnd with rfl | rfl
  · rw [List.append_nil] at isName notDot line inText
    have starts' : before.reverse = [] ∨ before.reverse.getLast? = some 47 := by
      simpa using atName
    rw [Text.takeWhile_reverse starts' noSlash'', List.reverse_inj] at isName
    subst isName
    have isLead := List.append_cancel_right inText
    rw [List.flatMap_append, ← isLead]
    exact ⟨not_hasHidden_append shown noSlash'' notDot, by simpa using lines, line⟩
  · have nothing : name.flatMap Text.unitsOf = [] := by simpa using isName.symm
    obtain ⟨c, more, rfl⟩ := List.exists_cons_of_ne_nil nonempty
    rw [List.flatMap_cons, List.append_eq_nil_iff, Text.unitsOf] at nothing
    split at nothing <;> cases nothing.1

/-- No path whose last name is hidden is matched by the pattern of templates. -/
theorem head?_ne_dot_of_isFoundIn (isWord : IsWord word) {lead name : List Char}
    (starts : lead = [] ∨ lead.getLast? = some '/') (noSlash : '/' ∉ name)
    (h : (templateRegex word).isFoundIn (lead ++ name) = true)
    : name.head? ≠ some '.' := by
  intro isHidden
  obtain ⟨more, rfl⟩ := List.head?_eq_some_iff.1 isHidden
  obtain ⟨shown, _⟩ := shown_of_isFoundIn isWord starts (List.cons_ne_nil _ _) noSlash h
  apply shown
  rcases starts with rfl | atEnd
  · exact .inl rfl
  · obtain ⟨before, rfl⟩ := List.getLast?_eq_some_iff.1 atEnd
    refine .inr ⟨before.flatMap Text.unitsOf, more.flatMap Text.unitsOf, ?_⟩
    have slash : Text.unitsOf '/' = [47] := rfl
    have dot : Text.unitsOf '.' = [46] := rfl
    simp [slash, dot]

end Stencil.Files.Glob
