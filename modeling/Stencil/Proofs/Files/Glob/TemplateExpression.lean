import Stencil.Proofs.Files.Glob.TemplatePattern

/-! The regular expression of the pattern of templates, as a text. The pattern is read in seven
steps, each of them told by the state after it.
-/

namespace Stencil.Files.Glob.Expression

/-- The expression of the two stars and the slash: the places where names start. -/
def nameStart : List Char := "(?:^|\\/|(?:(?:(?!(?:^|\\/)\\.).)*?)\\/)".toList

/-- The expression of the pattern of templates whose suffix is a dot and a word. -/
def templateOutput (word : List Char) : List Char :=
  nameStart ++ noDot ++ beforeUnit ++ anyUnits ++ dot ++ word ++ dot ++ anyUnits ++ slash ++ ['?']

namespace State

/-- A state outside all that may be open. -/
def calm (showHidden : Bool) (position : Nat) (pieces : List Piece) (output unread : List Char)
    : State :=
  { State.begin showHidden unread with position, pieces, output }

/-- The pieces of the part of the pattern before its first dot, the last one first. -/
def leadingPieces : List Piece :=
  [.ofOutput .star ['*'] anyUnits, .ofOutput .slash ['/'] (noDot ++ beforeUnit),
    .ofOutput .stars ['*', '*'] nameStart, .ofOutput .start [] noDot]

variable {readRest : List Char → List Char} {position fuel : Nat} {pieces : List Piece}
  {value text output tail word : List Char} {showHidden : Bool}

-----------------------------------------------------------------------------------------
-- Steps of reading
-----------------------------------------------------------------------------------------

theorem readNext_firstStar
    : (State.begin false ('*' :: '*' :: '/' :: '*' :: '.' :: tail)).readNext readRest
      = calm false 1 [.ofOutput .star ['*'] anyUnits, .ofOutput .start [] noDot] (noDot ++ anyUnits)
          ('*' :: '/' :: '*' :: '.' :: tail) :=
  rfl

/-- Two stars before a slash are names, and the slash is read with them. -/
theorem readNext_secondStar
    : (calm false 1 [.ofOutput .star ['*'] anyUnits, .ofOutput .start [] noDot] (noDot ++ anyUnits)
        ('*' :: '/' :: '*' :: '.' :: tail)).readNext readRest
      = calm false 3
          [.ofOutput .slash ['/'] [], .ofOutput .stars ['*', '*'] nameStart,
            .ofOutput .start [] noDot]
          nameStart ('*' :: '.' :: tail) := by
  change readSecondStar (.ofOutput .star ['*'] anyUnits) (.ofOutput .start [] noDot) []
    (calm false 2 [.ofOutput .star ['*'] anyUnits, .ofOutput .start [] noDot] (noDot ++ anyUnits)
      ('/' :: '*' :: '.' :: tail)) = _
  have same : afterStars ('/' :: '*' :: '.' :: tail).length ('/' :: '*' :: '.' :: tail)
      = '/' :: '*' :: '.' :: tail := rfl
  have unread (position : Nat) (pieces : List Piece) (output unread : List Char)
      : (calm false position pieces output unread).unread = unread := rfl
  simp only [readSecondStar, unread, same, Nat.sub_self]
  rfl

theorem readNext_thirdStar
    : (calm false 3
        [.ofOutput .slash ['/'] [], .ofOutput .stars ['*', '*'] nameStart,
          .ofOutput .start [] noDot]
        nameStart ('*' :: '.' :: tail)).readNext readRest
      = calm false 4 leadingPieces (nameStart ++ noDot ++ beforeUnit ++ anyUnits) ('.' :: tail) :=
  rfl

theorem readNext_firstDot
    : (calm false position leadingPieces output ('.' :: tail)).readNext readRest
      = calm false (position + 1) (.ofOutput .text ['.'] dot :: leadingPieces) (output ++ dot)
          tail :=
  rfl

theorem readNext_dot
    : (calm false position (.ofOutput .text value text :: pieces) output
        ('.' :: tail)).readNext readRest
      = calm false (position + 1) (.ofOutput .text (value ++ ['.']) (text ++ ['.']) :: pieces)
          (output ++ dot) tail :=
  rfl

/-- A character that stands for itself is read as text. -/
theorem readMark_of_isWord {c : Char} {index : Nat} {state : State}
    (isWord : isOwn c = true)
    : state.readMark readRest index c = state.readText c := by
  unfold readMark
  split <;> first | rfl | exact absurd isWord (by decide)

theorem isPlain_of_isWord {c : Char} (isWord : isOwn c = true)
    : (!"@![].,$*+?^\x7b\x7d()|\\/".toList.contains c) = true := by
  have marks : ("@![].,$*+?^\x7b\x7d()|\\/".toList.all fun mark => !isOwn mark) = true := rfl
  rw [Bool.not_eq_true', ← Bool.not_eq_true, List.contains_iff_mem]
  intro isMark
  simpa [isWord] using List.all_eq_true.1 marks c isMark

/-- A word is read as one text, if a mark follows it. -/
theorem readNext_eq_pushText (isWord : IsWord word)
    (stops : tail.takeWhile (fun c => !"@![].,$*+?^\x7b\x7d()|\\/".toList.contains c) = [])
    : (calm showHidden position pieces output (word ++ tail)).readNext readRest
      = (calm showHidden (position + word.length) pieces output tail).pushText word := by
  cases word with
  | nil => exact absurd rfl isWord.nonempty
  | cons c word =>
      have isWordChar := isWord.isWord c (List.mem_cons_self ..)
      have differs (mark : Char) (isMark : isOwn mark = false)
          : (c == mark) = false := by
        rw [beq_eq_false_iff_ne]
        rintro rfl
        rw [isMark] at isWordChar
        cases isWordChar
      have more : (word ++ tail).takeWhile
          (fun c => !"@![].,$*+?^\x7b\x7d()|\\/".toList.contains c) = word := by
        rw [List.takeWhile_append_of_pos fun other member =>
          isPlain_of_isWord (isWord.isWord other (List.mem_cons_of_mem _ member)), stops]
        exact List.append_nil _
      have isText : (calm showHidden position pieces output (c :: word ++ tail)).readNext readRest
          = (calm showHidden (position + 1) pieces output (word ++ tail)).readText c := by
        change (if c == '\x00' then _ else if c == '\\' then _ else readMark _ _ _ _) = _
        rw [differs '\x00' (by decide), differs '\\' (by decide)]
        exact readMark_of_isWord isWordChar
      have unread : (calm showHidden (position + 1) pieces output (word ++ tail)).unread
          = word ++ tail := rfl
      have left : (word ++ tail).drop word.length = tail := List.drop_left
      have place : position + (c :: word).length = position + 1 + word.length := by
        rw [List.length_cons]
        omega
      rw [isText, place]
      simp only [readText, unread, more, differs '$' (by decide),
        differs '^' (by decide), Bool.or_false, skip, left]
      rfl

theorem readNext_word (isWord : IsWord word)
    : (calm false position (.ofOutput .text value text :: pieces) output
        (word ++ '.' :: tail)).readNext readRest
      = calm false (position + word.length)
          (.ofOutput .text (value ++ word) (text ++ word) :: pieces)
          (output ++ word) ('.' :: tail) :=
  (readNext_eq_pushText isWord rfl).trans rfl

/-- A star at the end of a name stands for any units. -/
theorem readNext_lastStar
    : (calm false (position + 1) (.ofOutput .text value text :: pieces) output
        ['*']).readNext readRest
      = calm false (position + 2)
          (.ofOutput .star ['*'] anyUnits :: .ofOutput .text value text :: pieces)
          (output ++ anyUnits) [] := by
  change readFirstStar (position + 1)
    (calm false (position + 2) (.ofOutput .text value text :: pieces) output []) = _
  simp only [readFirstStar, calm, State.begin]
  rfl

theorem finish_lastStar (position : Nat)
    : (calm false position (.ofOutput .star ['*'] anyUnits :: pieces) output []).finish.output
      = output ++ (slash ++ ['?'])
      ∧ (calm false position (.ofOutput .star ['*'] anyUnits :: pieces) output
          []).finish.isNegated
        = false :=
  ⟨rfl, rfl⟩

-----------------------------------------------------------------------------------------
-- The whole pattern
-----------------------------------------------------------------------------------------

theorem readAll_of_unread {state : State} (unread : state.unread ≠ [])
    : state.readAll readRest (fuel + 1) = (state.readNext readRest).readAll readRest fuel := by
  rw [readAll, if_neg (by rwa [List.isEmpty_iff])]

theorem readAll_of_read {state : State} (unread : state.unread = [])
    : state.readAll readRest fuel = state := by
  cases fuel with
  | zero => rfl
  | succ fuel => rw [readAll, if_pos (by rw [unread]; rfl)]

variable (readRest) in
/-- The whole pattern is read to its expression, and is not negated. -/
theorem readAll_templatePattern (isWord : IsWord word)
    : let state := ((State.begin false (templatePattern word)).readAll readRest
        (templatePattern word).length).finish
      state.output = templateOutput word ∧ state.isNegated = false := by
  obtain ⟨more, length⟩ : ∃ more, (templatePattern word).length = more + 7 :=
    ⟨word.length, by simp [templatePattern]⟩
  have unread (position : Nat) (pieces : List Piece) (output : List Char)
      : (calm false position pieces output (word ++ ['.', '*'])).unread ≠ [] :=
    List.append_ne_nil_of_left_ne_nil isWord.nonempty _
  rw [length, readAll_of_unread (List.cons_ne_nil _ _), templatePattern, readNext_firstStar,
    readAll_of_unread (List.cons_ne_nil _ _), readNext_secondStar,
    readAll_of_unread (List.cons_ne_nil _ _), readNext_thirdStar,
    readAll_of_unread (List.cons_ne_nil _ _), readNext_firstDot,
    readAll_of_unread (unread _ _ _), readNext_word isWord,
    readAll_of_unread (List.cons_ne_nil _ _), readNext_dot,
    readAll_of_unread (List.cons_ne_nil _ _), readNext_lastStar,
    readAll_of_read rfl]
  obtain ⟨output, isNegated⟩ := finish_lastStar (4 + 1 + word.length + 2)
  refine ⟨output.trans ?_, isNegated⟩
  simp only [templateOutput, List.append_assoc]

end State

-----------------------------------------------------------------------------------------
-- The expression
-----------------------------------------------------------------------------------------

variable {word : List Char}

theorem commonParts_of_long {showHidden : Bool} {text : String} (long : 6 < text.toList.length)
    : commonParts showHidden text = [] := by
  fun_cases commonParts showHidden text <;> first | rfl | exact absurd long (by decide)

/-- The pattern is none of the common ones, and ends with no extension. -/
theorem shortcut?_templatePattern (fuel : Nat)
    : shortcut? false fuel (templatePattern word) = none := by
  have long : 6 < (String.ofList (templatePattern word)).toList.length := by
    simp [templatePattern]
  cases fuel with
  | zero => rfl
  | succ fuel =>
      have noExtension : (templatePattern word).reverse.takeWhile isWordChar = [] := by
        simp [templatePattern, isWordChar]
      rw [shortcut?, commonParts_of_long long]
      simp only [noExtension]
      rfl

/-- Only texts of stars and slashes have a shorter pattern. -/
theorem simplified_of_mem {c : Char} {text : List Char} (member : c ∈ text)
    (other : c ≠ '*' ∧ c ≠ '/')
    : simplified text = text := by
  have texts : "***".toList = ['*', '*', '*'] ∧ "**/**".toList = ['*', '*', '/', '*', '*']
      ∧ "**/**/**".toList = ['*', '*', '/', '*', '*', '/', '*', '*'] := ⟨rfl, rfl, rfl⟩
  rw [simplified, texts.1, texts.2.1, texts.2.2, if_neg, if_neg]
  · rw [Bool.or_eq_true, decide_eq_true_iff, decide_eq_true_iff]
    rintro (rfl | rfl) <;> simp [other] at member
  · rintro rfl
    simp [other] at member

theorem simplified_templatePattern : simplified (templatePattern word) = templatePattern word :=
  simplified_of_mem (c := '.') (by simp [templatePattern]) (by decide)

theorem ofPattern_templatePattern (isWord : IsWord word)
    : ofPattern false (templatePattern word) = whole (templateOutput word) := by
  have same : withoutDot (simplified (templatePattern word)) = templatePattern word := by
    rw [simplified_templatePattern]
    rfl
  have isMarked : isPlain (templatePattern word) = false := rfl
  obtain ⟨depth, length⟩ : ∃ depth, (templatePattern word).length = depth + 1 := ⟨_, rfl⟩
  obtain ⟨output, isNegated⟩ :=
    State.readAll_templatePattern (fun rest => (readWithin false depth rest).1) isWord
  have read : readWithin false (templatePattern word).length (templatePattern word)
      = (templateOutput word, false) := by
    rw [length, readWithin, same]
    simp only [output, isNegated]
  simp only [ofPattern, same, shortcut?_templatePattern, ite_self, isMarked, read]
  rfl

end Stencil.Files.Glob.Expression
