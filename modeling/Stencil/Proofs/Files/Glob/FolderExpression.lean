import Stencil.Proofs.Files.Glob.TemplateExpression

/-! The pattern of all that stands below a directory: a path text with a slash and two stars behind
it. If the characters of the path text have no meaning there, each of them stands for itself in the
regular expression of the pattern.
-/

namespace Stencil.Files.Glob

/-- A character that stands for itself in a path: one that does so everywhere, a slash, a dot, or a
mark with a meaning only before a parenthesis or in braces.
-/
def IsSpelled (c : Char) : Prop :=
  isOwn c = true ∨ c = '.' ∨ c = '/' ∨ c = '+' ∨ c = '@' ∨ c = ','

instance : DecidablePred IsSpelled := fun _ => inferInstanceAs (Decidable (_ ∨ _))

/-- A path text that spells itself in a pattern: single slashes between characters that stand for
themselves, with no slash at either end and no dot for the directory itself at the start.
-/
structure IsLiteral (text : List Char) : Prop where
  nonempty : text ≠ []
  chars : ∀ c ∈ text, IsSpelled c
  starts : text.head? ≠ some '/'
  notHere : ¬ ['.', '/'] <+: text ++ ['/']
  apart : ¬ ['/', '/'] <:+: text
  ends : text.getLast? ≠ some '/'

/-- The pattern of all that stands below a directory. -/
def folderPattern (text : List Char) : List Char := text ++ ['/', '*', '*']

namespace Expression

/-- The expression of a text that spells itself. -/
def literalOutput (text : List Char) : List Char :=
  text.flatMap fun c =>
    if c = '.' then dot else if c = '/' then slash else if c = '+' then ['\\', '+'] else [c]

/-- The place before a name that stars stand for. -/
def nameGuard (shown : Bool) : List Char := if shown then noDotName else noDot

/-- The expression of the slash and the two stars: names, or nothing. -/
def belowOutput (shown : Bool) : List Char :=
  "(?:".toList ++ (slash ++ nameGuard shown) ++ (anyNames shown ++ "|$)".toList)

namespace State

variable {readRest : List Char → List Char} {position : Nat} {piece : Piece} {pieces : List Piece}
  {output tail word : List Char} {shown : Bool}

/-- The kinds of pieces that a name ends with. -/
def EndsName (kind : Kind) : Prop := kind = .text ∨ kind = .dot ∨ kind = .mark ∨ kind = .comma

/-- A piece that a text which spells itself is read to. -/
structure IsFlat (piece : Piece) : Prop where
  kind : piece.kind = .start ∨ piece.kind = .slash ∨ EndsName piece.kind
  value : '(' ∉ piece.value

-----------------------------------------------------------------------------------------
-- Steps of reading
-----------------------------------------------------------------------------------------

variable (position pieces output tail shown) in
/-- A piece that a name ends with is added to the last one, or put behind it. -/
theorem exists_push (isFlat : IsFlat piece) (next : Piece) (endsName : EndsName next.kind)
    (noParenthesis : '(' ∉ next.value)
    : ∃ piece' pieces',
        (calm shown position (piece :: pieces) output tail).push next
        = calm shown position (piece' :: pieces') (output ++ next.output) tail
        ∧ '(' ∉ piece'.value
        ∧ piece'.kind = next.kind := by
  obtain ⟨kind, value, output?, isExtension, hasClass, hasMoreStars⟩ := piece
  obtain ⟨nextKind, nextValue, nextOutput?, _, _, _⟩ := next
  have longer : '(' ∉ value ++ nextValue := by simpa [isFlat.value] using noParenthesis
  rcases isFlat.kind with rfl | rfl | rfl | rfl | rfl | rfl
  case inr.inr.inl =>
    rcases endsName with rfl | rfl | rfl | rfl
    · exact ⟨_, _, rfl, longer, rfl⟩
    all_goals exact ⟨_, _, rfl, noParenthesis, rfl⟩
  all_goals exact ⟨_, _, rfl, noParenthesis, rfl⟩

variable (readRest position pieces output tail shown) in
theorem exists_readNext_dot (isFlat : IsFlat piece)
    : ∃ piece' pieces',
        (calm shown position (piece :: pieces) output ('.' :: tail)).readNext readRest
        = calm shown (position + 1) (piece' :: pieces') (output ++ dot) tail
        ∧ '(' ∉ piece'.value
        ∧ (piece'.kind = .text ∨ piece'.kind = .dot) := by
  obtain ⟨piece', pieces', added, value, isText⟩ :=
    exists_push (position + 1) pieces output tail shown isFlat (.ofOutput .text ['.'] dot) (.inl rfl)
      (by decide)
  obtain ⟨kind, _, output?, isExtension, hasClass, hasMoreStars⟩ := piece
  rcases isFlat.kind with rfl | rfl | endsName
  · exact ⟨_, _, rfl, by decide, .inr rfl⟩
  · exact ⟨_, _, rfl, by decide, .inr rfl⟩
  · refine ⟨piece', pieces', added ▸ ?_, value, .inl isText⟩
    rcases endsName with rfl | rfl | rfl | rfl <;> rfl

theorem isBeforeParenthesis_eq_false {state : State} (follows : state.unread.head? ≠ some '(')
    : state.isBeforeParenthesis false = false := by
  rw [isBeforeParenthesis]
  split
  · rename_i eq
    exact absurd (by rw [eq]; rfl) follows
  · rename_i eq
    exact absurd (by rw [eq]; rfl) follows
  · rfl

variable (readRest position pieces output shown) in
/-- A plus, an at sign and a comma stand for themselves where no parenthesis follows. -/
theorem exists_readNext_mark (isFlat : IsFlat piece) {c : Char}
    (isMark : c = '+' ∨ c = '@' ∨ c = ',') (follows : tail.head? ≠ some '(')
    : ∃ piece' pieces',
        (calm shown position (piece :: pieces) output (c :: tail)).readNext readRest
        = calm shown (position + 1) (piece' :: pieces') (output ++ literalOutput [c]) tail
        ∧ '(' ∉ piece'.value
        ∧ (piece'.kind = .text ∨ piece'.kind = .mark ∨ piece'.kind = .comma) := by
  let state := calm shown (position + 1) (piece :: pieces) output tail
  have noParenthesis : state.isBeforeParenthesis false = false :=
    isBeforeParenthesis_eq_false follows
  have added := exists_push (position + 1) pieces output tail shown isFlat
  rcases isMark with rfl | rfl | rfl
  · have notOpening : state.last.value ≠ ['('] := fun opening => by
      have opening : piece.value = ['('] := opening
      exact isFlat.value (opening ▸ List.mem_singleton_self _)
    have plus : readPlus state = state.push (.ofValue .mark ['\\', '+']) := by
      rw [readPlus, noParenthesis, if_neg Bool.false_ne_true, if_neg notOpening, if_neg]
      obtain ⟨kind, value, output?, isExtension, hasClass, hasMoreStars⟩ := piece
      rcases isFlat.kind with rfl | rfl | rfl | rfl | rfl | rfl <;> exact Bool.false_ne_true
    obtain ⟨piece', pieces', eq, value, kind⟩ :=
      added (.ofValue .mark ['\\', '+']) (.inr (.inr (.inl rfl))) (by decide)
    exact ⟨piece', pieces', plus.trans eq, value, .inr (.inl kind)⟩
  · have at_ : readAt state = state.push (.ofValue .text ['@']) := by
      rw [readAt, noParenthesis, if_neg Bool.false_ne_true]
      rfl
    obtain ⟨piece', pieces', eq, value, kind⟩ :=
      added (.ofValue .text ['@']) (.inl rfl) (by decide)
    exact ⟨piece', pieces', at_.trans eq, value, .inl kind⟩
  · obtain ⟨piece', pieces', eq, value, kind⟩ :=
      added (.ofOutput .comma [','] [',']) (.inr (.inr (.inr rfl))) (by decide)
    exact ⟨piece', pieces', eq, value, .inr (.inr kind)⟩

theorem readNext_slash (isFlat : IsFlat piece) (guard : piece.kind = .dot → position ≠ 1)
    : (calm shown position (piece :: pieces) output ('/' :: tail)).readNext readRest
      = calm shown (position + 1) (.ofOutput .slash ['/'] slash :: piece :: pieces)
          (output ++ slash) tail := by
  change readSlash position (calm shown (position + 1) (piece :: pieces) output tail) = _
  have notHere : ¬ (piece.kind = .dot ∧ position = 0 + 1) := fun both => guard both.1 both.2
  obtain ⟨kind, value, output?, isExtension, hasClass, hasMoreStars⟩ := piece
  rw [readSlash]
  rw [if_neg (by simpa [last, calm, State.begin] using notHere)]
  rcases isFlat.kind with rfl | rfl | rfl | rfl | rfl | rfl <;> rfl

/-- What stands behind a word of such a text, and behind the text, ends the word. -/
theorem takeWhile_eq_nil_of_mark {c : Char} (isSpelled : IsSpelled c) (isMark : isOwn c = false)
    : (c :: tail).takeWhile (fun c => !"@![].,$*+?^\x7b\x7d()|\\/".toList.contains c) = [] := by
  rcases isSpelled with isWord | rfl | rfl | rfl | rfl | rfl
  · exact absurd isWord (Bool.eq_false_iff.1 isMark)
  all_goals rfl

variable (readRest position pieces output tail shown) in
theorem exists_readNext_word (isFlat : IsFlat piece) (isWord : IsWord word) {c : Char}
    (isSpelled : IsSpelled c) (isMark : isOwn c = false)
    : ∃ piece' pieces',
        (calm shown position (piece :: pieces) output (word ++ c :: tail)).readNext readRest
        = calm shown (position + word.length) (piece' :: pieces') (output ++ word) (c :: tail)
        ∧ '(' ∉ piece'.value
        ∧ piece'.kind = .text := by
  rw [readNext_eq_pushText isWord (takeWhile_eq_nil_of_mark isSpelled isMark)]
  exact exists_push (position + word.length) pieces output (c :: tail) shown isFlat
    (.ofValue .text word) (.inl rfl) (isWord.not_mem (by decide))

/-- A star after a slash does not stand for a hidden name. -/
theorem readNext_starAfterSlash
    : (calm shown position (.ofOutput .slash ['/'] slash :: pieces) output
        ['*', '*']).readNext readRest
      = calm shown (position + 1)
          (.ofOutput .star ['*'] anyUnits :: .ofOutput .slash ['/'] (slash ++ nameGuard shown)
            :: pieces)
          (output ++ nameGuard shown ++ anyUnits) ['*'] := by
  cases shown <;> cases position <;> rfl

/-- Two stars behind a name and a slash stand for all names, and for none without the slash. -/
theorem readNext_starsAfterSlash (endsName : EndsName piece.kind)
    : (calm shown position
        (.ofOutput .star ['*'] anyUnits :: .ofOutput .slash ['/'] (slash ++ nameGuard shown)
          :: piece :: pieces)
        (output ++ slash ++ nameGuard shown ++ anyUnits) ['*']).readNext readRest
      = calm shown (position + 1)
          (.ofOutput .stars ['*', '*'] (anyNames shown ++ "|$)".toList)
            :: .ofOutput .slash ['/'] ("(?:".toList ++ (slash ++ nameGuard shown)) :: piece
            :: pieces)
          (output ++ belowOutput shown) [] := by
  let star := Piece.ofOutput .star ['*'] anyUnits
  let prior := Piece.ofOutput .slash ['/'] (slash ++ nameGuard shown)
  have isNames : (calm shown position (star :: prior :: piece :: pieces)
        (output ++ slash ++ nameGuard shown ++ anyUnits) ['*']).readNext readRest
      = starsAfterSlash (anyNames shown ++ "|$)".toList) star prior (piece :: pieces)
          (calm shown (position + 1) (star :: prior :: piece :: pieces)
            (output ++ slash ++ nameGuard shown ++ anyUnits) []) := by
    obtain ⟨kind, value, output?, isExtension, hasClass, hasMoreStars⟩ := piece
    rcases endsName with rfl | rfl | rfl | rfl <;> rfl
  have start : dropEnd (prior.output.length + star.output.length)
      (output ++ slash ++ nameGuard shown ++ anyUnits) = output := by
    have length : prior.output.length + star.output.length
        = (slash ++ nameGuard shown ++ anyUnits).length := by
      cases shown <;> rfl
    rw [dropEnd, length, List.append_assoc, List.append_assoc, ← List.append_assoc slash,
      List.length_append, Nat.add_sub_cancel, List.take_left]
  have written : (calm shown (position + 1) (star :: prior :: piece :: pieces)
      (output ++ slash ++ nameGuard shown ++ anyUnits) []).output
      = output ++ slash ++ nameGuard shown ++ anyUnits := rfl
  have regroup : output ++ belowOutput shown
      = output ++ ("(?:".toList ++ (slash ++ nameGuard shown))
        ++ (anyNames shown ++ "|$)".toList) :=
    (List.append_assoc _ _ _).symm
  rw [isNames, starsAfterSlash, written, start, regroup]
  rfl

-----------------------------------------------------------------------------------------
-- The whole pattern
-----------------------------------------------------------------------------------------

theorem literalOutput_word (isWord : ∀ c ∈ word, isOwn c = true)
    : literalOutput word = word := by
  induction word with
  | nil => rfl
  | cons c word ih =>
      rw [List.forall_mem_cons] at isWord
      have other (mark : Char) (isMark : isOwn mark = false)
          : c ≠ mark := by
        rintro rfl
        rw [isMark] at isWord
        cases isWord.1
      have rest := ih isWord.2
      simp only [literalOutput, List.flatMap_cons] at rest ⊢
      rw [rest, if_neg (other '.' (by decide)), if_neg (other '/' (by decide)),
        if_neg (other '+' (by decide))]
      rfl

theorem literalOutput_append (text tail : List Char)
    : literalOutput (text ++ tail) = literalOutput text ++ literalOutput tail :=
  List.flatMap_append

/-- A text that spells itself is left to be read, behind a piece at a position: its first dot is not
read as the directory itself.
-/
structure Reading (position : Nat) (piece : Piece) (text : List Char) : Prop where
  isFlat : IsFlat piece
  chars : ∀ c ∈ text, IsSpelled c
  guard : piece.kind = .dot → position = 1 → (text ++ ['/']).head? ≠ some '/'
  notHere : position = 0 → ¬ ['.', '/'] <+: text ++ ['/']
  ends : text.getLast? ≠ some '/'
  last : text = [] → EndsName piece.kind

/-- What is left of the text behind some of its characters. -/
theorem Reading.behind (passed : List Char) {text : List Char} {position' : Nat} {piece' : Piece}
    (h : Reading position piece (passed ++ text)) (later : position < position')
    (value : '(' ∉ piece'.value) (kind : EndsName piece'.kind ∨ piece'.kind = .slash ∧ text ≠ [])
    (guard : piece'.kind = .dot → position' = 1 → (text ++ ['/']).head? ≠ some '/')
    : Reading position' piece' text where
  isFlat := ⟨.inr (kind.symm.imp_left And.left), value⟩
  chars := fun c member => h.chars c (List.mem_append_right _ member)
  guard := guard
  notHere := fun atStart => by omega
  ends := fun ends => h.ends (by rw [List.getLast?_append, ends]; rfl)
  last := fun none => kind.elim id fun kind => absurd none kind.2

/-- A text that starts with a word is the word and what is left behind it. -/
theorem exists_word_of_isOwn {c : Char} (text : List Char) (isWord : isOwn c = true)
    : ∃ word rest,
        c :: text = word ++ rest
        ∧ IsWord word
        ∧ (rest = [] ∨ ∃ mark more, rest = mark :: more ∧ isOwn mark = false) := by
  refine ⟨(c :: text).takeWhile isOwn, (c :: text).dropWhile isOwn,
    List.takeWhile_append_dropWhile.symm, ⟨?_, fun d => ?_⟩, ?_⟩
  · simp [isWord]
  · exact fun member => List.all_eq_true.1 List.all_takeWhile d member
  · cases left : (c :: text).dropWhile isOwn with
    | nil => exact .inl rfl
    | cons mark more =>
        have stops := List.head?_dropWhile_not isOwn (c :: text)
        rw [left] at stops
        exact .inr ⟨mark, more, rfl, by simpa using stops⟩

/-- The next step takes a front of a text to its expression, and leaves the rest to be read. -/
def TakesFront (readRest : List Char → List Char) (shown : Bool) (position : Nat)
    (pieces : List Piece) (output text tail : List Char) : Prop :=
  ∃ front rest piece' pieces',
    text = front ++ rest
    ∧ front ≠ []
    ∧ (calm shown position pieces output (text ++ '/' :: tail)).readNext readRest
      = calm shown (position + front.length) (piece' :: pieces') (output ++ literalOutput front)
          (rest ++ '/' :: tail)
    ∧ Reading (position + front.length) piece' rest

section

variable {c : Char} {text : List Char}

theorem Reading.takesFront_word (reading : Reading position piece (c :: text))
    (isWord : isOwn c = true)
    : TakesFront readRest shown position (piece :: pieces) output (c :: text) tail := by
  obtain ⟨word, rest, split, isWord, stops⟩ := exists_word_of_isOwn text isWord
  obtain ⟨mark, more, behind, isSpelled, isMark⟩ : ∃ mark more,
      rest ++ '/' :: tail = mark :: more ∧ IsSpelled mark ∧ isOwn mark = false := by
    rcases stops with rfl | ⟨mark, more, rfl, isMark⟩
    · exact ⟨_, _, rfl, .inr (.inr (.inl rfl)), rfl⟩
    · exact ⟨_, _, rfl, reading.chars mark (by simp [split]), isMark⟩
  obtain ⟨piece', pieces', read, value, isText⟩ :=
    exists_readNext_word readRest position pieces output more shown reading.isFlat isWord isSpelled
      isMark
  have positive := List.length_pos_iff.2 isWord.nonempty
  refine ⟨word, rest, piece', pieces', split, isWord.nonempty, ?_, ?_⟩
  · rw [split, List.append_assoc, behind, read, literalOutput_word isWord.isWord]
  · rw [split] at reading
    refine reading.behind word (by omega) value (.inl (.inl isText)) fun isDot => ?_
    rw [isText] at isDot
    cases isDot

theorem Reading.takesFront_dot (reading : Reading position piece ('.' :: text))
    : TakesFront readRest shown position (piece :: pieces) output ('.' :: text) tail := by
  obtain ⟨piece', pieces', read, value, kind⟩ :=
    exists_readNext_dot readRest position pieces output (text ++ '/' :: tail) shown reading.isFlat
  have endsName : EndsName piece'.kind := kind.imp_right .inl
  refine ⟨['.'], text, piece', pieces', rfl, List.cons_ne_nil _ _, read, ?_⟩
  refine reading.behind ['.'] (Nat.lt_succ_self _) value (.inl endsName) fun _ atOne isSlash => ?_
  obtain ⟨more, eq⟩ := List.head?_eq_some_iff.1 isSlash
  exact reading.notHere (Nat.succ.inj atOne) ⟨more, by simp [eq]⟩

theorem Reading.takesFront_slash (reading : Reading position piece ('/' :: text))
    : TakesFront readRest shown position (piece :: pieces) output ('/' :: text) tail := by
  refine ⟨['/'], text, _, _, rfl, List.cons_ne_nil _ _,
    readNext_slash reading.isFlat fun isDot atOne => reading.guard isDot atOne rfl, ?_⟩
  refine reading.behind ['/'] (Nat.lt_succ_self _) (by decide) (.inr ⟨rfl, ?_⟩) nofun
  rintro rfl
  exact reading.ends rfl

theorem Reading.takesFront_mark (reading : Reading position piece (c :: text))
    (isMark : c = '+' ∨ c = '@' ∨ c = ',')
    : TakesFront readRest shown position (piece :: pieces) output (c :: text) tail := by
  have follows : (text ++ '/' :: tail).head? ≠ some '(' := by
    cases text with
    | nil => simp
    | cons next text =>
        rintro isParenthesis
        cases isParenthesis
        exact absurd (reading.chars '(' (by simp)) (by decide)
  obtain ⟨piece', pieces', read, value, kind⟩ :=
    exists_readNext_mark readRest position pieces output shown reading.isFlat isMark follows
  have endsName : EndsName piece'.kind := kind.imp_right .inr
  refine ⟨[c], text, piece', pieces', rfl, List.cons_ne_nil _ _, read, ?_⟩
  refine reading.behind [c] (Nat.lt_succ_self _) value (.inl endsName) fun isDot => ?_
  rcases kind with isText | isPlus | isComma <;> simp_all

/-- A word, a dot, a slash or a mark is next in a text that spells itself. -/
theorem Reading.takesFront (reading : Reading position piece (c :: text))
    : TakesFront readRest shown position (piece :: pieces) output (c :: text) tail := by
  rcases reading.chars c (List.mem_cons_self ..) with isWord | rfl | rfl | isMark
  · exact reading.takesFront_word isWord
  · exact reading.takesFront_dot
  · exact reading.takesFront_slash
  · exact reading.takesFront_mark isMark

end

variable (readRest tail shown) in
/-- The text is read to its expression, by induction on its length. -/
theorem exists_readAll_literal {position : Nat} {piece : Piece} (pieces : List Piece)
    (output : List Char) {text : List Char} {fuel : Nat} (reading : Reading position piece text)
    (enough : text.length + 3 ≤ fuel)
    : ∃ position' piece' pieces' fuel',
        (calm shown position (piece :: pieces) output (text ++ '/' :: tail)).readAll readRest fuel
        = (calm shown position' (piece' :: pieces') (output ++ literalOutput text)
            ('/' :: tail)).readAll readRest (fuel' + 3)
        ∧ IsFlat piece'
        ∧ EndsName piece'.kind
        ∧ (piece'.kind = .dot → position' ≠ 1) := by
  match text with
  | [] =>
      obtain ⟨fuel', rfl⟩ := Nat.exists_eq_add_of_le' enough
      refine ⟨position, piece, pieces, fuel', ?_, reading.isFlat, reading.last rfl,
        fun isDot atOne => ?_⟩
      · rw [literalOutput, List.flatMap_nil, List.append_nil]
        rfl
      · exact reading.guard isDot atOne rfl
  | c :: text =>
      have step : TakesFront readRest shown position (piece :: pieces) output (c :: text) tail :=
        reading.takesFront
      obtain ⟨front, rest, piece', pieces', split, nonempty, read, reading'⟩ := step
      obtain ⟨fuel, rfl⟩ : ∃ more, fuel = more + 1 := ⟨fuel - 1, by omega⟩
      have positive := List.length_pos_iff.2 nonempty
      have shorter : text.length + 1 = front.length + rest.length := by
        simpa using congrArg List.length split
      have enough' : rest.length + 3 ≤ fuel := by
        rw [List.length_cons] at enough
        omega
      obtain ⟨position', piece'', pieces'', fuel', readRest, ends⟩ :=
        exists_readAll_literal pieces' (output ++ literalOutput front) reading' enough'
      refine ⟨position', piece'', pieces'', fuel', ?_, ends⟩
      have unread : (calm shown position (piece :: pieces) output
          (c :: text ++ '/' :: tail)).unread ≠ [] :=
        List.cons_ne_nil _ _
      rw [readAll_of_unread unread, read, readRest, split, literalOutput_append, List.append_assoc]
  termination_by text.length

/-- The slash and the two stars behind the text. -/
theorem readAll_below {fuel : Nat} (isFlat : IsFlat piece) (endsName : EndsName piece.kind)
    (guard : piece.kind = .dot → position ≠ 1)
    : let state := ((calm shown position (piece :: pieces) output
        ['/', '*', '*']).readAll readRest (fuel + 3)).finish
      state.output = output ++ belowOutput shown ∧ state.isNegated = false := by
  have slashed : (calm shown position (piece :: pieces) output
      ['/', '*', '*']).readNext readRest = _ :=
    readNext_slash isFlat guard
  rw [readAll_of_unread (List.cons_ne_nil _ _), slashed,
    readAll_of_unread (List.cons_ne_nil _ _), readNext_starAfterSlash,
    readAll_of_unread (List.cons_ne_nil _ _), readNext_starsAfterSlash endsName,
    readAll_of_read rfl]
  exact ⟨rfl, rfl⟩

variable (readRest shown) in
/-- The pattern is read to its expression, and is not negated. -/
theorem readAll_folderPattern {text : List Char} (isLiteral : IsLiteral text)
    : let state := ((State.begin shown (folderPattern text)).readAll readRest
        (folderPattern text).length).finish
      state.output = literalOutput text ++ belowOutput shown ∧ state.isNegated = false := by
  have reading : Reading 0 .atStart text := by
    refine ⟨⟨.inl rfl, by decide⟩, isLiteral.chars, nofun, fun _ => isLiteral.notHere, isLiteral.ends, ?_⟩
    exact fun none => absurd none isLiteral.nonempty
  have length : (folderPattern text).length = text.length + 3 := List.length_append
  obtain ⟨position, piece, pieces, fuel, read, isFlat, endsName, guard⟩ :=
    exists_readAll_literal readRest ['*', '*'] shown [] [] reading (Nat.le_of_eq length.symm)
  have start : State.begin shown (folderPattern text)
      = calm shown 0 [.atStart] [] (text ++ ['/', '*', '*']) :=
    rfl
  rw [start, read]
  exact readAll_below isFlat endsName guard

end State

variable {text : List Char} (isLiteral : IsLiteral text)

include isLiteral

theorem simplified_folderPattern : simplified (folderPattern text) = folderPattern text := by
  obtain ⟨c, more, rfl⟩ := List.exists_cons_of_ne_nil isLiteral.nonempty
  refine simplified_of_mem (c := c) (List.mem_cons_self ..) ⟨?_, ?_⟩
  · rintro rfl
    exact absurd (isLiteral.chars '*' (List.mem_cons_self ..)) (by decide)
  · rintro rfl
    exact isLiteral.starts rfl

/-- A path below a text that spells itself does not start with a dot and a slash. -/
theorem withoutDot_below (more : List Char)
    : withoutDot (text ++ '/' :: more) = text ++ '/' :: more := by
  refine withoutDot_eq_self fun ⟨rest, eq⟩ => isLiteral.notHere ?_
  have whole : text ++ ['/'] ++ more = ['.', '/'] ++ rest := by
    simpa using eq.symm
  have long : ['.', '/'].length ≤ (text ++ ['/']).length := by
    have positive := List.length_pos_iff.2 isLiteral.nonempty
    simp only [List.length_cons, List.length_nil, List.length_append]
    omega
  exact List.prefix_of_prefix_length_le ⟨rest, whole.symm⟩ (List.prefix_append _ _) long

omit isLiteral in
theorem commonParts_of_stars {text : String}
    (stars : text.toList.reverse.take 3 = ['*', '*', '/'])
    : commonParts shown text = [] := by
  fun_cases commonParts shown text <;> first | rfl | exact absurd stars (by decide)

omit isLiteral in
/-- The pattern is none of the common ones, and ends with no extension. -/
theorem shortcut?_folderPattern (fuel : Nat)
    : shortcut? shown fuel (folderPattern text) = none := by
  have stars : (String.ofList (folderPattern text)).toList.reverse.take 3 = ['*', '*', '/'] := by
    simp [folderPattern]
  cases fuel with
  | zero => rfl
  | succ fuel =>
      have noExtension : (folderPattern text).reverse.takeWhile isWordChar = [] := by
        simp [folderPattern, isWordChar]
      rw [shortcut?, commonParts_of_stars stars]
      simp only [noExtension]
      rfl

theorem ofPattern_folderPattern
    : ofPattern shown (folderPattern text) = whole (literalOutput text ++ belowOutput shown) := by
  have same : withoutDot (simplified (folderPattern text)) = folderPattern text := by
    rw [simplified_folderPattern isLiteral]
    exact withoutDot_below isLiteral _
  have isMarked : isPlain (folderPattern text) = false := by
    simp [isPlain, folderPattern]
  obtain ⟨depth, length⟩ : ∃ depth, (folderPattern text).length = depth + 1 :=
    ⟨text.length + 2, List.length_append⟩
  obtain ⟨output, isNegated⟩ :=
    State.readAll_folderPattern (fun rest => (readWithin shown depth rest).1) shown isLiteral
  have read : readWithin shown (folderPattern text).length (folderPattern text)
      = (literalOutput text ++ belowOutput shown, false) := by
    rw [length, readWithin, same]
    simp only [output, isNegated]
  simp only [ofPattern, same, shortcut?_folderPattern, ite_self, isMarked, read]
  rfl

end Expression

end Stencil.Files.Glob
