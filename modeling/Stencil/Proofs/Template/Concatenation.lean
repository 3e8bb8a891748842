import Stencil.Proofs.Template.Backslashes
import Stencil.Proofs.Template.Scanning
import Stencil.Proofs.Template.Visits

/-! Rendering one text behind another gives both texts, within the steps of both. The pieces of the
second text are assembled behind the blocks of the first one; what they make differs from the blocks
of the second text in its positions, and one literal at the seam stands for two.
-/

namespace Stencil.Template

namespace Piece

open Stencil.Text

/-- Nothing at the end of a text changes how a text behind it is read. -/
structure EndsApart (text : List Char) : Prop where
  brace : text.getLast? ≠ some '\x7b'
  backslash : text.getLast? ≠ some '\\'

/-- What stands before a text has no part in how it ends. -/
theorem EndsApart.behind {front text : List Char} (h : EndsApart (front ++ text))
    : EndsApart text := by
  have same (c : Char) (ends : text.getLast? = some c) : (front ++ text).getLast? = some c := by
    rw [List.getLast?_append, ends]
    rfl
  exact ⟨fun ends => h.brace (same _ ends), fun ends => h.backslash (same _ ends)⟩

/-- The pieces of two texts and those of one behind the other: the literals at the seam, which may
be empty, are one, and what is behind them has moved.
-/
inductive Joined
    : List (Piece × Position) → List (Piece × Position) → List (Piece × Position) → Prop
  | seam {front behind moved : List (Piece × Position)} {lead more : List Char}
    {place position : Position} (same : moved.map Prod.fst = behind.map Prod.fst)
    : Joined (front ++ ofLiteral lead place) (ofLiteral more position ++ behind)
        (front ++ (ofLiteral (lead ++ more) place ++ moved))

theorem Joined.prepend {pieces pieces' whole : List (Piece × Position)}
    (h : Joined pieces pieces' whole) (front : List (Piece × Position))
    : Joined (front ++ pieces) pieces' (front ++ whole) := by
  cases h with
  | seam same =>
      rw [← List.append_assoc, ← List.append_assoc]
      exact .seam same

variable {position position' : Position} {first second text before content : List Char}
  {pieces pieces' : List (Piece × Position)}

theorem ofTag_append_left (ends : EndsApart first)
    : ofTag (first ++ before) content = ofTag before content := by
  rw [ofTag, ofTag, (literalBefore_append_left ends.backslash before).2]

theorem map_fst_ofLiteral (text : List Char) (place position : Position)
    : (ofLiteral text place).map Prod.fst = (ofLiteral text position).map Prod.fst := by
  unfold ofLiteral
  split <;> rfl

/-- A text has the same pieces wherever it is scanned, by induction on its scan. -/
theorem Scanned.relocate (h : Scanned position text pieces) (place : Position)
    : ∃ moved, Scanned place text moved ∧ moved.map Prod.fst = pieces.map Prod.fst := by
  induction h generalizing place with
  | literal absent => exact ⟨_, .literal absent, map_fst_ofLiteral _ _ _⟩
  | @unclosed position text before after opens absent =>
      refine ⟨_, .unclosed opens absent, ?_⟩
      rw [List.map_append, List.map_append, map_fst_ofLiteral _ place position]
      rfl
  | @closed position text before after content rest pieces opens closes later ih =>
      obtain ⟨moved, later', same⟩ := ih (place.after (throughTag before content))
      refine ⟨_, .closed opens closes later', ?_⟩
      rw [List.map_append, List.map_append, map_fst_ofLiteral _ place position, List.map_cons, same]
      rfl

/-- A text is scanned behind a literal as it is by itself, and its first literal joins that one. -/
theorem Scanned.exists_joined_literal (absent : ¬ opening <:+: first) (ends : EndsApart first)
    (place : Position) (h : Scanned position second pieces)
    : ∃ whole,
        Joined (ofLiteral first place) pieces whole ∧ Scanned place (first ++ second) whole := by
  have joined (more : List Char) (behind moved : List (Piece × Position))
      (same : moved.map Prod.fst = behind.map Prod.fst)
      : Joined ([] ++ ofLiteral first place) (ofLiteral more position ++ behind)
          ([] ++ (ofLiteral (first ++ more) place ++ moved)) :=
    .seam same
  have halved (before : List Char) := literalBefore_append_left ends.backslash before
  cases h with
  | literal absent' =>
      have scanned : Scanned place (first ++ second) (ofLiteral (first ++ second) place) :=
        .literal (not_infix_pair_append_left absent ends.brace absent')
      have ofNothing := joined second [] [] rfl
      rw [List.append_nil, List.append_nil] at ofNothing
      exact ⟨_, ofNothing, scanned⟩
  | unclosed opens absent' =>
      have scanned : Scanned place (first ++ second) _ :=
        .unclosed (opens.prepend absent ends.brace) absent'
      rw [(halved _).1, (halved _).2] at scanned
      refine ⟨_, joined _ _ _ ?_, scanned⟩
      rfl
  | closed opens closes later =>
      obtain ⟨moved, later', same⟩ := later.relocate (place.after (throughTag (first ++ _) _))
      have scanned := Scanned.closed (opens.prepend absent ends.brace) closes later'
      rw [(halved _).1, ofTag_append_left ends] at scanned
      refine ⟨_, joined _ _ _ ?_, scanned⟩
      rw [List.map_cons, List.map_cons, same]

/-- A text is scanned behind another one as it is by itself, with the literals at the seam joined.
By induction on the scan of the first text, whose tags are all closed.
-/
theorem Scanned.exists_joined (h : Scanned position first pieces)
    (closed : ∀ piece ∈ pieces, ∀ escaped, piece.1 ≠ .unclosed escaped) (ends : EndsApart first)
    (h' : Scanned position' second pieces')
    : ∃ whole, Joined pieces pieces' whole ∧ Scanned position (first ++ second) whole := by
  induction h with
  | literal absent => exact h'.exists_joined_literal absent ends _
  | @unclosed position first before after opens absent =>
      exact absurd rfl
        (closed (.unclosed (escapes before), tagPosition position before) (by simp) _)
  | @closed position first before after content rest pieces opens closes later ih =>
      have whole : first = throughTag before content ++ rest := by
        rw [opens.whole, closes.whole]
        simp [throughTag]
      rw [whole] at ends
      obtain ⟨joined, isJoined, scanned⟩ :=
        ih (fun piece member => closed piece (by simp [member])) ends.behind
      let front := ofLiteral (literalBefore before) position
        ++ [(ofTag before content, tagPosition position before)]
      have tag : ofLiteral (literalBefore before) position
          ++ (ofTag before content, tagPosition position before) :: pieces = front ++ pieces := by
        simp [front]
      have scanned' := Scanned.closed (opens.replaceAfter (content ++ closing ++ (rest ++ second)))
        (closes.replaceAfter (rest ++ second)) scanned
      rw [tag]
      refine ⟨_, isJoined.prepend front, ?_⟩
      simpa [whole, throughTag, front] using scanned'

end Piece

namespace Blocks

/-- The block of a literal, or no block for an empty text. -/
def ofLiteral (text : List Char) (position : Position) : Blocks :=
  if text.isEmpty then .done else .leaf (.literal (String.ofList text) position) .done

/-- One literal gives what two of them give, in one step less. -/
theorem refinesTo_literal_append (text more : String) (place position : Position)
    (entries : Table)
    : ((leaf (.literal text place) (leaf (.literal more position) .done)).visit entries).RefinesTo
        ((leaf (.literal (text ++ more) place) .done).visit entries) := by
  rintro all steps ⟨written, covered⟩
  refine ⟨?_, Nat.le_of_succ_le covered⟩
  rw [← written]
  simp [visit, Leaf.visit, Visit.one, Visit.andThen, Visit.nothing, Except.map]

/-- The literal at a seam gives what the two beside it give, either of which may be empty. -/
theorem refinesTo_ofLiteral_append (lead more : List Char) (place position : Position)
    (entries : Table)
    : ((ofLiteral lead place ++ ofLiteral more position).visit entries).RefinesTo
        ((ofLiteral (lead ++ more) place).visit entries) := by
  cases lead with
  | nil =>
      cases more with
      | nil => exact .refl _
      | cons d more => exact fun _ _ gives => gives
  | cons c lead =>
      cases more with
      | nil =>
          rw [List.append_nil]
          exact .refl _
      | cons d more =>
          have joined := refinesTo_literal_append (String.ofList (c :: lead))
            (String.ofList (d :: more)) place position entries
          rw [← String.ofList_append] at joined
          exact joined

end Blocks

namespace Nest

theorem foldlM_append_eq_ok_iff {nest last : Nest} {front behind : List (Piece × Position)}
    : (front ++ behind).foldlM add nest = .ok last
      ↔ ∃ between,
          front.foldlM add nest = .ok between ∧ behind.foldlM add between = .ok last := by
  rw [List.foldlM_append]
  cases front.foldlM add nest with
  | error cause => simp [bind, Except.bind]
  | ok between => simp [bind, Except.bind]

/-- A literal piece is added as its block. -/
theorem foldlM_ofLiteral (nest : Nest) (text : List Char) (position : Position)
    : (Piece.ofLiteral text position).foldlM add nest
      = .ok ⟨nest.levels, nest.current ++ Blocks.ofLiteral text position⟩ := by
  cases text with
  | nil =>
      rw [Blocks.ofLiteral]
      simp [Piece.ofLiteral, pure, Except.pure]
  | cons c text => rfl

/-- Only closed tags are added. -/
theorem closed_of_foldlM {nest last : Nest} {pieces : List (Piece × Position)}
    (folded : pieces.foldlM add nest = .ok last)
    : ∀ piece ∈ pieces, ∀ escaped, piece.1 ≠ .unclosed escaped := by
  induction pieces generalizing nest with
  | nil => simp
  | cons first pieces ih =>
      rw [List.foldlM_cons] at folded
      cases added : nest.add first with
      | error cause =>
          rw [added] at folded
          cases folded
      | ok next =>
          rw [added] at folded
          rw [List.forall_mem_cons]
          refine ⟨fun escaped unclosed => ?_, ih folded⟩
          obtain ⟨piece, position⟩ := first
          cases unclosed
          cases added

/-- The blocks that a literal and the pieces behind it make are the block of the literal and those
that the pieces behind it make.
-/
theorem exists_ofLiteral_append {text : List Char} {position : Position}
    {behind : List (Piece × Position)} {blocks : Blocks} {index : Nat}
    (made
      : List.Forall₂ (fun piece => Piece.Makes piece.1) (Piece.ofLiteral text position ++ behind)
          (blocks.tokensFrom index))
    : ∃ place rest index,
        blocks = Blocks.ofLiteral text place ++ rest
        ∧ List.Forall₂ (fun piece => Piece.Makes piece.1) behind (rest.tokensFrom index) := by
  cases text with
  | nil => exact ⟨position, blocks, index, rfl, made⟩
  | cons c text =>
      cases blocks with
      | done => cases made
      | leaf first rest =>
          obtain ⟨makes, later⟩ := List.forall₂_cons.1 made
          cases first with
          | literal text' place =>
              cases makes
              exact ⟨place, rest, index + 1, rfl, later⟩
          | escaped => cases makes
          | placeholder => cases makes
      | loop =>
          obtain ⟨makes, _⟩ := List.forall₂_cons.1 made
          cases makes

/-- The pieces of one text behind another are added as the blocks of both, up to their positions
and to the literal at the seam.
-/
theorem exists_foldlM_joined {pieces pieces' whole : List (Piece × Position)} {start nest : Nest}
    {blocks : Blocks} {index : Nat} (joined : Piece.Joined pieces pieces' whole)
    (folded : pieces.foldlM add start = .ok nest)
    (made
      : List.Forall₂ (fun piece => Piece.Makes piece.1) pieces' (blocks.tokensFrom index))
    : ∃ current,
        whole.foldlM add start = .ok ⟨nest.levels, current⟩
        ∧ ∀ entries,
            ((nest.current ++ blocks).visit entries).RefinesTo (current.visit entries) := by
  cases joined with
  | @seam front behind moved lead more place position same =>
      obtain ⟨place', rest, index, rfl, madeBehind⟩ := exists_ofLiteral_append made
      have madeMoved : List.Forall₂ (fun piece => Piece.Makes piece.1) moved
          (rest.tokensFrom index) := by
        have makes := List.forall₂_map_left_iff.2 madeBehind
        rw [← same] at makes
        exact List.forall₂_map_left_iff.1 makes
      obtain ⟨between, foldedFront, foldedLead⟩ := foldlM_append_eq_ok_iff.1 folded
      rw [foldlM_ofLiteral] at foldedLead
      cases foldedLead
      obtain ⟨rest', foldedMoved, _, sameRest⟩ := foldlM_of_makes madeMoved
        ⟨between.levels, between.current ++ Blocks.ofLiteral (lead ++ more) place⟩
      refine ⟨between.current ++ Blocks.ofLiteral (lead ++ more) place ++ rest', ?_, ?_⟩
      · exact foldlM_append_eq_ok_iff.2 ⟨between, foldedFront,
          foldlM_append_eq_ok_iff.2 ⟨_, foldlM_ofLiteral _ _ _, foldedMoved⟩⟩
      · intro entries
        have atSeam := Blocks.refinesTo_append
          (Blocks.refinesTo_ofLiteral_append lead more place place' entries)
          (Blocks.refinesTo_of_unplaced (sameRest 0) entries)
        have whole := Blocks.refinesTo_append (.refl (between.current.visit entries)) atSeam
        simpa only [Blocks.append_assoc] using whole

end Nest

/-- One text behind another is rendered to both texts, within the steps of both, if the first one
ends neither with an opening brace nor with a backslash.
-/
theorem renderTokens_append {first second : String} {tokens tokens' : Array Token} {root : Table}
    {budget budget' : Nat} {text text' : String} (tokenized : tokenize first = .ok tokens)
    (tokenized' : tokenize second = .ok tokens') (ends : Piece.EndsApart first.toList)
    (rendered : renderTokens tokens root budget = .ok text)
    (rendered' : renderTokens tokens' root budget' = .ok text')
    : ∃ all,
        tokenize (first ++ second) = .ok all
        ∧ renderTokens all root (budget + budget') = .ok (text ++ text') := by
  obtain ⟨blocks, folded, rfl⟩ := Nest.tokenize_eq_ok_iff.1 tokenized
  obtain ⟨pieces', scanned', made⟩ := forall₂_tokenize tokenized'
  obtain ⟨blocks', _, rfl⟩ := Nest.tokenize_eq_ok_iff.1 tokenized'
  obtain ⟨whole, joined, scanned⟩ := (Piece.toList_scan_eq_iff.1 rfl).exists_joined
    (Nest.closed_of_foldlM folded) ends scanned'
  obtain ⟨current, foldedWhole, refines⟩ := Nest.exists_foldlM_joined joined folded
    (made.imp fun _ _ makes => makes.1)
  refine ⟨(current.tokensFrom 0).toArray, Nest.tokenize_eq_ok_iff.2 ⟨current, ?_, rfl⟩, ?_⟩
  · rw [Nest.ofText, String.toList_append, Piece.toList_scan_eq_iff.2 scanned]
    exact foldedWhole
  · have gives := renderTokens_eq_ok_iff.1 rendered
    have gives' := renderTokens_eq_ok_iff.1 rendered'
    apply renderTokens_eq_ok_iff.2
    apply refines root
    rw [Blocks.visit_append]
    exact Visit.gives_andThen_iff.2 ⟨text, text', budget, budget', gives, gives', rfl, rfl⟩

/-- Literals on both sides of a seam are rendered as one, and the backslashes of the second text
are halved before its tag as they are without the first text.
-/
theorem renderTokens_append_literals
    : let tokens : Array Token := #[.placeholder ["n"] ⟨0, 1, 1⟩, .literal ":" ⟨5, 1, 6⟩]
      let tokens' : Array Token := #[.literal "-\\" ⟨0, 1, 1⟩, .placeholder ["n"] ⟨3, 1, 4⟩]
      let root : Table := [("n", .scalar (.string "v"))]
      tokenize "\x7b\x7bn\x7d\x7d:" = .ok tokens
        ∧ tokenize "-\\\\\x7b\x7bn\x7d\x7d" = .ok tokens'
        ∧ Piece.EndsApart "\x7b\x7bn\x7d\x7d:".toList
        ∧ renderTokens tokens root 2 = .ok "v:"
        ∧ renderTokens tokens' root 2 = .ok "-\\v"
        ∧ ∃ all,
            tokenize ("\x7b\x7bn\x7d\x7d:" ++ "-\\\\\x7b\x7bn\x7d\x7d") = .ok all
            ∧ renderTokens all root (2 + 2) = .ok ("v:" ++ "-\\v") := by
  intro tokens tokens' root
  have tokenized : tokenize "\x7b\x7bn\x7d\x7d:" = .ok tokens := by cbv
  have tokenized' : tokenize "-\\\\\x7b\x7bn\x7d\x7d" = .ok tokens' := by cbv
  have ends : Piece.EndsApart "\x7b\x7bn\x7d\x7d:".toList := ⟨by decide, by decide⟩
  have rendered : renderTokens tokens root 2 = .ok "v:" := by rfl
  have rendered' : renderTokens tokens' root 2 = .ok "-\\v" := by rfl
  exact ⟨tokenized, tokenized', ends, rendered, rendered',
    renderTokens_append tokenized tokenized' ends rendered rendered'⟩

end Stencil.Template
