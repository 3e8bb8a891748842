import Stencil.Context
import Stencil.Proofs.Template.Concatenation
import Stencil.Proofs.Template.FreeNames

/-! A loop renders its body once for every item of its list, as the body is rendered by itself
with the item as a root entry. The body is scanned between the two tags as it is by itself, and a
loop variable in front of the entries is read like a root entry of its name.
-/

namespace Stencil

open Template in
/-- A dotted text leads to a value in a context exactly if it is the text of a path that leads to it
among the root entries.
-/
theorem Context.get_eq_ok_iff {context : Context} {source : String} {value : Value}
    : context.get source = .ok value
      ↔ ∃ path : Path,
          path.WellFormed
          ∧ source = path.format
          ∧ valueAt context.root path = some value := by
  have resolves (path : Path)
      : (Scope.ofRoot context.root).resolve path none = .ok value
        ↔ valueAt context.root path = some value := by
    have same : (Scope.ofRoot context.root).value? path = valueAt context.root path :=
      value?_eq_valueAt [] context.root path
    rw [Scope.resolve, same]
    cases valueAt context.root path <;> simp
  constructor
  · intro got
    unfold Context.get at got
    split at got
    · rename_i path read
      obtain ⟨path_wf, spelled⟩ := Path.ofText?_eq_some_iff.1 read
      exact ⟨path, path_wf, String.toList_inj.1 spelled, (resolves path).1 got⟩
    · cases got
  · rintro ⟨path, path_wf, rfl, leads⟩
    have read : Path.parse? path.format = some path :=
      Path.ofText?_eq_some_iff.2 ⟨path_wf, rfl⟩
    rw [Context.get, read]
    exact (resolves path).2 leads

namespace Template

/-- The text of a loop over the list at a dotted path. -/
def loopText (source binding body : String) : String :=
  "\x7b\x7beach " ++ source ++ " |" ++ binding ++ "|\x7d\x7d" ++ body ++ "\x7b\x7b/each\x7d\x7d"

-----------------------------------------------------------------------------------------
-- The pieces of a loop
-----------------------------------------------------------------------------------------

namespace Piece

/-- A closed live tag at the start of a text is scanned by itself. -/
theorem scanned_liveTag {position : Position} {content rest : List Char}
    {pieces : List (Piece × Position)}
    (closes : Text.FirstPlace closing (content ++ closing) content [])
    (later : Scanned (position.after (throughTag [] content)) rest pieces)
    : Scanned position (opening ++ content ++ closing ++ rest)
        ((.tag content, position) :: pieces) := by
  have absent : ¬ opening <:+: [] := by decide
  have apart : false = false → ([] : List Char).getLast? ≠ some '\x7b' := by simp
  exact scanned_tag absent apart closes later

/-- A tag behind other pieces is joined to them as it is, up to its position. -/
theorem Joined.eq_concat {pieces whole : List (Piece × Position)} {content : List Char}
    {position : Position} (h : Joined pieces [(.tag content, position)] whole)
    : ∃ place, whole = pieces ++ [(.tag content, place)] := by
  generalize eq : [((.tag content, position) : Piece × Position)] = behind at h
  cases h with
  | @seam front behind moved lead more place position' same =>
      cases more with
      | nil =>
          obtain rfl : [(.tag content, position)] = behind := eq
          obtain ⟨⟨piece, place'⟩, rfl⟩ := List.length_eq_one_iff.1
            (by simpa using congrArg List.length same)
          obtain rfl : piece = .tag content := by simpa using same
          exact ⟨place', by simp⟩
      | cons c more => cases eq

/-- The pieces of a loop: its header, the pieces of its body and its end. The body is scanned as it
is by itself, since it neither takes anything from the end tag nor loses anything to it.
-/
theorem exists_scanned_loop {header body : List Char} {pieces : List (Piece × Position)}
    {position : Position} (closes : Text.FirstPlace closing (header ++ closing) header [])
    (scanned : Scanned position body pieces)
    (closed : ∀ piece ∈ pieces, ∀ escaped, piece.1 ≠ .unclosed escaped) (ends : EndsApart body)
    : ∃ moved place,
        moved.map Prod.fst = pieces.map Prod.fst
        ∧ Scanned .start
            (opening ++ header ++ closing ++ (body ++ (opening ++ Tag.loopEndWord ++ closing)))
            ((.tag header, .start) :: (moved ++ [(.tag Tag.loopEndWord, place)])) := by
  obtain ⟨moved, scannedBody, same⟩ :=
    scanned.relocate (Position.start.after (throughTag [] header))
  have closedMoved : ∀ piece ∈ moved, ∀ escaped, piece.1 ≠ .unclosed escaped := by
    intro piece member
    have inMap := List.mem_map_of_mem (f := Prod.fst) member
    rw [same] at inMap
    obtain ⟨original, inPieces, eq⟩ := List.mem_map.1 inMap
    exact eq ▸ closed original inPieces
  have nothing : Scanned (Position.start.after (throughTag [] Tag.loopEndWord)) [] [] :=
    .literal (by decide)
  have scannedEnd := scanned_liveTag (firstPlace_closing (by decide)) nothing
  rw [List.append_nil] at scannedEnd
  obtain ⟨whole, joined, scannedWhole⟩ := scannedBody.exists_joined closedMoved ends scannedEnd
  obtain ⟨place, rfl⟩ := joined.eq_concat
  exact ⟨moved, place, same, scanned_liveTag closes scannedWhole⟩

end Piece

/-- The text of a loop is its header, its body and its end. -/
theorem toList_loopText (path : Path) (binding body : String)
    : (loopText path.format binding body).toList
      = opening
        ++ (Tag.loopWord ++ [' '] ++ path.format.toList ++ [' ', '|'] ++ binding.toList ++ ['|'])
        ++ closing ++ (body.toList ++ (opening ++ Tag.loopEndWord ++ closing)) := by
  simp [loopText, opening, closing, Tag.loopWord, Tag.loopEndWord]

/-- A loop around a text is tokenized as one loop block around the blocks of the text, up to their
positions.
-/
theorem exists_tokenize_loopText {path : Path} {binding body : String} {tokens : Array Token}
    (path_wf : path.WellFormed) (isName : Path.isName binding = true)
    (tokenized : tokenize body = .ok tokens) (ends : Piece.EndsApart body.toList)
    : ∃ inside inLoop start stop,
        tokens = (Blocks.tokensFrom 0 inside).toArray
        ∧ (∀ entries, (inside.visit entries).RefinesTo (inLoop.visit entries))
        ∧ tokenize (loopText path.format binding body)
          = .ok ((Blocks.loop path binding start inLoop stop .done).tokensFrom 0).toArray := by
  obtain ⟨pieces, scanned, made⟩ := forall₂_tokenize tokenized
  obtain ⟨inside, folded, rfl⟩ := Nest.tokenize_eq_ok_iff.1 tokenized
  rw [Nest.ofText, Piece.toList_scan_eq_iff.2 scanned] at folded
  obtain ⟨moved, place, same, scannedLoop⟩ := Piece.exists_scanned_loop
    (firstPlace_closing (brace_not_mem_header path_wf isName)) scanned
    (Nest.closed_of_foldlM folded) ends
  have madeMoved : List.Forall₂ (fun piece => Piece.Makes piece.1) moved
      (inside.tokensFrom 0) := by
    have makes := List.forall₂_map_left_iff.2 (made.imp fun _ _ makes => makes.1)
    rw [← same] at makes
    exact List.forall₂_map_left_iff.1 makes
  obtain ⟨inLoop, foldedBody, _, sameTokens⟩ :=
    Nest.foldlM_of_makes madeMoved (Nest.empty.openLoop path binding .start)
  refine ⟨inside, inLoop, .start, place, rfl, Blocks.refinesTo_of_unplaced (sameTokens 0), ?_⟩
  apply Nest.tokenize_eq_ok_iff.2
  refine ⟨.loop path binding .start inLoop place .done, ?_, rfl⟩
  have opens : (Piece.tag _).Makes (.loopStart path binding ⟨0, 0⟩ .start) :=
    .loopStart (spelling_loopStart path_wf isName).written
  have closes : (Piece.tag Tag.loopEndWord).Makes (.loopEnd 0 .start) :=
    .loopEnd Tag.Spelling.loopEnd.written
  rw [Nest.ofText, toList_loopText, Piece.toList_scan_eq_iff.2 scannedLoop]
  exact Nest.foldlM_loop opens closes foldedBody

-----------------------------------------------------------------------------------------
-- The turns of a loop
-----------------------------------------------------------------------------------------

/-- Evaluations of items give their texts one after the other, within the steps of all of them. -/
theorem Visit.gives_sequence {turn : Value → Visit} {items : List Value}
    {given : List (Nat × String)}
    (each : List.Forall₂ (fun item given => (turn item).Gives given.2 given.1) items given)
    : (Visit.sequence (items.map turn)).Gives (String.join (given.map Prod.snd))
        (given.map Prod.fst).sum := by
  induction each with
  | nil => exact ⟨rfl, Nat.le_refl 0⟩
  | @cons item first items given gives _ ih =>
      exact gives_andThen_iff.2 ⟨first.2, _, first.1, _, gives, ih, by simp, by simp⟩

/-- A loop variable in front of the entries is read as the entry of its name is, once it is set. -/
theorem Blocks.visit_put (blocks : Blocks) (root : Table) (binding : String) (item : Value)
    : blocks.visit (root.put binding item) = blocks.visit ((binding, item) :: root) := by
  apply visit_congr
  intro name _
  rw [Table.lookup_put, Table.lookup_entry]

/-- A loop over the list that a dotted path leads to gives the texts that its body gives with each of
the items set as a root entry, one after the other. It takes one step for its start, and for each
item those of the body and one for its end.
-/
theorem renderTokens_loopText {context : Context} {source binding body : String}
    {tokens : Array Token} {items : List Value} {turns : List (Nat × String)}
    (got : context.get source = .ok (.list items)) (isName : Path.isName binding = true)
    (tokenized : tokenize body = .ok tokens) (ends : Piece.EndsApart body.toList)
    (each
      : List.Forall₂
          (fun item turn =>
            renderTokens tokens (context.root.put binding item) turn.1 = .ok turn.2)
          items turns)
    : ∃ all,
        tokenize (loopText source binding body) = .ok all
        ∧ renderTokens all context.root (1 + (turns.map fun turn => turn.1 + 1).sum)
          = .ok (String.join (turns.map Prod.snd)) := by
  obtain ⟨path, path_wf, rfl, leads⟩ := Context.get_eq_ok_iff.1 got
  obtain ⟨inside, inLoop, start, stop, rfl, refines, tokenizedLoop⟩ :=
    exists_tokenize_loopText path_wf isName tokenized ends
  refine ⟨_, tokenizedLoop, renderTokens_eq_ok_iff.2 ?_⟩
  let turn (item : Value) : Visit :=
    (inLoop.visit ((binding, item) :: context.root)).andThen (.one stop (.ok ""))
  have gives : List.Forall₂
      (fun item given => (turn item).Gives given.2 given.1) items
      (turns.map fun turn => (turn.1 + 1, turn.2)) := by
    refine List.forall₂_map_right_iff.2 (each.imp fun item given rendered => ?_)
    have byItself := renderTokens_eq_ok_iff.1 rendered
    rw [Blocks.visit_put] at byItself
    exact Visit.gives_andThen_iff.2
      ⟨given.2, "", given.1, 1, refines _ _ _ byItself, ⟨rfl, Nat.le_refl 1⟩, by simp, rfl⟩
  have turned : (Visit.sequence (items.map turn)).Gives (String.join (turns.map Prod.snd))
      (turns.map fun turn => turn.1 + 1).sum := by
    simpa only [List.map_map, Function.comp_def] using Visit.gives_sequence gives
  simp only [Blocks.visit, itemsAt_eq_ok_iff.2 leads]
  refine Visit.gives_andThen_iff.2
    ⟨String.join (turns.map Prod.snd), "", 1 + (turns.map fun turn => turn.1 + 1).sum, 0, ?_,
      ⟨rfl, Nat.le_refl 0⟩, by simp, rfl⟩
  exact Visit.gives_andThen_iff.2
    ⟨"", _, 1, _, ⟨rfl, Nat.le_refl 1⟩, turned, by simp, rfl⟩

/-- The body of a loop over two lists is a loop over each of them that takes the same variable. -/
theorem renderTokens_loopText_nested
    : let context : Context :=
        ⟨[("xs", .list [.list [.scalar (.string "a"), .scalar (.string "b")], .list []])]⟩
      let body := "\x7b\x7beach x |x|\x7d\x7d\x7b\x7bx\x7d\x7d\x7b\x7b/each\x7d\x7d;"
      let tokens : Array Token :=
        #[.loopStart ["x"] "x" ⟨1, 2⟩ ⟨0, 1, 1⟩, .placeholder ["x"] ⟨14, 1, 15⟩,
          .loopEnd 0 ⟨19, 1, 20⟩, .literal ";" ⟨28, 1, 29⟩]
      let inner : List Value := [.scalar (.string "a"), .scalar (.string "b")]
      context.get "xs" = .ok (.list [.list inner, .list []])
        ∧ Path.isName "x" = true
        ∧ tokenize body = .ok tokens
        ∧ Piece.EndsApart body.toList
        ∧ renderTokens tokens (context.root.put "x" (.list inner)) 6 = .ok "ab;"
        ∧ renderTokens tokens (context.root.put "x" (.list [])) 2 = .ok ";"
        ∧ ∃ all,
            tokenize (loopText "xs" "x" body) = .ok all
            ∧ renderTokens all context.root (1 + [6 + 1, 2 + 1].sum)
              = .ok (String.join ["ab;", ";"]) := by
  intro context body tokens inner
  have got : context.get "xs" = .ok (.list [.list inner, .list []]) := by cbv
  have isName : Path.isName "x" = true := by decide
  have tokenized : tokenize body = .ok tokens := by cbv
  have ends : Piece.EndsApart body.toList := ⟨by decide, by decide⟩
  have first : renderTokens tokens (context.root.put "x" (.list inner)) 6 = .ok "ab;" := by rfl
  have second : renderTokens tokens (context.root.put "x" (.list [])) 2 = .ok ";" := by rfl
  have turns : List.Forall₂
      (fun item (turn : Nat × String) =>
        renderTokens tokens (context.root.put "x" item) turn.1 = .ok turn.2)
      [.list inner, .list []] [(6, "ab;"), (2, ";")] :=
    .cons first (.cons second .nil)
  exact ⟨got, isName, tokenized, ends, first, second,
    renderTokens_loopText got isName tokenized ends turns⟩

end Template

end Stencil
