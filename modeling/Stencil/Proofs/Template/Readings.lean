import Mathlib
import Stencil.Generate.Target
import Stencil.Proofs.Template.Visits
import Stencil.Proofs.Value.Restoring

/-! Templates cannot tell values apart that read alike. What a template gives against a context it
gives against every context that reads like it, and so against the one that comes back from the
plain data of its root.
-/

namespace Stencil.Template

open Value

-----------------------------------------------------------------------------------------
-- Looking up paths
-----------------------------------------------------------------------------------------

/-- Entries that read alike still do so behind a loop variable. -/
theorem readsAs_cons {entries entries' : Table} {item item' : Value}
    (reads : ReadsAs (.table entries) (.table entries')) (here : ReadsAs item item')
    (binding : String)
    : ReadsAs (.table ((binding, item) :: entries)) (.table ((binding, item') :: entries')) := by
  refine .table fun key => ?_
  rw [Table.lookup_entry, Table.lookup_entry]
  split
  · exact .some here
  · exact reads.member key

theorem rel_valueAt {entries entries' : Table} (reads : ReadsAs (.table entries) (.table entries'))
    (path : Path)
    : Option.Rel ReadsAs (valueAt entries path) (valueAt entries' path) := by
  cases path with
  | nil => exact .none
  | cons key path => exact reads.members (key :: path)

/-- Where a path leads to a scalar, it leads to one with the same text. -/
theorem exists_scalarAt {entries entries' : Table} {path : Path} {position : Position}
    {scalar : Scalar} (reads : ReadsAs (.table entries) (.table entries'))
    (found : scalarAt entries path position = .ok scalar)
    : ∃ scalar', scalarAt entries' path position = .ok scalar' ∧ scalar.text = scalar'.text := by
  simp only [scalarAt_eq_ok_iff] at found ⊢
  have both := rel_valueAt reads path
  rw [found] at both
  generalize valueAt entries' path = value at both
  cases both with
  | some same =>
      cases same with
      | @scalar s s' text => exact ⟨s', rfl, text⟩

/-- Where a path leads to a list, it leads to one whose items read alike. -/
theorem exists_itemsAt {entries entries' : Table} {path : Path} {position : Position}
    {items : List Value} (reads : ReadsAs (.table entries) (.table entries'))
    (found : itemsAt entries path position = .ok items)
    : ∃ items', itemsAt entries' path position = .ok items'
        ∧ List.Forall₂ ReadsAs items items' := by
  simp only [itemsAt_eq_ok_iff] at found ⊢
  have both := rel_valueAt reads path
  rw [found] at both
  generalize valueAt entries' path = value at both
  cases both with
  | some same =>
      cases same with
      | @list items items' each => exact ⟨items', rfl, each⟩

-----------------------------------------------------------------------------------------
-- Evaluations
-----------------------------------------------------------------------------------------

/-- Turns of a loop refine over items that read alike if each of them does, by induction on the
items.
-/
theorem Visit.RefinesTo.sequence_of_readsAs {turn turn' : Value → Visit}
    (h : ∀ item item', ReadsAs item item' → (turn item).RefinesTo (turn' item'))
    {items items' : List Value} (pairs : List.Forall₂ ReadsAs items items')
    : (Visit.sequence (items.map turn)).RefinesTo (Visit.sequence (items'.map turn')) := by
  induction pairs with
  | nil => exact .refl _
  | cons here _ ih => exact (h _ _ here).andThen ih

/-- A leaf gives the same text against entries that read alike. -/
theorem Leaf.refinesTo_of_readsAs {entries entries' : Table}
    (reads : ReadsAs (.table entries) (.table entries')) (first : Leaf)
    : (first.visit entries).RefinesTo (first.visit entries') := by
  cases first with
  | literal text position => exact .refl _
  | escaped text position => exact .refl _
  | placeholder path position =>
      rintro text steps ⟨written, covered⟩
      refine ⟨?_, covered⟩
      simp only [visit, Visit.one] at written ⊢
      cases found : scalarAt entries path position with
      | error cause =>
          rw [found] at written
          cases written
      | ok scalar =>
          obtain ⟨scalar', found', same⟩ := exists_scalarAt reads found
          rw [found] at written
          cases written
          rw [found', Except.map, same]

/-- Blocks give the same texts, in as many steps, against entries that read alike. By induction
over the blocks; the entries of a loop body read alike as the items do.
-/
theorem Blocks.refinesTo_of_readsAs {entries entries' : Table}
    (reads : ReadsAs (.table entries) (.table entries')) (blocks : Blocks)
    : (blocks.visit entries).RefinesTo (blocks.visit entries') := by
  induction blocks generalizing entries entries' with
  | done => exact .refl _
  | leaf first rest ih => exact (first.refinesTo_of_readsAs reads).andThen (ih reads)
  | loop path binding start body stop rest bodyIH ih =>
      intro text steps gives
      simp only [visit] at gives ⊢
      cases found : itemsAt entries path start with
      | error cause =>
          rw [found] at gives
          cases gives.1
      | ok items =>
          obtain ⟨items', found', each⟩ := exists_itemsAt reads found
          rw [found] at gives
          rw [found']
          have turns := Visit.RefinesTo.sequence_of_readsAs
            (fun item item' same => (bodyIH (readsAs_cons reads same binding)).andThen
              (.refl (.one stop (.ok "")))) each
          have whole := ((Visit.RefinesTo.refl (.one start (.ok ""))).andThen turns).andThen
            (ih reads)
          exact whole text steps gives

end Stencil.Template

namespace Stencil.Generate

open Value

/-- A template gives the same text, within the same budget, against contexts that read alike. -/
theorem renderText_of_readsAs {context other : Context}
    (reads : ReadsAs (.table context.root) (.table other.root)) {text result : String}
    {budget : Nat} (rendered : renderText text context budget = .ok result)
    : renderText text other budget = .ok result := by
  simp only [renderText] at rendered ⊢
  cases tokenized : Template.tokenize text with
  | error cause =>
      rw [tokenized] at rendered
      cases rendered
  | ok tokens =>
      rw [tokenized] at rendered
      obtain ⟨blocks, -, rfl⟩ := Template.Nest.tokenize_eq_ok_iff.1 tokenized
      cases given : Template.renderTokens (blocks.tokensFrom 0).toArray context.root budget with
      | error stop => simp [given] at rendered
      | ok written =>
          have gives := blocks.refinesTo_of_readsAs reads _ _
            (Template.renderTokens_eq_ok_iff.1 given)
          simp only [given] at rendered
          simp only [Template.renderTokens_eq_ok_iff.2 gives, rendered]

/-- A value with one entry per key and without floats that are safe integers makes a context, and
its plain data make one, too, that gives whatever the first one gives: every text of every template
within every budget.
-/
theorem renderText_restored {value : Value} (wellFormed : value.IsWellFormed)
    (noSafeFloat : value.HasNoSafeFloat) {context : Context}
    (made : Context.ofValue value = .ok context)
    : ∃ restored, Context.ofPlain value.toPlain = .ok restored
        ∧ ∀ text budget result, renderText text context budget = .ok result
          → renderText text restored budget = .ok result := by
  obtain ⟨back, converted, reads⟩ := value.exists_comesBack wellFormed noSafeFloat
  cases value with
  | scalar s => cases made
  | list items => cases made
  | table entries =>
      cases made
      cases reads with
      | @table entries entries' each =>
          refine ⟨⟨entries'⟩, by simp only [Context.ofPlain, converted, Context.ofValue], ?_⟩
          exact fun text budget result => renderText_of_readsAs (.table each)

/-- A date comes back as a text and an index as the first key, and a template that goes through all
entries gives the same text as before.
-/
theorem renderText_restored_date
    : let items (day : Scalar) : List Value :=
        [.scalar day, .scalar (.integer 100000000000000000000), .scalar (.float (.infinity true))]
      let value : Value :=
        .table
          [("xs", .list (items (.date ⟨2024, 2, 29⟩))),
            ("__proto__", .table [("n", .scalar (.boolean true))]), ("7", .scalar (.string "i"))]
      let restored : Context :=
        ⟨[("7", .scalar (.string "i")), ("xs", .list (items (.string "2024-02-29"))),
          ("__proto__", .table [("n", .scalar (.boolean true))])]⟩
      let text :=
        "\x7b\x7beach xs |x|\x7d\x7d\x7b\x7bx\x7d\x7d;\x7b\x7b/each\x7d\x7d\x7b\x7b__proto__.n\x7d\x7d\x7b\x7b7\x7d\x7d"
      value.IsWellFormed
        ∧ value.HasNoSafeFloat
        ∧ Context.ofPlain value.toPlain = .ok restored
        ∧ renderText text restored 12 = .ok "2024-02-29;100000000000000000000;-inf;truei" := by
  intro items value restored text
  have wellFormed : value.IsWellFormed := by decide +kernel
  have noSafeFloat : value.HasNoSafeFloat := by decide +kernel
  have converted : Context.ofPlain value.toPlain = .ok restored := by
    unfold value restored items
    rfl
  refine ⟨wellFormed, noSafeFloat, converted, ?_⟩
  obtain ⟨context, converted', gives⟩ := renderText_restored wellFormed noSafeFloat rfl
  cases converted.symm.trans converted'
  exact gives text 12 _ (by cbv)

end Stencil.Generate
