import Stencil.Proofs.Value.Restoring

/-! What plain data lose of a value. Dates come back as their texts, and floats that are safe integers
as these integers. All else comes back as it was: each digit of an integer, and each entry of a table
under its key, whatever the key and the order of the entries are.
-/

namespace Stencil

namespace Value

-----------------------------------------------------------------------------------------
-- What is kept of a value
-----------------------------------------------------------------------------------------

mutual

/-- A value with each scalar in it as plain data keep it. -/
def kept : Value → Value
  | .scalar s => .scalar s.kept
  | .list items => .list (keptItems items)
  | .table entries => .table (keptEntries entries)

/-- The items of a list, each with what is kept of it. -/
def keptItems : List Value → List Value
  | [] => []
  | item :: items => kept item :: keptItems items

/-- The entries of a table, each with its key and what is kept of it. -/
def keptEntries : List (String × Value) → List (String × Value)
  | [] => []
  | (key, item) :: entries => (key, kept item) :: keptEntries entries

end

theorem keptItems_eq_map (items : List Value) : keptItems items = items.map kept := by
  induction items with
  | nil => rfl
  | cons item items ih => rw [keptItems, List.map_cons, ih]

theorem lookup_keptEntries (entries : Table) (key : String)
    : (keptEntries entries).lookup key = (entries.lookup key).map kept := by
  induction entries with
  | nil => rfl
  | cons entry entries ih =>
      obtain ⟨first, item⟩ := entry
      rw [keptEntries, Table.lookup_entry, Table.lookup_entry, ih]
      split <;> rfl

-----------------------------------------------------------------------------------------
-- The same value up to the order of entries
-----------------------------------------------------------------------------------------

/-- Two values are the same as maps: equal scalars, lists with the same items in the same order, and
tables with the same entry under each key.
-/
inductive SameValue : Value → Value → Prop
  | scalar (s : Scalar) : SameValue (.scalar s) (.scalar s)
  | list {items items' : List Value} (each : List.Forall₂ SameValue items items')
    : SameValue (.list items) (.list items')
  | table {entries entries' : Table}
    (each : ∀ key, Option.Rel SameValue (entries.lookup key) (entries'.lookup key))
    : SameValue (.table entries) (.table entries')

/-- Where what is kept of the entries is the same under each key, it is the same of the table. -/
theorem SameValue.keptTable {entries backs : Table}
    (each : ∀ key, Option.Rel (fun item back => SameValue item.kept back)
      (entries.lookup key) (backs.lookup key))
    : SameValue (kept (.table entries)) (.table backs) := by
  rw [kept]
  refine .table fun key => ?_
  have here := each key
  rw [lookup_keptEntries]
  generalize entries.lookup key = entry at here ⊢
  generalize backs.lookup key = back at here ⊢
  cases here with
  | none => exact .none
  | some same => exact .some same

/-- What is kept of a value comes back from its plain data, by recursion over the value. -/
theorem exists_sameValue_kept (value : Value) (wellFormed : value.IsWellFormed)
    : ∃ back, ofPlain "" value.toPlain = .ok back ∧ SameValue value.kept back := by
  match value with
  | .scalar s => exact ⟨.scalar s.kept, by rw [toPlain, ofPlain_scalarToPlain], .scalar s.kept⟩
  | .list items =>
      obtain ⟨backs, converted, each⟩ := exists_ofPlain_list fun item member =>
        exists_sameValue_kept item ((forall_parts_list.1 wellFormed).2 item member)
      refine ⟨.list backs, converted, ?_⟩
      rw [kept, keptItems_eq_map]
      exact .list (List.forall₂_map_left_iff.2 each)
  | .table entries =>
      obtain ⟨distinct, wellFormed⟩ := forall_parts_table.1 wellFormed
      obtain ⟨backs, converted, each⟩ :=
        exists_ofPlain_table (R := fun item back => SameValue item.kept back) distinct
          fun entry member => exists_sameValue_kept entry.2 (wellFormed _ member)
      exact ⟨.table backs, converted, .keptTable each⟩
  termination_by value
  decreasing_by
    · have := List.sizeOf_lt_of_mem member
      simp only [list.sizeOf_spec]
      omega
    · have := List.sizeOf_lt_of_mem member
      obtain ⟨key, item⟩ := entry
      simp only [table.sizeOf_spec, Prod.mk.sizeOf_spec] at this ⊢
      omega

/-- Each value comes back from its plain data, its dates as texts and its floats that are safe
integers as integers. What comes back has one entry per key again.
-/
theorem ofPlain_toPlain {value : Value} (wellFormed : value.IsWellFormed)
    : ∃ back,
        ofPlain "" value.toPlain = .ok back
        ∧ back.IsWellFormed
        ∧ SameValue value.kept back := by
  obtain ⟨back, converted, same⟩ := value.exists_sameValue_kept wellFormed
  exact ⟨back, converted, isWellFormed_of_ofPlain _ converted, same⟩

/-- Keys that records put in another order, a key that names more than itself, a date, negative zero,
an infinity, and an integer that no number is.
-/
theorem ofPlain_toPlain_everyLoss
    : let value : Value :=
        .table
          [("__proto__", .list
              [.scalar (.date ⟨2024, 2, 29⟩), .scalar (.float (.finite true .zero)),
                .scalar (.float (.infinity true))]),
            ("constructor", .table [("10", .scalar (.boolean true)), ("9", .list [])]),
            ("7", .scalar (.integer 9007199254740993))]
      let kept : Value :=
        .table
          [("__proto__", .list
              [.scalar (.string "2024-02-29"), .scalar (.integer 0),
                .scalar (.float (.infinity true))]),
            ("constructor", .table [("10", .scalar (.boolean true)), ("9", .list [])]),
            ("7", .scalar (.integer 9007199254740993))]
      value.IsWellFormed
        ∧ ∃ back,
            ofPlain "" value.toPlain = .ok back ∧ back.IsWellFormed ∧ SameValue kept back := by
  intro value kept
  have wellFormed : value.IsWellFormed := by decide
  have zero : (Number.finite true .zero).toSafeInt? = some 0 := by decide +kernel
  have same : value.kept = kept := by
    have day : Date.text ⟨2024, 2, 29⟩ = "2024-02-29" := by decide
    simp only [value, kept, Value.kept, keptEntries, keptItems, Scalar.kept, zero, day]
    rfl
  exact ⟨wellFormed, same ▸ ofPlain_toPlain wellFormed⟩

end Value

end Stencil
