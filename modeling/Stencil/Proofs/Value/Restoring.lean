import Stencil.Proofs.Data.Merging
import Stencil.Proofs.Number.SafeIntegers

/-! Values turned into plain data and back. A date comes back as a text and the entries of a table
may come back in another order, but what comes back reads like the value did. That asks for tables
with one entry per key, as all values of plain data have them.
-/

namespace Stencil

/-- A scalar as it comes back from plain data: a date as its text, a float that is a safe integer
as that integer, and any other scalar as it was. Negative zero is the integer zero.
-/
def Scalar.kept : Scalar → Scalar
  | .string s => .string s
  | .integer n => .integer n
  | .float x =>
    match x.toSafeInt? with
    | some n => .integer n
    | none => .float x
  | .boolean b => .boolean b
  | .date d => .string d.text

namespace Value

open Outcome

-----------------------------------------------------------------------------------------
-- What stands in a value
-----------------------------------------------------------------------------------------

mutual

/-- A value and all that stands in it. -/
def parts : Value → List Value
  | .scalar s => [.scalar s]
  | .list items => .list items :: partsOfItems items
  | .table entries => .table entries :: partsOfEntries entries

/-- What stands in the items of a list. -/
def partsOfItems : List Value → List Value
  | [] => []
  | item :: items => parts item ++ partsOfItems items

/-- What stands in the entries of a table. -/
def partsOfEntries : List (String × Value) → List Value
  | [] => []
  | (_, item) :: entries => parts item ++ partsOfEntries entries

end

/-- The keys of a table; none of any other value. -/
def keys : Value → List String
  | .table entries => entries.map Prod.fst
  | _ => []

/-- Every table in a value has one entry per key. -/
def IsWellFormed (value : Value) : Prop := ∀ part ∈ value.parts, part.keys.Nodup

/-- The safe integer that a float is, if it is one. Negative zero is one. -/
def safeInt? : Value → Option Int
  | .scalar (.float x) => x.toSafeInt?
  | _ => none

/-- No float in a value is a safe integer. -/
def HasNoSafeFloat (value : Value) : Prop := ∀ part ∈ value.parts, part.safeInt? = none

instance (value : Value) : Decidable value.IsWellFormed :=
  inferInstanceAs (Decidable (∀ part ∈ value.parts, part.keys.Nodup))

instance (value : Value) : Decidable value.HasNoSafeFloat :=
  inferInstanceAs (Decidable (∀ part ∈ value.parts, part.safeInt? = none))

theorem partsOfItems_eq (items : List Value) : partsOfItems items = items.flatMap parts := by
  induction items with
  | nil => rfl
  | cons item items ih => rw [partsOfItems, ih, List.flatMap_cons]

theorem partsOfEntries_eq (entries : Table)
    : partsOfEntries entries = entries.flatMap fun entry => entry.2.parts := by
  induction entries with
  | nil => rfl
  | cons entry entries ih => rw [partsOfEntries, ih, List.flatMap_cons]

/-- What holds of all that stands in a list holds of the list and of all that stands in its items.
-/
theorem forall_parts_list {P : Value → Prop} {items : List Value}
    : (∀ part ∈ (Value.list items).parts, P part)
      ↔ P (.list items) ∧ ∀ item ∈ items, ∀ part ∈ item.parts, P part := by
  rw [parts, partsOfItems_eq, List.forall_mem_cons, List.forall_mem_flatMap]

/-- What holds of all that stands in a table holds of the table and of all that stands in its
entries.
-/
theorem forall_parts_table {P : Value → Prop} {entries : Table}
    : (∀ part ∈ (Value.table entries).parts, P part)
      ↔ P (.table entries) ∧ ∀ entry ∈ entries, ∀ part ∈ entry.2.parts, P part := by
  rw [parts, partsOfEntries_eq, List.forall_mem_cons, List.forall_mem_flatMap]

-----------------------------------------------------------------------------------------
-- Values that read alike
-----------------------------------------------------------------------------------------

/-- A value reads as another one: scalars have the same text, whatever their kinds are, lists have
items that do so in pairs, and tables have entries that do so under the same keys.
-/
inductive ReadsAs : Value → Value → Prop
  | scalar {s s' : Scalar} (text : s.text = s'.text) : ReadsAs (.scalar s) (.scalar s')
  | list {items items' : List Value} (each : List.Forall₂ ReadsAs items items')
    : ReadsAs (.list items) (.list items')
  | table {entries entries' : Table}
    (each : ∀ key, Option.Rel ReadsAs (entries.lookup key) (entries'.lookup key))
    : ReadsAs (.table entries) (.table entries')

theorem ReadsAs.member {value value' : Value} (h : ReadsAs value value') (key : String)
    : Option.Rel ReadsAs (value.member? key) (value'.member? key) := by
  cases h with
  | scalar text => exact .none
  | list each => exact .none
  | table each => exact each key

/-- Going down the same keys leads to values that read alike, or to nothing, by induction on the
keys.
-/
theorem ReadsAs.members {value value' : Value} (h : ReadsAs value value') (keys : List String)
    : Option.Rel ReadsAs (keys.foldlM member? value) (keys.foldlM member? value') := by
  induction keys generalizing value value' with
  | nil => exact .some h
  | cons key keys ih =>
      have first := h.member key
      rw [List.foldlM_cons, List.foldlM_cons]
      generalize value.member? key = next at first
      generalize value'.member? key = next' at first
      cases first with
      | none => exact .none
      | some reads => exact ih reads

-----------------------------------------------------------------------------------------
-- The value of the plain data of a value
-----------------------------------------------------------------------------------------

theorem toPlainItems_eq_map (items : List Value) : toPlainItems items = items.map toPlain := by
  induction items with
  | nil => rfl
  | cons item items ih => rw [toPlainItems, List.map_cons, ih]

theorem keys_toPlainEntries (entries : Table)
    : (toPlainEntries entries).map Prod.fst = entries.map Prod.fst := by
  induction entries with
  | nil => rfl
  | cons entry entries ih =>
      obtain ⟨key, item⟩ := entry
      rw [toPlainEntries, List.map_cons, List.map_cons, ih]

theorem lookup_toPlainEntries (entries : Table) (key : String)
    : (toPlainEntries entries).lookup key = (entries.lookup key).map toPlain := by
  induction entries with
  | nil => rfl
  | cons entry entries ih =>
      obtain ⟨first, item⟩ := entry
      rw [toPlainEntries, Plain.lookup_member, Table.lookup_entry, ih]
      split <;> rfl

/-- An integer becomes a number exactly where the number nearest to it is a safe integer. -/
theorem scalarToPlain_integer (n : Int)
    : scalarToPlain (.integer n)
      = match (Number.ofInt n).toSafeInt? with
        | some _ => .number (Number.ofInt n)
        | none => .integer n := by
  rw [Number.toSafeInt?_ofInt, scalarToPlain]
  split <;> rfl

/-- Scalars come back from their plain data, all digits of an integer with it. -/
theorem ofPlain_scalarToPlain (s : Scalar)
    : ofPlain "" (scalarToPlain s) = .ok (.scalar s.kept) := by
  cases s with
  | string text => rfl
  | boolean b => rfl
  | date d => rfl
  | float x =>
      cases whole : x.toSafeInt? <;> simp only [scalarToPlain, ofPlain, ofNumber, Scalar.kept, whole]
  | integer n =>
      rw [scalarToPlain_integer]
      cases nearest : (Number.ofInt n).toSafeInt? with
      | none => rfl
      | some m => rw [ofPlain, ofNumber, nearest, Number.eq_of_toSafeInt?_ofInt nearest, Scalar.kept]

theorem text_kept {s : Scalar} (noSafeFloat : (Value.scalar s).safeInt? = none)
    : s.text = s.kept.text := by
  cases s with
  | float x =>
      change x.toSafeInt? = none at noSafeFloat
      rw [Scalar.kept, noSafeFloat]
  | string _ | boolean _ | integer _ | date _ => rfl

/-- Values come back from their plain data and read as before. -/
def ComesBack (value restored : Value) : Prop :=
  ofPlain "" value.toPlain = .ok restored ∧ ReadsAs value restored

/-- A list comes back where its items do, and what holds of each item and its value holds of the
lists in pairs.
-/
theorem exists_ofPlain_list {R : Value → Value → Prop} {items : List Value}
    (each : ∀ item ∈ items, ∃ back, ofPlain "" item.toPlain = .ok back ∧ R item back)
    : ∃ backs,
        ofPlain "" (Value.list items).toPlain = .ok (.list backs) ∧ List.Forall₂ R items backs := by
  obtain ⟨backs, pairs⟩ := exists_forall₂ each
  refine ⟨backs, ?_, pairs.imp fun _ _ back => back.2⟩
  rw [toPlain, ofPlain, toPlainItems_eq_map, map_eq_ok_iff]
  refine ⟨backs, ofItems_eq_ok_iff.2 ?_, rfl⟩
  exact List.forall₂_map_left_iff.2 (pairs.imp fun _ _ back => back.1)

/-- A table comes back where its entries do: its record has the same keys in some order, each with
the plain datum of its entry. What holds of each entry and its value holds under all keys.
-/
theorem exists_ofPlain_table {R : Value → Value → Prop} {entries : Table}
    (distinct : (entries.map Prod.fst).Nodup)
    (each : ∀ entry ∈ entries, ∃ back, ofPlain "" entry.2.toPlain = .ok back ∧ R entry.2 back)
    : ∃ backs : Table,
        ofPlain "" (Value.table entries).toPlain = .ok (.table backs)
        ∧ ∀ key, Option.Rel R (entries.lookup key) (backs.lookup key) := by
  have nodup := (Data.enumerated_membersOf (toPlainEntries entries)).nodup
  have found (key : String)
      : (Plain.membersOf (toPlainEntries entries)).lookup key
        = (entries.lookup key).map toPlain := by
    have merged := Data.lookup_mergeInto
      (by rwa [keys_toPlainEntries] : ((toPlainEntries entries).map Prod.fst).Nodup) [] key
    rw [lookup_toPlainEntries, List.lookup_nil, Option.or_none] at merged
    exact merged
  have comesBack (key : String) (value : Value) (here : entries.lookup key = some value)
      : ∃ back, ofPlain "" value.toPlain = .ok back ∧ R value back := by
    obtain ⟨before, after, rfl, -⟩ := List.lookup_eq_some_iff.1 here
    exact each (key, value) (List.mem_append_right _ List.mem_cons_self)
  have converted : ∀ member ∈ Plain.membersOf (toPlainEntries entries),
      ∃ pair, MemberValue member pair := by
    rintro ⟨key, datum⟩ member
    have here := (Plain.lookup_eq_some_iff nodup).2 member
    rw [found, Option.map_eq_some_iff] at here
    obtain ⟨value, here, rfl⟩ := here
    obtain ⟨back, converted, -⟩ := comesBack key value here
    exact ⟨(key, back), rfl, converted⟩
  obtain ⟨pairs, rel⟩ := exists_forall₂ converted
  refine ⟨pairs, ?_, fun key => ?_⟩
  · have self : Table.ofPairs pairs = pairs :=
      Table.ofPairs_eq_self (by rwa [map_fst_eq rel])
    rw [toPlain, Plain.ofPairs, ofPlain, map_eq_ok_iff]
    exact ⟨pairs, ofMembers_eq_ok_iff.2 rel, by rw [self]⟩
  · have both := rel_lookup rel key
    rw [found] at both
    cases here : entries.lookup key with
    | none =>
        rw [here] at both
        generalize pairs.lookup key = entry at both ⊢
        cases both
        exact .none
    | some value =>
        obtain ⟨back, converted, related⟩ := comesBack key value here
        rw [here] at both
        generalize pairs.lookup key = entry at both ⊢
        cases both with
        | some converted' =>
            cases converted.symm.trans converted'
            exact .some related

/-- A value comes back from its plain data and reads as before, by recursion over the value. -/
theorem exists_comesBack (value : Value) (wellFormed : value.IsWellFormed)
    (noSafeFloat : value.HasNoSafeFloat)
    : ∃ restored, ComesBack value restored := by
  match value with
  | .scalar s =>
      have text := text_kept (noSafeFloat _ List.mem_cons_self)
      exact ⟨.scalar s.kept, by rw [toPlain, ofPlain_scalarToPlain], .scalar text⟩
  | .list items =>
      obtain ⟨backs, converted, reads⟩ := exists_ofPlain_list fun item member =>
        exists_comesBack item ((forall_parts_list.1 wellFormed).2 item member)
          ((forall_parts_list.1 noSafeFloat).2 item member)
      exact ⟨.list backs, converted, .list reads⟩
  | .table entries =>
      obtain ⟨distinct, wellFormed⟩ := forall_parts_table.1 wellFormed
      obtain ⟨backs, converted, reads⟩ := exists_ofPlain_table distinct fun ⟨key, item⟩ member =>
        exists_comesBack item (wellFormed _ member) ((forall_parts_table.1 noSafeFloat).2 _ member)
      exact ⟨.table backs, converted, .table reads⟩
  termination_by value
  decreasing_by
    · have := List.sizeOf_lt_of_mem member
      simp only [list.sizeOf_spec]
      omega
    · have := List.sizeOf_lt_of_mem member
      simp only [table.sizeOf_spec, Prod.mk.sizeOf_spec] at this ⊢
      omega

end Value

-----------------------------------------------------------------------------------------
-- The values of plain data
-----------------------------------------------------------------------------------------

namespace Table

theorem mem_put {table : Table} {key : String} {value : Value} {entry : String × Value}
    (member : entry ∈ table.put key value)
    : entry = (key, value) ∨ entry ∈ table := by
  induction table with
  | nil => exact .inl (List.mem_singleton.1 member)
  | cons first rest ih =>
      rw [put] at member
      split at member
      · exact (List.mem_cons.1 member).imp_right (List.mem_cons_of_mem _)
      · rcases List.mem_cons.1 member with rfl | later
        · exact .inr List.mem_cons_self
        · exact (ih later).imp_right (List.mem_cons_of_mem _)

/-- Setting a key leaves one entry per key, by induction on the table. -/
theorem nodup_put {table : Table} (distinct : (table.map Prod.fst).Nodup) (key : String)
    (value : Value)
    : ((table.put key value).map Prod.fst).Nodup := by
  induction table with
  | nil => exact List.nodup_singleton key
  | cons first rest ih =>
      obtain ⟨other, present⟩ := first
      obtain ⟨absent, distinctRest⟩ := List.nodup_cons.1 distinct
      rw [put]
      split
      · rename_i here
        subst here
        exact distinct
      · rename_i differs
        refine List.nodup_cons.2 ⟨fun again => ?_, ih distinctRest⟩
        obtain ⟨entry, member, same⟩ := List.mem_map.1 again
        rcases mem_put member with rfl | before
        · exact differs same.symm
        · exact absent (same ▸ List.mem_map_of_mem before)

/-- A table made from pairs has one entry per key, and all its entries are pairs. By induction on
the pairs from their end.
-/
theorem nodup_ofPairs (pairs : List (String × Value))
    : ((ofPairs pairs).map Prod.fst).Nodup ∧ ∀ entry ∈ ofPairs pairs, entry ∈ pairs := by
  induction pairs using List.reverseRecOn with
  | nil => exact ⟨List.nodup_nil, fun _ => id⟩
  | append_singleton pairs pair ih =>
      have last : ofPairs (pairs ++ [pair]) = (ofPairs pairs).put pair.1 pair.2 := by
        simp [ofPairs, List.foldl_append]
      rw [last]
      refine ⟨nodup_put ih.1 _ _, fun entry member => ?_⟩
      rcases mem_put member with rfl | before
      · exact List.mem_append_right _ List.mem_cons_self
      · exact List.mem_append_left _ (ih.2 entry before)

end Table

namespace Value

open Outcome

theorem isWellFormed_scalar (s : Scalar) : (Value.scalar s).IsWellFormed :=
  List.forall_mem_singleton.2 List.nodup_nil

/-- A table made from pairs is well-formed if the values of the pairs are. -/
theorem isWellFormed_ofPairs {pairs : List (String × Value)}
    (each : ∀ pair ∈ pairs, pair.2.IsWellFormed)
    : (Value.table (Table.ofPairs pairs)).IsWellFormed := by
  obtain ⟨distinct, only⟩ := Table.nodup_ofPairs pairs
  exact forall_parts_table.2 ⟨distinct, fun entry member => each entry (only entry member)⟩

/-- The value of plain data is well-formed, by recursion over the data. -/
theorem isWellFormed_of_ofPlain (data : Plain) {value : Value}
    (converted : ofPlain "" data = .ok value)
    : value.IsWellFormed := by
  match data with
  | .list items =>
      obtain ⟨values, each, rfl⟩ := map_eq_ok_iff.1 converted
      refine forall_parts_list.2 ⟨List.nodup_nil, fun value inValues => ?_⟩
      obtain ⟨item, member, itemConverted⟩ :=
        mem_of_forall₂ (ofItems_eq_ok_iff.1 each) inValues
      exact isWellFormed_of_ofPlain item itemConverted
  | .record members =>
      obtain ⟨pairs, each, rfl⟩ := map_eq_ok_iff.1 converted
      refine isWellFormed_ofPairs fun pair inPairs => ?_
      obtain ⟨⟨key, item⟩, member, -, itemConverted⟩ :=
        mem_of_forall₂ (ofMembers_eq_ok_iff.1 each) inPairs
      exact isWellFormed_of_ofPlain item itemConverted
  | .map entries =>
      obtain ⟨pairs, each, rfl⟩ := map_eq_ok_iff.1 converted
      refine isWellFormed_ofPairs fun pair inPairs => ?_
      obtain ⟨⟨key, item⟩, member, -, itemConverted⟩ :=
        mem_of_forall₂ (ofEntries_eq_ok_iff.1 each) inPairs
      exact isWellFormed_of_ofPlain item itemConverted
  | .text _ | .boolean _ | .integer _ | .number _ | .time (some _) =>
      cases converted
      exact isWellFormed_scalar _
  | .null | .absent | .bytes _ | .time none => cases converted
  | .foreign kind =>
      obtain ⟨rfl, rfl⟩ := ofForeign_eq_ok_iff.1 converted
      exact forall_parts_table.2 ⟨.nil, nofun⟩
  termination_by data
  decreasing_by
    · have := List.sizeOf_lt_of_mem member
      simp only [Plain.list.sizeOf_spec]
      omega
    · have := List.sizeOf_lt_of_mem member
      simp only [Plain.record.sizeOf_spec, Prod.mk.sizeOf_spec] at this ⊢
      omega
    · have := List.sizeOf_lt_of_mem member
      simp only [Plain.map.sizeOf_spec, Prod.mk.sizeOf_spec] at this ⊢
      omega

end Value

end Stencil
