import Stencil.Data.Override
import Stencil.Context
import Stencil.Proofs.Plain.Members
import Stencil.Proofs.Value.Conversion

/-! Merging data records. The records can be merged in groups, down to the order in which the
members are enumerated, and the context of the merged record holds the value of the last datum of
each key; what a later record replaces has no part in it.
-/

namespace Stencil.Data

open Plain

variable {merged record : Record} {key : String} {value : Plain}

-----------------------------------------------------------------------------------------
-- Setting the members of a record
-----------------------------------------------------------------------------------------

theorem mergeInto_cons (merged : Record) (key : String) (value : Plain) (rest : Record)
    : mergeInto merged ((key, value) :: rest) = mergeInto (put key value merged) rest :=
  rfl

theorem membersOf_concat (pairs : List (String × Plain)) (pair : String × Plain)
    : membersOf (pairs ++ [pair]) = put pair.1 pair.2 (membersOf pairs) := by
  simp [membersOf, List.foldl_append]

/-- A member that has its place is set before or after the members of a record that does not have
its key. By induction on the record.
-/
theorem mergeInto_put_of_not_mem (absent : key ∉ record.map Prod.fst)
    (placed : (indexOf? key).isSome ∨ key ∈ merged.map Prod.fst)
    : mergeInto (put key value merged) record = put key value (mergeInto merged record) := by
  induction record generalizing merged with
  | nil => rfl
  | cons entry rest ih =>
      obtain ⟨other, item⟩ := entry
      simp only [List.map_cons, List.mem_cons, not_or] at absent
      have placedLater : (indexOf? key).isSome ∨ key ∈ (put other item merged).map Prod.fst :=
        placed.imp_right fun member => mem_keys_put.2 (.inr member)
      rw [mergeInto_cons, mergeInto_cons, ← put_comm absent.1 placed, ih absent.2 placedLater]

/-- Setting the members of a record with one more member is setting that member last. By induction
on the record, up to the place of the member.
-/
theorem mergeInto_put (enumerated : Enumerated record) (merged : Record) (key : String)
    (value : Plain)
    : mergeInto merged (put key value record) = put key value (mergeInto merged record) := by
  induction record generalizing merged with
  | nil => rfl
  | cons entry rest ih =>
      obtain ⟨first, present⟩ := entry
      obtain ⟨apart, later⟩ := List.pairwise_cons.1 enumerated
      rw [put]
      split
      · -- The key is that of the first member, and none of the others has it.
        rename_i here
        subst here
        have absent : first ∉ rest.map Prod.fst := by
          simp only [List.mem_map, not_exists, not_and]
          exact fun entry member same => (apart entry member).1 same.symm
        have present' : first ∈ (put first present merged).map Prod.fst :=
          mem_keys_put.2 (.inl rfl)
        rw [mergeInto_cons, mergeInto_cons, ← mergeInto_put_of_not_mem absent (.inr present'),
          put_put]
      · rename_i differs
        split
        · -- The key is an index in front of all members, so it keeps its place behind them too.
          rename_i before
          obtain ⟨index, isIndex, _⟩ := precedes_iff.1 before
          have absent : key ∉ ((first, present) :: rest).map Prod.fst := by
            simp only [List.map_cons, List.mem_cons, List.mem_map, not_or, not_exists, not_and]
            refine ⟨Ne.symm differs, fun entry member same => ?_⟩
            have behind := (apart entry member).2
            rw [same, before] at behind
            cases behind
          rw [mergeInto_cons, mergeInto_put_of_not_mem absent (.inl (by simp [isIndex]))]
        · rw [mergeInto_cons, mergeInto_cons, ih later]

theorem enumerated_membersOf (pairs : List (String × Plain)) : Enumerated (membersOf pairs) := by
  induction pairs using List.reverseRecOn with
  | nil => exact List.Pairwise.nil
  | append_singleton pairs pair ih =>
      rw [membersOf_concat]
      exact ih.put pair.1 pair.2

/-- Setting pairs one after the other is setting the members that they make. -/
theorem mergeInto_membersOf (merged : Record) (pairs : List (String × Plain))
    : mergeInto merged (membersOf pairs) = mergeInto merged pairs := by
  induction pairs using List.reverseRecOn with
  | nil => rfl
  | append_singleton pairs pair ih =>
      rw [membersOf_concat, mergeInto_put (enumerated_membersOf pairs), ih]
      simp [mergeInto, List.foldl_append]

/-- Records can be merged in groups, and the merged records again. -/
theorem merge_append_eq (records more : List Record)
    : merge (records ++ more) = merge [merge records, merge more] := by
  have front : mergeInto [] (merge records) = merge records := by
    rw [merge_eq_membersOf]
    exact mergeInto_membersOf [] records.flatten
  calc merge (records ++ more)
      = mergeInto (merge records) more.flatten := by
        simp only [merge_eq_membersOf, membersOf, mergeInto, List.flatten_append, List.foldl_append]
    _ = mergeInto (merge records) (merge more) := by
        rw [merge_eq_membersOf more, mergeInto_membersOf]
    _ = merge [merge records, merge more] := by
        conv => lhs; rw [← front]
        rfl

/-- The names of merged records stand in the order in which they first came. -/
theorem names_membersOf (pairs : List (String × Plain))
    : names (membersOf pairs) = (names pairs).eraseDups := by
  induction pairs using List.reverseRecOn with
  | nil => rfl
  | append_singleton pairs pair ih =>
      obtain ⟨key, value⟩ := pair
      have whole : names (pairs ++ [(key, value)])
          = names pairs ++ if (indexOf? key).isNone then [key] else [] := by
        simp only [names, List.map_append, List.filter_append, List.map_cons, List.map_nil,
          List.filter_cons, List.filter_nil]
      rw [membersOf_concat, whole]
      cases isName : (indexOf? key).isNone with
      | false =>
          rw [names_put_of_isSome (by simpa using isName), ih]
          simp
      | true =>
          rw [names_put_of_isNone isName, ih, if_pos rfl, List.eraseDups_append]
          by_cases there : key ∈ names pairs
          · simp [there, List.removeAll]
          · simp [there, List.removeAll, List.eraseDups_cons]

-----------------------------------------------------------------------------------------
-- The last datum of a key
-----------------------------------------------------------------------------------------

/-- The datum that a key has in the last one of the records that have it. -/
def last? (key : String) : List Record → Option Plain
  | [] => none
  | record :: later => (last? key later).or (record.lookup key)

/-- The members of a record replace those of before, by induction on the record. -/
theorem lookup_mergeInto (distinct : (record.map Prod.fst).Nodup) (merged : Record)
    (name : String)
    : (mergeInto merged record).lookup name = (record.lookup name).or (merged.lookup name) := by
  induction record generalizing merged with
  | nil => rfl
  | cons entry rest ih =>
      obtain ⟨key, value⟩ := entry
      obtain ⟨absent, distinctRest⟩ := List.nodup_cons.1 distinct
      rw [mergeInto_cons, ih distinctRest, lookup_put, lookup_member]
      split
      · rename_i here
        subst here
        rw [lookup_eq_none_iff.2 absent]
        rfl
      · rfl

/-- Merged records have the last datum of each key, by induction on the records. -/
theorem lookup_merge {records : List Record}
    (distinct : ∀ record ∈ records, (record.map Prod.fst).Nodup) (name : String)
    : (merge records).lookup name = last? name records := by
  suffices h : ∀ merged : Record,
      (records.foldl mergeInto merged).lookup name = (last? name records).or (merged.lookup name) by
    simpa [merge] using h []
  induction records with
  | nil => exact fun merged => rfl
  | cons record later ih =>
      rw [List.forall_mem_cons] at distinct
      intro merged
      rw [List.foldl_cons, ih distinct.2, lookup_mergeInto distinct.1, last?, Option.or_assoc]

/-- A key has a last datum exactly if one of the records has the key. -/
theorem isSome_last? {records : List Record} {name : String}
    : (last? name records).isSome ↔ ∃ record ∈ records, name ∈ record.map Prod.fst := by
  induction records with
  | nil => simp [last?]
  | cons record later ih =>
      rw [last?, Option.isSome_or, Bool.or_eq_true, ih, isSome_lookup, List.exists_mem_cons_iff]
      exact or_comm

-----------------------------------------------------------------------------------------
-- The context of a record
-----------------------------------------------------------------------------------------

/-- The context of a record has the members of the record for entries, each with its value. -/
theorem ofPlain_record_eq_ok_iff {context : Context} (distinct : (record.map Prod.fst).Nodup)
    : Context.ofPlain (.record record) = .ok context
      ↔ List.Forall₂ Value.MemberValue record context.root := by
  have self {pairs : List (String × Value)} (each : List.Forall₂ Value.MemberValue record pairs)
      : Table.ofPairs pairs = pairs :=
    Table.ofPairs_eq_self (by rwa [Value.map_fst_eq each])
  rw [Context.ofPlain, Value.ofPlain]
  constructor
  · intro converted
    cases members : Value.ofMembers "" record with
    | error cause =>
        rw [members] at converted
        cases converted
    | ok pairs =>
        have each := Value.ofMembers_eq_ok_iff.1 members
        rw [members] at converted
        cases converted
        rwa [self each]
  · intro each
    rw [Value.ofMembers_eq_ok_iff.2 each]
    simp [Except.map, Context.ofValue, self each]

/-- A record has a context exactly if nothing unsupported stands in its members. -/
theorem exists_context_iff
    : (∃ context, Context.ofPlain (.record record) = .ok context)
      ↔ ∀ entry ∈ record, ¬ entry.2.HasUnsupported := by
  have converts : (∃ context, Context.ofPlain (.record record) = .ok context)
      ↔ ∃ value, Value.ofPlain "" (.record record) = .ok value := by
    rw [Context.ofPlain, Value.ofPlain]
    cases Value.ofMembers "" record <;> simp [Except.map, Context.ofValue]
  rw [converts, Value.exists_ofPlain_iff, hasUnsupported_record_iff]
  simp only [not_exists, not_and]

/-- Merged records have each key once, with the last datum of the key. -/
theorem mem_merge_iff {records : List Record}
    (distinct : ∀ record ∈ records, (record.map Prod.fst).Nodup) {key : String} {datum : Plain}
    : (key, datum) ∈ merge records ↔ last? key records = some datum := by
  have nodup : ((merge records).map Prod.fst).Nodup := by
    rw [merge_eq_membersOf]
    exact (enumerated_membersOf _).nodup
  rw [← lookup_eq_some_iff nodup, lookup_merge distinct]

/-- The context of merged records exists exactly if nothing unsupported stands in the last datum of
any key, and it has the keys of all the records, each with the value of its last datum. Merging the
records of two lists is merging what either list is merged to: the members are the same, in the same
order, which is that of enumeration with the names as they first came.
-/
theorem context_merge (records more : List Record)
    (distinct : ∀ record ∈ records, (record.map Prod.fst).Nodup)
    : ((∃ context, Context.ofPlain (.record (merge records)) = .ok context)
        ↔ ∀ key datum, last? key records = some datum → ¬ datum.HasUnsupported)
      ∧ (∀ context, Context.ofPlain (.record (merge records)) = .ok context
          → (∀ key, key ∈ context.root.map Prod.fst
              ↔ ∃ record ∈ records, key ∈ record.map Prod.fst)
            ∧ ∀ key,
                Option.Rel (fun value datum => Value.ofPlain "" datum = .ok value)
                  (context.root.lookup key) (last? key records))
      ∧ merge (records ++ more) = merge [merge records, merge more]
      ∧ Enumerated (merge records)
      ∧ names (merge records) = (names records.flatten).eraseDups := by
  have enumerated : Enumerated (merge records) := by
    rw [merge_eq_membersOf]
    exact enumerated_membersOf _
  refine ⟨?_, ?_, merge_append_eq records more, enumerated, ?_⟩
  · rw [exists_context_iff]
    constructor
    · intro supported key datum survives
      exact supported (key, datum) ((mem_merge_iff distinct).2 survives)
    · intro supported entry member
      exact supported entry.1 entry.2 ((mem_merge_iff distinct).1 member)
  · intro context converted
    have each := (ofPlain_record_eq_ok_iff enumerated.nodup).1 converted
    refine ⟨fun key => ?_, fun key => ?_⟩
    · rw [Value.map_fst_eq each, ← isSome_lookup, lookup_merge distinct, isSome_last?]
    · rw [← lookup_merge distinct]
      exact Value.rel_lookup each key
  · rw [merge_eq_membersOf, names_membersOf]

/-- A null that a later record replaces has no part in the context; one that is left prevents it.
The indexes are enumerated first.
-/
theorem context_merge_replaced
    : let records : List Record :=
        [[("10", .text "ten"), ("b", .null)], [("b", .boolean true), ("2", .text "two")]]
      let more : List Record := [[("b", .null)]]
      (∀ record ∈ records, (record.map Prod.fst).Nodup)
        ∧ (merge records).map Prod.fst = ["2", "10", "b"]
        ∧ (∃ context, Context.ofPlain (.record (merge records)) = .ok context)
        ∧ (∀ record ∈ records ++ more, (record.map Prod.fst).Nodup)
        ∧ ¬ ∃ context, Context.ofPlain (.record (merge (records ++ more))) = .ok context := by
  intro records more
  have distinct : ∀ record ∈ records ++ more, (record.map Prod.fst).Nodup := by
    decide
  have fewer : ∀ record ∈ records, (record.map Prod.fst).Nodup :=
    fun record member => distinct record (List.mem_append_left _ member)
  refine ⟨fewer, rfl, ⟨⟨_⟩, rfl⟩, distinct, fun converted => ?_⟩
  have supported := (context_merge (records ++ more) [] distinct).1.1 converted "b" .null rfl
  exact supported (.inl ⟨.null, .here, trivial⟩)

end Stencil.Data
