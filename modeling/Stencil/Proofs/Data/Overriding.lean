import Stencil.Data.Override
import Stencil.Proofs.Plain.Members

/-! Overrides set the text at their paths and nothing else. An override goes through the tables on
its path, makes those that are missing, and leaves what stands at every other path as it was.
-/

namespace Stencil

namespace Plain

/-- What stands at a path, followed through records. -/
def at? : Path → Plain → Option Plain
  | [], datum => some datum
  | key :: rest, .record members => (members.lookup key).bind (at? rest)
  | _ :: _, _ => none

/-- A datum that an override can go through: a record, or nothing that a record can replace. -/
def IsPassable : Plain → Prop
  | .absent => True
  | .record _ => True
  | _ => False

end Plain

namespace Data

open Plain

variable {whole value key name : String} {path front other : Path}
  {record inner made result : Record}

-----------------------------------------------------------------------------------------
-- One step along a path
-----------------------------------------------------------------------------------------

theorem at?_cons (key : String) (rest : Path) (record : Record)
    : (Plain.record record).at? (key :: rest) = (record.lookup key).bind (at? rest) :=
  rfl

/-- Past a member that has been set, a path leads into the datum that was set. -/
theorem at?_put (key : String) (value : Plain) (record : Record) (rest : Path)
    : (Plain.record (put key value record)).at? (key :: rest) = value.at? rest := by
  rw [at?_cons, lookup_put, if_pos rfl, Option.bind_some]

theorem at?_put_of_ne (differ : name ≠ key) (value : Plain) (record : Record) (rest : Path)
    : (Plain.record (put key value record)).at? (name :: rest)
      = (Plain.record record).at? (name :: rest) := by
  rw [at?_cons, lookup_put, if_neg differ, at?_cons]

/-- An override goes on in the table under a key, or in an empty one where nothing is. -/
theorem tableUnder_eq_some_iff
    : tableUnder record key = some inner
      ↔ record.lookup key = some (.record inner)
        ∨ inner = [] ∧ (record.lookup key = none ∨ record.lookup key = some .absent) := by
  unfold tableUnder
  generalize record.lookup key = datum?
  split <;> simp_all [eq_comm]

/-- An override is stopped by a datum that is not passable. -/
theorem tableUnder_eq_none_iff
    : tableUnder record key = none
      ↔ ∃ datum, record.lookup key = some datum ∧ ¬ datum.IsPassable := by
  unfold tableUnder
  generalize record.lookup key = datum?
  split <;> simp_all [IsPassable]

/-- Below a key that an override goes through, paths lead to what stands in its table. -/
theorem at?_of_tableUnder (found : tableUnder record key = some inner) (nonempty : other ≠ [])
    : (Plain.record record).at? (key :: other) = (Plain.record inner).at? other := by
  obtain ⟨first, rest, rfl⟩ := List.exists_cons_of_ne_nil nonempty
  rw [at?_cons]
  rcases tableUnder_eq_some_iff.1 found with there | ⟨rfl, missing | missing⟩
  · rw [there, Option.bind_some]
  · rw [missing]
    rfl
  · rw [missing]
    rfl

-----------------------------------------------------------------------------------------
-- What setting a text at a path does
-----------------------------------------------------------------------------------------

/-- A record after a text has been set at a path: under the last key stands the text, and under
each key before it the table it had, or a new one, with the text set at the rest of the path.
-/
inductive SetsAt (value : String) : Path → Record → Record → Prop
  | last {key : String} {record : Record} : SetsAt value [key] record (put key (.text value) record)
  | inside {key : String} {rest : Path} {record inner made : Record}
    (found : tableUnder record key = some inner) (set : SetsAt value rest inner made)
    : SetsAt value (key :: rest) record (put key (.record made) record)

/-- The key of a path at which an override of a record is stopped. -/
inductive StopsAt (key : String) : Path → Record → Prop
  | here {rest : Path} {record : Record} (stopped : tableUnder record key = none)
    (more : rest ≠ [])
    : StopsAt key (key :: rest) record
  | inside {first : String} {rest : Path} {record inner : Record}
    (found : tableUnder record first = some inner) (stops : StopsAt key rest inner)
    : StopsAt key (first :: rest) record

/-- Setting a text at a path succeeds, or it stops at a key. By the recursion of the definition. -/
theorem setAt_cases (whole value : String) (nonempty : path ≠ []) (record : Record)
    : (∃ result, setAt whole value path record = .ok result ∧ SetsAt value path record result)
      ∨ ∃ key,
          setAt whole value path record = .error (.blockedOverride whole key)
          ∧ StopsAt key path record := by
  fun_induction setAt whole value path record with
  | case1 => exact (nonempty rfl).elim
  | case2 key record => exact .inl ⟨_, rfl, .last⟩
  | case3 key rest record more stopped => exact .inr ⟨key, rfl, .here stopped more⟩
  | case4 key rest record more inner found made eq ih =>
      rcases ih more with ⟨result, eq', set⟩ | ⟨other, failed, _⟩
      · cases eq.symm.trans eq'
        exact .inl ⟨_, rfl, .inside found set⟩
      · cases eq.symm.trans failed
  | case5 key rest record more inner found cause eq ih =>
      rcases ih more with ⟨result, eq', _⟩ | ⟨other, failed, stops⟩
      · cases eq.symm.trans eq'
      · cases eq.symm.trans failed
        exact .inr ⟨other, rfl, .inside found stops⟩

/-- A path that an override can go along: whatever stands before its end is passable. -/
def IsClear (path : Path) (record : Record) : Prop :=
  ∀ front, front <+: path → front ≠ path
    → ∀ datum, (Plain.record record).at? front = some datum → datum.IsPassable

/-- The beginnings of a path other than itself, the empty one first. -/
theorem proper_prefix_cons {front rest : Path} {key : String} (before : front <+: key :: rest)
    (differ : front ≠ key :: rest)
    : front = [] ∨ ∃ more, front = key :: more ∧ more <+: rest ∧ more ≠ rest := by
  rcases List.prefix_cons_iff.1 before with rfl | ⟨more, rfl, within⟩
  · exact .inl rfl
  · exact .inr ⟨more, rfl, within, fun same => differ (by rw [same])⟩

/-- A text is only set along a clear path, by induction on the tables it is set in. -/
theorem SetsAt.isClear (set : SetsAt value path record result) : IsClear path record := by
  induction set with
  | last =>
      intro front before differ datum there
      rcases proper_prefix_cons before differ with rfl | ⟨more, rfl, within, differ⟩
      · cases there
        trivial
      · exact (differ (List.prefix_nil.1 within)).elim
  | @inside key rest record inner made found set ih =>
      intro front before differ datum there
      rcases proper_prefix_cons before differ with rfl | ⟨more, rfl, within, differ⟩
      · cases there
        trivial
      · by_cases last : more = []
        · subst last
          rcases tableUnder_eq_some_iff.1 found with is | ⟨_, is | is⟩ <;>
            rw [at?_cons, is] at there <;> cases there <;> trivial
        · rw [at?_of_tableUnder found last] at there
          exact ih more within differ datum there

/-- An override stops at a datum on its path that is not passable, by induction on the tables
before.
-/
theorem StopsAt.exists_datum (stops : StopsAt key path record)
    : ∃ front rest datum,
        path = front ++ key :: rest
        ∧ rest ≠ []
        ∧ (Plain.record record).at? (front ++ [key]) = some datum
        ∧ ¬ datum.IsPassable := by
  induction stops with
  | @here rest record stopped more =>
      obtain ⟨datum, there, notPassable⟩ := tableUnder_eq_none_iff.1 stopped
      refine ⟨[], rest, datum, rfl, more, ?_, notPassable⟩
      rw [List.nil_append, at?_cons, there]
      rfl
  | @inside first rest record inner found _ ih =>
      obtain ⟨front, behind, datum, rfl, more, there, notPassable⟩ := ih
      refine ⟨first :: front, behind, datum, rfl, more, ?_, notPassable⟩
      rw [List.cons_append, at?_of_tableUnder found (by simp), there]

/-- No override stops on a clear path. -/
theorem StopsAt.not_isClear (stops : StopsAt key path record) : ¬ IsClear path record := by
  obtain ⟨front, rest, datum, rfl, more, there, notPassable⟩ := stops.exists_datum
  intro clear
  refine notPassable (clear (front ++ [key]) ⟨rest, by simp⟩ ?_ datum there)
  simpa using more.symm

-----------------------------------------------------------------------------------------
-- What stands at the paths of a record after a text has been set
-----------------------------------------------------------------------------------------

/-- The path leads to the text. -/
theorem SetsAt.at?_path (set : SetsAt value path record result)
    : (Plain.record result).at? path = some (.text value) := by
  induction set with
  | last => rw [at?_put, at?]
  | inside _ _ ih => rw [at?_put, ih]

/-- Before its end, the path leads to tables. -/
theorem SetsAt.at?_front (set : SetsAt value path record result) (before : front <+: path)
    (differ : front ≠ path)
    : ∃ members, (Plain.record result).at? front = some (.record members) := by
  induction set generalizing front with
  | last =>
      rcases proper_prefix_cons before differ with rfl | ⟨more, rfl, within, differ⟩
      · exact ⟨_, rfl⟩
      · exact (differ (List.prefix_nil.1 within)).elim
  | inside _ _ ih =>
      rcases proper_prefix_cons before differ with rfl | ⟨more, rfl, within, differ⟩
      · exact ⟨_, rfl⟩
      · rw [at?_put]
        exact ih within differ

/-- Where neither of two paths goes on from the other, setting a text at one of them leaves what
stands at the other. By induction on the tables that the text is set in.
-/
theorem SetsAt.at?_of_apart (set : SetsAt value path record result) (notBelow : ¬ path <+: other)
    (notAbove : ¬ other <+: path)
    : (Plain.record result).at? other = (Plain.record record).at? other := by
  induction set generalizing other with
  | @last key record =>
      obtain _ | ⟨name, rest⟩ := other
      · exact (notAbove List.nil_prefix).elim
      · have differ : name ≠ key := by
          rintro rfl
          exact notBelow (List.prefix_append [name] rest)
        exact at?_put_of_ne differ _ record rest
  | @inside key more record inner made found set ih =>
      obtain _ | ⟨name, rest⟩ := other
      · exact (notAbove List.nil_prefix).elim
      · by_cases same : name = key
        · subst same
          rw [List.prefix_cons_inj] at notBelow notAbove
          have nonempty : rest ≠ [] := by
            rintro rfl
            exact notAbove List.nil_prefix
          rw [at?_put, ih notBelow notAbove, at?_of_tableUnder found nonempty]
        · -- The paths part here.
          exact at?_put_of_ne same _ record rest

/-- The tables along the path have no keys but those they had and the next key of the path. -/
theorem SetsAt.keys_along {rest : Path} {members : Record}
    (set : SetsAt value path record result) (along : path = front ++ key :: rest)
    (there : (Plain.record result).at? front = some (.record members))
    (member : name ∈ members.map Prod.fst)
    : name = key
      ∨ ∃ before,
          (Plain.record record).at? front = some (.record before)
          ∧ name ∈ before.map Prod.fst := by
  induction set generalizing front with
  | @last first record =>
      obtain ⟨rfl, along⟩ | ⟨_, _, impossible⟩ := List.cons_eq_append_iff.1 along
      · cases along
        cases there
        exact (mem_keys_put.1 member).imp_right fun member => ⟨record, rfl, member⟩
      · simp at impossible
  | @inside first more record inner made found set ih =>
      obtain ⟨rfl, along⟩ | ⟨front, rfl, onward⟩ := List.cons_eq_append_iff.1 along
      · cases along
        cases there
        exact (mem_keys_put.1 member).imp_right fun member => ⟨record, rfl, member⟩
      · rw [at?_put] at there
        refine (ih onward there).imp_right ?_
        rintro ⟨before, there, member⟩
        refine ⟨before, ?_, member⟩
        by_cases last : front = []
        · subst last
          cases there
          rcases tableUnder_eq_some_iff.1 found with is | ⟨rfl, _⟩
          · rw [at?_cons, is]
            rfl
          · -- A table that was made had no keys before.
            cases member
        · rw [at?_of_tableUnder found last, there]

-----------------------------------------------------------------------------------------
-- Overrides
-----------------------------------------------------------------------------------------

theorem applyOverrides_singleton (record : Record) (override : Override)
    : applyOverrides record [override] = override.apply record := by
  simp [applyOverrides]

theorem Override.setsAt {override : Override} (nonempty : override.path ≠ [])
    (applied : override.apply record = .ok result)
    : SetsAt override.value override.path record result := by
  rcases setAt_cases override.path.format override.value nonempty record with
    ⟨made, eq, set⟩ | ⟨key, eq, _⟩
  · cases eq.symm.trans applied
    exact set
  · cases eq.symm.trans applied

/-- However many overrides are applied, what stands apart from all their paths is as before. By
induction on the overrides.
-/
theorem at?_applyOverrides_of_apart {overrides : List Override}
    (applied : applyOverrides record overrides = .ok result)
    (notBelow : ∀ override ∈ overrides, ¬ override.path <+: other)
    (notAbove : ∀ override ∈ overrides, ¬ other <+: override.path)
    : (Plain.record result).at? other = (Plain.record record).at? other := by
  induction overrides generalizing record with
  | nil =>
      cases applied
      rfl
  | cons override overrides ih =>
      rw [List.forall_mem_cons] at notBelow notAbove
      have nonempty : override.path ≠ [] := by
        intro empty
        exact notBelow.1 (empty ▸ List.nil_prefix)
      cases eq : override.apply record with
      | error cause =>
          rw [applyOverrides, List.foldlM_cons, eq] at applied
          cases applied
      | ok middle =>
          rw [applyOverrides, List.foldlM_cons, eq] at applied
          rw [ih applied notBelow.2 notAbove.2,
            (Override.setsAt nonempty eq).at?_of_apart notBelow.1 notAbove.1]

/-- An override succeeds exactly if its path is clear. Then the path leads to the text, and to a
table at each place before; paths of which neither goes on from the other lead to what they led to;
and the tables along the path have no keys but those they had and the next key of the path.
Otherwise a datum on the path is no table, and the complaint names the whole path.
-/
theorem applyOverrides_setsOnly (record : Record) (override : Override)
    (nonempty : override.path ≠ [])
    : ((∃ result, applyOverrides record [override] = .ok result) ↔ IsClear override.path record)
      ∧ (∀ result, applyOverrides record [override] = .ok result
          → (Plain.record result).at? override.path = some (.text override.value)
            ∧ (∀ front, front <+: override.path → front ≠ override.path
                → ∃ members, (Plain.record result).at? front = some (.record members))
            ∧ (∀ other, ¬ override.path <+: other → ¬ other <+: override.path
                → (Plain.record result).at? other = (Plain.record record).at? other)
            ∧ ∀ front key rest members name,
                override.path = front ++ key :: rest
                → (Plain.record result).at? front = some (.record members)
                → name ∈ members.map Prod.fst
                → name = key
                  ∨ ∃ before,
                      (Plain.record record).at? front = some (.record before)
                      ∧ name ∈ before.map Prod.fst)
      ∧ ∀ cause, applyOverrides record [override] = .error cause
          → ∃ front key rest datum,
              override.path = front ++ key :: rest
              ∧ rest ≠ []
              ∧ (Plain.record record).at? (front ++ [key]) = some datum
              ∧ ¬ datum.IsPassable
              ∧ cause.diagnostic
                = ⟨.config, "C004",
                    "Cannot set '" ++ override.path.format ++ "': '" ++ key ++ "' is not a table",
                    .fields [("path", .text override.path.format)]⟩ := by
  rw [applyOverrides_singleton]
  rcases setAt_cases override.path.format override.value nonempty record with
    ⟨result, eq, set⟩ | ⟨key, eq, stops⟩
  · have applied : override.apply record = .ok result := eq
    rw [applied]
    refine ⟨⟨fun _ => set.isClear, fun _ => ⟨result, rfl⟩⟩, ?_, ?_⟩
    · rintro _ ⟨⟩
      exact ⟨set.at?_path, fun _ => set.at?_front, fun _ => set.at?_of_apart,
        fun _ _ _ _ _ => set.keys_along⟩
    · rintro _ ⟨⟩
  · have applied : override.apply record = .error (.blockedOverride override.path.format key) := eq
    rw [applied]
    refine ⟨⟨?_, fun clear => (stops.not_isClear clear).elim⟩, ?_, ?_⟩
    · rintro ⟨_, ⟨⟩⟩
    · rintro _ ⟨⟩
    · rintro _ ⟨⟩
      obtain ⟨front, rest, datum, along, more, there, notPassable⟩ := stops.exists_datum
      exact ⟨front, key, rest, datum, along, more, there, notPassable, rfl⟩

/-- An override replaces an absent member, under a key of any name, and is stopped by a null. -/
theorem applyOverrides_setsOnly_absent
    : let record : Record :=
        [("a", .record [("__proto__", .absent), ("b", .boolean true)]), ("c", .null)]
      let override : Override := ⟨["a", "__proto__", "d"], "text"⟩
      let stopped : Override := ⟨["c", "d"], "text"⟩
      override.path ≠ []
        ∧ stopped.path ≠ []
        ∧ (∃ result,
            applyOverrides record [override] = .ok result
            ∧ (Plain.record result).at? ["a", "__proto__", "d"] = some (.text "text")
            ∧ (Plain.record result).at? ["a", "b"] = some (.boolean true))
        ∧ ¬ IsClear stopped.path record := by
  intro record override stopped
  have nonempty : override.path ≠ [] := by decide
  have nonempty' : stopped.path ≠ [] := by decide
  have applied : ∃ result, applyOverrides record [override] = .ok result := ⟨_, rfl⟩
  obtain ⟨result, applied⟩ := applied
  have ⟨leads, _, keeps, _⟩ := (applyOverrides_setsOnly record override nonempty).2.1 result applied
  refine ⟨nonempty, nonempty', ⟨result, applied, leads, ?_⟩, fun clear => ?_⟩
  · rw [keeps ["a", "b"] (by decide) (by decide)]
    rfl
  · obtain ⟨_, impossible⟩ := (applyOverrides_setsOnly record stopped nonempty').1.2 clear
    cases impossible

end Data

end Stencil
