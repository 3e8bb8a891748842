import Mathlib.Data.Option.Basic
import Stencil.Proofs.Data.Overriding

/-! Overrides whose paths part from each other can be applied in either order, and of two overrides
with the same path only the later one counts. The order may show in the order of keys, which no
later override depends on.
-/

namespace Stencil

namespace Plain

/-- Data that are the same but for the order of the keys of records. -/
inductive SameData : Plain → Plain → Prop
  | refl (datum : Plain) : SameData datum datum
  | record {members members' : List (String × Plain)}
    (each : ∀ key, Option.Rel SameData (members.lookup key) (members'.lookup key))
    : SameData (.record members) (.record members')

theorem rel_sameData_refl (datum? : Option Plain) : Option.Rel SameData datum? datum? := by
  cases datum? with
  | none => exact .none
  | some datum => exact .some (.refl datum)

variable {members members' : List (String × Plain)}

theorem SameData.lookup (same : SameData (.record members) (.record members')) (key : String)
    : Option.Rel SameData (members.lookup key) (members'.lookup key) := by
  cases same with
  | refl => exact rel_sameData_refl _
  | record each => exact each key

theorem sameData_of_lookup_eq (equal : ∀ key, members.lookup key = members'.lookup key)
    : SameData (.record members) (.record members') :=
  .record fun key => equal key ▸ rel_sameData_refl _

/-- Records stay the same when a member is set in both. -/
theorem SameData.put {datum datum' : Plain} (same : SameData (.record members) (.record members'))
    (here : SameData datum datum') (key : String)
    : SameData (.record (put key datum members)) (.record (put key datum' members')) := by
  refine .record fun name => ?_
  rw [lookup_put, lookup_put]
  split
  · exact .some here
  · exact same.lookup name

/-- Two members with different keys are set in either order. -/
theorem sameData_put_put {key other : String} (differ : key ≠ other) (datum item : Plain)
    (members : List (String × Plain))
    : SameData (.record (Plain.put other item (Plain.put key datum members)))
        (.record (Plain.put key datum (Plain.put other item members))) := by
  refine sameData_of_lookup_eq fun name => ?_
  simp only [lookup_put]
  by_cases isKey : name = key
  · have notOther : name ≠ other := fun isOther => differ (isKey.symm.trans isOther)
    simp only [if_neg notOther]
  · simp only [if_neg isKey]

end Plain

namespace Path

/-- Neither of two paths goes on from the other one. -/
def Apart (path other : Path) : Prop := ¬ path <+: other ∧ ¬ other <+: path

/-- Paths that part behind their first keys. -/
theorem apart_cons_iff {key : String} {path other : Path}
    : Apart (key :: path) (key :: other) ↔ path.Apart other := by
  rw [Apart, Apart, List.prefix_cons_inj, List.prefix_cons_inj]

instance (path other : Path) : Decidable (path.Apart other) :=
  inferInstanceAs (Decidable (¬ path <+: other ∧ ¬ other <+: path))

end Path

namespace Data

open Plain

/-- Two outcomes are failures both, or they are the same records but for the order of keys. -/
inductive SameOutcome : Except Error Record → Except Error Record → Prop
  | failed (cause cause' : Error) : SameOutcome (.error cause) (.error cause')
  | made {result result' : Record} (same : SameData (.record result) (.record result'))
    : SameOutcome (.ok result) (.ok result')

namespace SameOutcome

variable {outcome outcome' : Except Error Record}

/-- Outcomes that are the same stay so where both go on alike. -/
theorem bind {next next' : Record → Except Error Record} (h : SameOutcome outcome outcome')
    (onward
      : ∀ record record', SameData (.record record) (.record record')
          → SameOutcome (next record) (next' record'))
    : SameOutcome (outcome >>= next) (outcome' >>= next') := by
  cases h with
  | failed cause cause' => exact .failed cause cause'
  | made same => exact onward _ _ same

/-- Tables that are the same are put under a key of records that are the same. -/
theorem map_put {record record' : Record} (h : SameOutcome outcome outcome')
    (same : SameData (.record record) (.record record')) (key : String)
    : SameOutcome (outcome.map fun made => put key (.record made) record)
        (outcome'.map fun made => put key (.record made) record') := by
  cases h with
  | failed cause cause' => exact .failed cause cause'
  | made here => exact .made (same.put here key)

end SameOutcome

variable {whole whole' value value' key : String} {path rest rest' : Path}
  {record record' inner : Record}

-----------------------------------------------------------------------------------------
-- One step along a path
-----------------------------------------------------------------------------------------

/-- In front of other keys, a text is set in the table under the first key. -/
theorem setAt_of_more (more : rest ≠ []) (record : Record)
    : setAt whole value (key :: rest) record
      = match tableUnder record key with
        | none => .error (.blockedOverride whole key)
        | some inner =>
          (setAt whole value rest inner).map fun made => put key (.record made) record := by
  rw [setAt.eq_3 _ _ _ _ _ more]
  cases tableUnder record key with
  | none => rfl
  | some inner =>
      simp only
      cases setAt whole value rest inner <;> rfl

/-- Two texts that are set below one key are set one after the other in the table under it. -/
theorem setAt_bind_setAt (found : tableUnder record key = some inner) (more : rest ≠ [])
    (more' : rest' ≠ [])
    : (setAt whole value (key :: rest) record >>= setAt whole' value' (key :: rest'))
      = (setAt whole value rest inner >>= setAt whole' value' rest').map fun made =>
          put key (.record made) record := by
  rw [setAt_of_more more, found]
  simp only
  cases setAt whole value rest inner with
  | error cause => rfl
  | ok made =>
      have table : tableUnder (put key (.record made) record) key = some made := by
        rw [tableUnder, lookup_put, if_pos rfl]
      change setAt whole' value' (key :: rest') (put key (.record made) record)
        = (setAt whole' value' rest' made).map _
      rw [setAt_of_more more', table]
      simp only [put_put]

/-- The datum that setting a text at a path puts under the first key of the path. -/
def memberSet (whole value key : String) (rest : Path) (record : Record) : Except Error Plain :=
  match rest with
  | [] => .ok (.text value)
  | rest =>
    match tableUnder record key with
    | none => .error (.blockedOverride whole key)
    | some inner => (setAt whole value rest inner).map .record

/-- Setting a text at a path sets the member of the first key. -/
theorem setAt_eq_map (whole value key : String) (rest : Path) (record : Record)
    : setAt whole value (key :: rest) record
      = (memberSet whole value key rest record).map fun datum => put key datum record := by
  cases rest with
  | nil => rfl
  | cons next more =>
      rw [setAt_of_more (by simp), memberSet]
      · cases tableUnder record key with
        | none => rfl
        | some inner =>
            simp only
            cases setAt whole value (next :: more) inner <;> rfl
      · simp

/-- What is set depends on the member that the first key had, and on no other one. -/
theorem memberSet_congr (same : record.lookup key = record'.lookup key)
    : memberSet whole value key rest record = memberSet whole value key rest record' := by
  simp only [memberSet, tableUnder, same]

-----------------------------------------------------------------------------------------
-- The order of keys has no part in an override
-----------------------------------------------------------------------------------------

/-- Overrides go on in the same tables of records that are the same. -/
theorem rel_tableUnder (same : SameData (.record record) (.record record')) (key : String)
    : Option.Rel (fun inner inner' => SameData (.record inner) (.record inner'))
        (tableUnder record key) (tableUnder record' key) := by
  have found := same.lookup key
  unfold tableUnder
  generalize record.lookup key = datum? at found
  generalize record'.lookup key = datum?' at found
  cases found with
  | none => exact .some (.refl _)
  | some here =>
      cases here with
      | record each => exact .some (.record each)
      | refl => split <;> first | exact .none | exact .some (.refl _)

/-- Setting a text in records that are the same has the same outcome, by induction on the path. -/
theorem sameOutcome_setAt (whole value : String) (path : Path)
    (same : SameData (.record record) (.record record'))
    : SameOutcome (setAt whole value path record) (setAt whole value path record') := by
  induction path generalizing record record' with
  | nil => exact .made (same.put (.refl _) noKey)
  | cons key rest ih =>
      by_cases last : rest = []
      · subst last
        exact .made (same.put (.refl _) key)
      rw [setAt_of_more last, setAt_of_more last]
      have tables := rel_tableUnder same key
      generalize tableUnder record key = inner? at tables
      generalize tableUnder record' key = inner?' at tables
      cases tables with
      | none => exact .failed _ _
      | some sameTable => exact (ih sameTable).map_put same key

-----------------------------------------------------------------------------------------
-- Two texts
-----------------------------------------------------------------------------------------

/-- Texts that are set below different keys set two members, to what depends on the record as it was.
-/
theorem setAt_bind_setAt_of_ne {other : String} (differ : key ≠ other) (record : Record)
    : (setAt whole value (key :: rest) record >>= setAt whole' value' (other :: rest'))
      = memberSet whole value key rest record >>= fun datum =>
          (memberSet whole' value' other rest' record).map fun item =>
            put other item (put key datum record) := by
  rw [setAt_eq_map]
  cases memberSet whole value key rest record with
  | error cause => rfl
  | ok datum =>
      have kept : (put key datum record).lookup other = record.lookup other := by
        rw [lookup_put, if_neg differ.symm]
      change setAt whole' value' (other :: rest') (put key datum record)
        = (memberSet whole' value' other rest' record).map _
      rw [setAt_eq_map, memberSet_congr kept]

/-- Texts are set below different keys in either order. -/
theorem sameOutcome_setAt_of_ne {other : String} (differ : key ≠ other) (record : Record)
    : SameOutcome
        (setAt whole value (key :: rest) record >>= setAt whole' value' (other :: rest'))
        (setAt whole' value' (other :: rest') record >>= setAt whole value (key :: rest)) := by
  rw [setAt_bind_setAt_of_ne differ, setAt_bind_setAt_of_ne differ.symm]
  cases memberSet whole value key rest record with
  | error cause => cases memberSet whole' value' other rest' record <;> exact .failed _ _
  | ok datum =>
      cases memberSet whole' value' other rest' record with
      | error cause => exact .failed _ _
      | ok item => exact .made (sameData_put_put differ datum item record)

/-- Texts are set at paths that part from each other in either order. By induction on the one path,
along the keys that it shares with the other one.
-/
theorem sameOutcome_setAt_swap {path other : Path} (apart : path.Apart other) (record : Record)
    : SameOutcome (setAt whole value path record >>= setAt whole' value' other)
        (setAt whole' value' other record >>= setAt whole value path) := by
  induction path generalizing other record with
  | nil => exact (apart.1 List.nil_prefix).elim
  | cons key rest ih =>
      obtain _ | ⟨key', rest'⟩ := other
      · exact (apart.2 List.nil_prefix).elim
      by_cases differ : key ≠ key'
      · exact sameOutcome_setAt_of_ne differ record
      obtain rfl := not_not.1 differ
      rw [Path.apart_cons_iff] at apart
      have more : rest ≠ [] := fun last => apart.1 (last ▸ List.nil_prefix)
      have more' : rest' ≠ [] := fun last => apart.2 (last ▸ List.nil_prefix)
      cases found : tableUnder record key with
      | none =>
          rw [setAt_of_more more, setAt_of_more more', found]
          exact .failed _ _
      | some inner =>
          rw [setAt_bind_setAt found more more', setAt_bind_setAt found more' more]
          exact (ih apart inner).map_put (.refl _) key

/-- Of two texts that are set at one path only the later one counts, by induction on the path. -/
theorem setAt_bind_setAt_self (whole value value' : String) (path : Path) (record : Record)
    : (setAt whole value path record >>= setAt whole value' path)
      = setAt whole value' path record := by
  induction path generalizing record with
  | nil => exact congrArg Except.ok (put_put record noKey _ _)
  | cons key rest ih =>
      by_cases last : rest = []
      · subst last
        exact congrArg Except.ok (put_put record key _ _)
      cases found : tableUnder record key with
      | none =>
          rw [setAt_of_more last, setAt_of_more last, found]
          rfl
      | some inner => rw [setAt_bind_setAt found last last, ih, setAt_of_more last, found]

-----------------------------------------------------------------------------------------
-- Overrides
-----------------------------------------------------------------------------------------

theorem applyOverrides_cons (record : Record) (override : Override) (overrides : List Override)
    : applyOverrides record (override :: overrides)
      = override.apply record >>= fun next => applyOverrides next overrides := by
  rw [applyOverrides, List.foldlM_cons]
  rfl

/-- Overrides of records that are the same have the same outcome, by induction on the overrides. -/
theorem sameOutcome_applyOverrides (overrides : List Override)
    (same : SameData (.record record) (.record record'))
    : SameOutcome (applyOverrides record overrides) (applyOverrides record' overrides) := by
  induction overrides generalizing record record' with
  | nil => exact .made same
  | cons override overrides ih =>
      rw [applyOverrides_cons, applyOverrides_cons]
      exact (sameOutcome_setAt _ _ _ same).bind fun _ _ => ih

/-- Two overrides at any place of a list: if neither of their paths goes on from the other one, they
can change places, and then the list fails as before or gives the same record but for the order of
keys. If they have the same path, only the second one counts.
-/
theorem applyOverrides_swap (record : Record) (before after : List Override)
    (first second : Override)
    : (first.path.Apart second.path
        → SameOutcome (applyOverrides record (before ++ first :: second :: after))
            (applyOverrides record (before ++ second :: first :: after)))
      ∧ (first.path = second.path
        → applyOverrides record (before ++ first :: second :: after)
          = applyOverrides record (before ++ second :: after)) := by
  have split (overrides : List Override)
      : applyOverrides record (before ++ overrides)
        = applyOverrides record before >>= fun middle => applyOverrides middle overrides := by
    rw [applyOverrides, List.foldlM_append]
    rfl
  have pair (middle : Record) (first second : Override)
      : applyOverrides middle (first :: second :: after)
        = (first.apply middle >>= second.apply) >>= fun next => applyOverrides next after := by
    simp only [applyOverrides_cons, bind_assoc]
  rw [split, split, split]
  cases applyOverrides record before with
  | error cause => exact ⟨fun _ => .failed cause cause, fun _ => rfl⟩
  | ok middle =>
      change (_ → SameOutcome (applyOverrides middle _) (applyOverrides middle _))
        ∧ (_ → applyOverrides middle _ = applyOverrides middle _)
      rw [pair, pair]
      constructor
      · intro apart
        exact (sameOutcome_setAt_swap apart middle).bind fun _ _ => sameOutcome_applyOverrides after
      · intro samePath
        have once : (first.apply middle >>= second.apply) = second.apply middle := by
          simp only [Override.apply, samePath]
          exact setAt_bind_setAt_self _ _ _ _ middle
        rw [once, applyOverrides_cons]

/-- Two overrides that make a table they share change places, and a third one replaces the text of
the first.
-/
theorem applyOverrides_swap_shared
    : let record : Record := [("n", .null), ("a", .absent)]
      let first : Override := ⟨["a", "b", "c"], "1"⟩
      let second : Override := ⟨["a", "__proto__"], "2"⟩
      let again : Override := ⟨["a", "b", "c"], "3"⟩
      let made (members : Record) : Record := [("n", .null), ("a", .record members)]
      let member (text : String) : String × Plain := ("b", .record [("c", .text text)])
      let other : String × Plain := ("__proto__", .text "2")
      first.path.Apart second.path
        ∧ first.path = again.path
        ∧ applyOverrides record [first, second] = .ok (made [member "1", other])
        ∧ applyOverrides record [second, first] = .ok (made [other, member "1"])
        ∧ SameData (.record (made [member "1", other])) (.record (made [other, member "1"]))
        ∧ applyOverrides record [second, first, again] = .ok (made [other, member "3"]) := by
  intro record first second again made member other
  have apart : first.path.Apart second.path := by decide
  have samePath : first.path = again.path := rfl
  have forward : applyOverrides record [first, second] = .ok (made [member "1", other]) := rfl
  have backward : applyOverrides record [second, first] = .ok (made [other, member "1"]) := rfl
  have swapped := (applyOverrides_swap record [] [] first second).1 apart
  rw [List.nil_append, List.nil_append, forward, backward] at swapped
  refine ⟨apart, samePath, forward, backward, ?_, ?_⟩
  · cases swapped with
    | made same => exact same
  · exact ((applyOverrides_swap record [second] [] first again).2 samePath).trans rfl

end Data

end Stencil
