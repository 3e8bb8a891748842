import Stencil.Proofs.Outcome
import Stencil.Proofs.Related
import Stencil.Value.Plain

/-! Which plain data have a value. They lack one exactly if a datum that is unsupported stands
somewhere in them, or a map with a key that has no text. The data path is only reported, it has no
part in the value.
-/

namespace Stencil

-----------------------------------------------------------------------------------------
-- What stands in plain data
-----------------------------------------------------------------------------------------

namespace Plain

/-- A datum stands in data: it is all of them, or it stands in an item of a list, in a member of a
record or in the value of a map entry.
-/
inductive Occurs (part : Plain) : Plain → Prop
  | here : Occurs part part
  | item {items : List Plain} {item : Plain} (member : item ∈ items) (inside : Occurs part item)
    : Occurs part (.list items)
  | member {members : List (String × Plain)} {key : String} {item : Plain}
    (member : (key, item) ∈ members) (inside : Occurs part item)
    : Occurs part (.record members)
  | entry {entries : List (Plain × Plain)} {key item : Plain} (member : (key, item) ∈ entries)
    (inside : Occurs part item)
    : Occurs part (.map entries)

theorem Occurs.trans {part middle whole : Plain} (h : Occurs part middle)
    (h' : Occurs middle whole)
    : Occurs part whole := by
  induction h' with
  | here => exact h
  | item member _ ih => exact .item member ih
  | member member _ ih => exact .member member ih
  | entry member _ ih => exact .entry member ih

/-- A datum without parts that has no value. -/
def IsUnsupported : Plain → Prop
  | .null => True
  | .absent => True
  | .bytes _ => True
  | .foreign kind => kind ≠ .bare
  | .time none => True
  | _ => False

/-- A datum without parts that is no object. -/
def IsPrimitive : Plain → Prop
  | .null => True
  | .absent => True
  | .boolean _ => True
  | .number _ => True
  | .integer _ => True
  | .text _ => True
  | .foreign (.symbol _) => True
  | _ => False

theorem IsPrimitive.exists_asText {key : Plain} (h : key.IsPrimitive)
    : ∃ text, key.asText = .ok text := by
  unfold IsPrimitive at h
  split at h <;> first | exact ⟨_, rfl⟩ | exact h.elim

/-- Something unsupported stands in data: a datum that has no value, or a map with a key that has no
text.
-/
def HasUnsupported (data : Plain) : Prop :=
  (∃ leaf, Occurs leaf data ∧ leaf.IsUnsupported)
  ∨ ∃ entries key item cause,
      Occurs (.map entries) data
      ∧ (key, item) ∈ entries
      ∧ key.asText = .error cause

/-- What a cause says of data: that a datum without a value stands in them, or a map with a key
that has no text for that cause.
-/
def Blames (data : Plain) : Unsupported → Prop
  | .datum _ _ => ∃ leaf, Occurs leaf data ∧ leaf.IsUnsupported
  | .key cause =>
    ∃ entries key item,
      Occurs (.map entries) data ∧ (key, item) ∈ entries ∧ key.asText = .error cause

theorem Blames.of_occurs {part whole : Plain} {cause : Unsupported} (h : part.Blames cause)
    (occurs : Occurs part whole)
    : whole.Blames cause := by
  cases cause with
  | datum path what =>
      obtain ⟨leaf, inPart, unsupported⟩ := h
      exact ⟨leaf, inPart.trans occurs, unsupported⟩
  | key cause =>
      obtain ⟨entries, key, item, inPart, member, noText⟩ := h
      exact ⟨entries, key, item, inPart.trans occurs, member, noText⟩

theorem Blames.hasUnsupported {data : Plain} {cause : Unsupported} (h : data.Blames cause)
    : data.HasUnsupported := by
  cases cause with
  | datum path what => exact .inl h
  | key cause =>
      obtain ⟨entries, key, item, occurs, member, noText⟩ := h
      exact .inr ⟨entries, key, item, cause, occurs, member, noText⟩

theorem HasUnsupported.of_occurs {part whole : Plain} (h : part.HasUnsupported)
    (occurs : Occurs part whole)
    : whole.HasUnsupported := by
  rcases h with ⟨leaf, inPart, unsupported⟩ | ⟨entries, key, item, cause, inPart, member, noText⟩
  · exact .inl ⟨leaf, inPart.trans occurs, unsupported⟩
  · exact .inr ⟨entries, key, item, cause, inPart.trans occurs, member, noText⟩

/-- Something unsupported stands in a record if and only if it stands in a member. -/
theorem hasUnsupported_record_iff {members : List (String × Plain)}
    : (record members).HasUnsupported ↔ ∃ entry ∈ members, entry.2.HasUnsupported := by
  constructor
  · rintro (⟨leaf, occurs, unsupported⟩ | ⟨entries, key, item, cause, occurs, inEntries, noText⟩)
    · cases occurs with
      | here => exact unsupported.elim
      | member member inside => exact ⟨_, member, .inl ⟨leaf, inside, unsupported⟩⟩
    · cases occurs with
      | member member inside =>
          exact ⟨_, member, .inr ⟨entries, key, item, cause, inside, inEntries, noText⟩⟩
  · rintro ⟨entry, member, has⟩
    exact has.of_occurs (.member member .here)

end Plain

namespace Table

theorem put_of_not_mem {table : Table} {key : String} (absent : key ∉ table.map Prod.fst)
    (value : Value)
    : table.put key value = table ++ [(key, value)] := by
  induction table with
  | nil => rfl
  | cons entry rest ih =>
      obtain ⟨first, present⟩ := entry
      simp only [List.map_cons, List.mem_cons, not_or] at absent
      rw [put, if_neg (Ne.symm absent.1), ih absent.2, List.cons_append]

/-- Setting pairs with new keys puts them behind a table, by induction on the pairs. -/
theorem foldl_put {table pairs : Table} (distinct : ((table ++ pairs).map Prod.fst).Nodup)
    : pairs.foldl (fun table pair => table.put pair.1 pair.2) table = table ++ pairs := by
  induction pairs generalizing table with
  | nil => simp
  | cons pair pairs ih =>
      have absent : pair.1 ∉ table.map Prod.fst := by
        rw [List.map_append, List.map_cons] at distinct
        have disjoint := (List.nodup_append.1 distinct).2.2
        exact fun member => disjoint _ member _ (List.mem_cons_self ..) rfl
      rw [List.foldl_cons, put_of_not_mem absent, ih (by simpa using distinct)]
      simp

/-- Pairs with keys of their own make a table of just these pairs. -/
theorem ofPairs_eq_self {pairs : List (String × Value)} (distinct : (pairs.map Prod.fst).Nodup)
    : ofPairs pairs = pairs :=
  foldl_put (by simpa using distinct)

end Table

open Plain Outcome

-----------------------------------------------------------------------------------------
-- The data path has no part in a value
-----------------------------------------------------------------------------------------

namespace Value

theorem ofForeign_eq_ok_iff {path : String} {kind : Foreign} {value : Value}
    : ofForeign path kind = .ok value ↔ kind = .bare ∧ value = .table [] := by
  cases kind <;> simp [ofForeign, eq_comm]

theorem ofForeign_eq_error_iff {path : String} {kind : Foreign} {cause : Unsupported}
    : ofForeign path kind = .error cause ↔ kind ≠ .bare ∧ cause = .datum path kind.kind := by
  cases kind <;> simp [ofForeign, eq_comm]

mutual

/-- Data have the same value or none at any two paths, by recursion over the data. -/
theorem toOption_ofPlain (path path' : String) (data : Plain)
    : (ofPlain path data).toOption = (ofPlain path' data).toOption := by
  cases data with
  | list items =>
      simp only [ofPlain, toOption_map]
      rw [toOption_ofItems path path' 0 0 items]
  | record members =>
      simp only [ofPlain, toOption_map]
      rw [toOption_ofMembers path path' members]
  | map entries =>
      simp only [ofPlain, toOption_map]
      rw [toOption_ofEntries path path' entries]
  | time millis? => cases millis? <;> rfl
  | foreign kind => cases kind <;> rfl
  | null | absent | boolean b | number x | integer n | text s | bytes octets => rfl

theorem toOption_ofItems (path path' : String) (index index' : Nat) (items : List Plain)
    : (ofItems path index items).toOption = (ofItems path' index' items).toOption := by
  cases items with
  | nil => rfl
  | cons item items =>
      simp only [ofItems, toOption_bind]
      rw [toOption_ofPlain _ (itemPath path' index') item,
        toOption_ofItems path path' (index + 1) (index' + 1) items]

theorem toOption_ofMembers (path path' : String) (members : List (String × Plain))
    : (ofMembers path members).toOption = (ofMembers path' members).toOption := by
  cases members with
  | nil => rfl
  | cons member members =>
      obtain ⟨key, item⟩ := member
      simp only [ofMembers, toOption_bind]
      rw [toOption_ofPlain _ (memberPath path' key) item, toOption_ofMembers path path' members]

theorem toOption_ofEntries (path path' : String) (entries : List (Plain × Plain))
    : (ofEntries path entries).toOption = (ofEntries path' entries).toOption := by
  cases entries with
  | nil => rfl
  | cons entry entries =>
      obtain ⟨key, item⟩ := entry
      simp only [ofEntries, toOption_bind]
      have items (name : String) := toOption_ofPlain (memberPath path name) (memberPath path' name) item
      simp only [items, toOption_ofEntries path path' entries]

end

-----------------------------------------------------------------------------------------
-- The values of parts
-----------------------------------------------------------------------------------------

/-- Data have the same value wherever they stand. -/
theorem ofPlain_eq_ok_iff (path : String) {data : Plain} {value : Value}
    : ofPlain path data = .ok value ↔ ofPlain "" data = .ok value := by
  rw [← toOption_eq_some_iff, toOption_ofPlain path "" data, toOption_eq_some_iff]

/-- The values of list items are those of the items, in order. -/
theorem ofItems_eq_ok_iff {path : String} {index : Nat} {items : List Plain}
    {values : List Value}
    : ofItems path index items = .ok values
      ↔ List.Forall₂ (fun item value => ofPlain "" item = .ok value) items values := by
  induction items generalizing index values with
  | nil => simp [ofItems, eq_comm]
  | cons item items ih =>
      simp only [ofItems, bind_eq_ok_iff, ofPlain_eq_ok_iff (itemPath path index), ih,
        List.forall₂_cons_left_iff, Except.ok.injEq]
      constructor
      · rintro ⟨value, converted, rest, later, rfl⟩
        exact ⟨value, rest, converted, later, rfl⟩
      · rintro ⟨value, rest, converted, later, rfl⟩
        exact ⟨value, converted, rest, later, rfl⟩

/-- A member and the pair of its key and its value. -/
def MemberValue (member : String × Plain) (pair : String × Value) : Prop :=
  pair.1 = member.1 ∧ ofPlain "" member.2 = .ok pair.2

/-- The pairs of record members are those of the members, in order. -/
theorem ofMembers_eq_ok_iff {path : String} {members : List (String × Plain)}
    {pairs : List (String × Value)}
    : ofMembers path members = .ok pairs ↔ List.Forall₂ MemberValue members pairs := by
  induction members generalizing pairs with
  | nil => simp [ofMembers, eq_comm]
  | cons member members ih =>
      obtain ⟨key, item⟩ := member
      simp only [ofMembers, bind_eq_ok_iff, ofPlain_eq_ok_iff (memberPath path key), ih,
        List.forall₂_cons_left_iff, Except.ok.injEq]
      constructor
      · rintro ⟨value, converted, rest, later, rfl⟩
        exact ⟨(key, value), rest, ⟨rfl, converted⟩, later, rfl⟩
      · rintro ⟨⟨_, value⟩, rest, ⟨rfl, converted⟩, later, rfl⟩
        exact ⟨value, converted, rest, later, rfl⟩

/-- A map entry and the pair of the text of its key and its value. -/
def EntryValue (entry : Plain × Plain) (pair : String × Value) : Prop :=
  entry.1.asText = .ok pair.1 ∧ ofPlain "" entry.2 = .ok pair.2

/-- The pairs of map entries are those of the entries, in order. -/
theorem ofEntries_eq_ok_iff {path : String} {entries : List (Plain × Plain)}
    {pairs : List (String × Value)}
    : ofEntries path entries = .ok pairs ↔ List.Forall₂ EntryValue entries pairs := by
  induction entries generalizing pairs with
  | nil => simp [ofEntries, eq_comm]
  | cons entry entries ih =>
      obtain ⟨key, item⟩ := entry
      rw [ofEntries, List.forall₂_cons_left_iff]
      cases spelled : key.asText with
      | error cause => simp [mapError_error, bind, Except.bind, EntryValue, spelled]
      | ok name =>
          simp only [mapError_ok, bind_eq_ok_iff, ofPlain_eq_ok_iff (memberPath path _), ih,
            Except.ok.injEq]
          constructor
          · rintro ⟨_, rfl, value, converted, rest, later, rfl⟩
            exact ⟨(_, value), rest, ⟨spelled, converted⟩, later, rfl⟩
          · rintro ⟨⟨_, value⟩, rest, ⟨spelled', converted⟩, later, rfl⟩
            cases spelled.symm.trans spelled'
            exact ⟨_, rfl, value, converted, rest, later, rfl⟩

theorem map_fst_eq {members : List (String × Plain)} {pairs : List (String × Value)}
    (h : List.Forall₂ MemberValue members pairs)
    : pairs.map Prod.fst = members.map Prod.fst := by
  induction h with
  | nil => rfl
  | cons first _ ih => rw [List.map_cons, List.map_cons, ih, first.1]

/-- The pairs of members have the values of the members under the same keys. -/
theorem rel_lookup {members : List (String × Plain)} {pairs : List (String × Value)}
    (h : List.Forall₂ MemberValue members pairs) (name : String)
    : Option.Rel (fun value datum => ofPlain "" datum = .ok value) (pairs.lookup name)
        (members.lookup name) := by
  induction h with
  | nil => exact .none
  | @cons member pair members pairs first _ ih =>
      obtain ⟨key, item⟩ := member
      obtain ⟨_, value⟩ := pair
      obtain ⟨rfl, converted⟩ := first
      simp only [List.lookup_cons]
      split
      · exact .some converted
      · exact ih

-----------------------------------------------------------------------------------------
-- What has no value
-----------------------------------------------------------------------------------------

/-- All that stands in data with a value has a value, and all keys of maps have texts. -/
theorem exists_ofPlain_of_occurs {part whole : Plain} (occurs : Occurs part whole)
    (converted : ∃ value, ofPlain "" whole = .ok value)
    : ∃ value, ofPlain "" part = .ok value := by
  induction occurs with
  | here => exact converted
  | item member _ ih =>
      obtain ⟨value, converted⟩ := converted
      obtain ⟨values, converted, _⟩ := map_eq_ok_iff.1 converted
      exact ih (exists_of_forall₂ (ofItems_eq_ok_iff.1 converted) member)
  | member member _ ih =>
      obtain ⟨value, converted⟩ := converted
      obtain ⟨pairs, converted, _⟩ := map_eq_ok_iff.1 converted
      obtain ⟨pair, _, has⟩ := exists_of_forall₂ (ofMembers_eq_ok_iff.1 converted) member
      exact ih ⟨_, has⟩
  | entry member _ ih =>
      obtain ⟨value, converted⟩ := converted
      obtain ⟨pairs, converted, _⟩ := map_eq_ok_iff.1 converted
      obtain ⟨pair, _, has⟩ := exists_of_forall₂ (ofEntries_eq_ok_iff.1 converted) member
      exact ih ⟨_, has⟩

mutual

/-- Where data have no value, the cause is right about them. By recursion over the data. -/
theorem blames_of_ofPlain {path : String} {data : Plain} {cause : Unsupported}
    (failed : ofPlain path data = .error cause)
    : data.Blames cause := by
  cases data with
  | list items =>
      obtain ⟨item, member, blames⟩ := blames_of_ofItems (map_eq_error_iff.1 failed)
      exact blames.of_occurs (.item member .here)
  | record members =>
      obtain ⟨entry, member, blames⟩ := blames_of_ofMembers (map_eq_error_iff.1 failed)
      exact blames.of_occurs (.member member .here)
  | map entries =>
      obtain ⟨entry, member, blames | ⟨noText, spelled, rfl⟩⟩ :=
        blames_of_ofEntries (map_eq_error_iff.1 failed)
      · exact blames.of_occurs (.entry member .here)
      · exact ⟨entries, entry.1, entry.2, .here, member, spelled⟩
  | time millis? =>
      cases millis? with
      | none =>
          cases failed
          exact ⟨_, .here, trivial⟩
      | some millis => cases failed
  | null | absent | bytes octets =>
      cases failed
      exact ⟨_, .here, trivial⟩
  | foreign kind =>
      obtain ⟨other, rfl⟩ := ofForeign_eq_error_iff.1 failed
      exact ⟨_, .here, other⟩
  | boolean b | number x | integer n | text s => cases failed

theorem blames_of_ofItems {path : String} {index : Nat} {items : List Plain}
    {cause : Unsupported} (failed : ofItems path index items = .error cause)
    : ∃ item ∈ items, item.Blames cause := by
  cases items with
  | nil => cases failed
  | cons item items =>
      rcases bind_eq_error_iff.1 failed with here | ⟨value, _, later⟩
      · exact ⟨item, List.mem_cons_self .., blames_of_ofPlain here⟩
      · rcases bind_eq_error_iff.1 later with later | ⟨values, _, impossible⟩
        · obtain ⟨other, member, blames⟩ := blames_of_ofItems later
          exact ⟨other, List.mem_cons_of_mem _ member, blames⟩
        · cases impossible

theorem blames_of_ofMembers {path : String} {members : List (String × Plain)}
    {cause : Unsupported} (failed : ofMembers path members = .error cause)
    : ∃ entry ∈ members, entry.2.Blames cause := by
  cases members with
  | nil => cases failed
  | cons entry members =>
      obtain ⟨key, item⟩ := entry
      rcases bind_eq_error_iff.1 failed with here | ⟨value, _, later⟩
      · exact ⟨_, List.mem_cons_self .., blames_of_ofPlain here⟩
      · rcases bind_eq_error_iff.1 later with later | ⟨pairs, _, impossible⟩
        · obtain ⟨other, member, blames⟩ := blames_of_ofMembers later
          exact ⟨other, List.mem_cons_of_mem _ member, blames⟩
        · cases impossible

theorem blames_of_ofEntries {path : String} {entries : List (Plain × Plain)}
    {cause : Unsupported} (failed : ofEntries path entries = .error cause)
    : ∃ entry ∈ entries,
        entry.2.Blames cause ∨ ∃ noText, entry.1.asText = .error noText ∧ cause = .key noText := by
  cases entries with
  | nil => cases failed
  | cons entry entries =>
      obtain ⟨key, item⟩ := entry
      rcases bind_eq_error_iff.1 failed with unspelled | ⟨name, _, later⟩
      · cases spelled : key.asText with
        | error noText =>
            rw [spelled] at unspelled
            cases unspelled
            exact ⟨_, List.mem_cons_self .., .inr ⟨noText, spelled, rfl⟩⟩
        | ok name =>
            rw [spelled] at unspelled
            cases unspelled
      · rcases bind_eq_error_iff.1 later with here | ⟨value, _, later⟩
        · exact ⟨_, List.mem_cons_self .., .inl (blames_of_ofPlain here)⟩
        · rcases bind_eq_error_iff.1 later with later | ⟨pairs, _, impossible⟩
          · obtain ⟨other, member, blames⟩ := blames_of_ofEntries later
            exact ⟨other, List.mem_cons_of_mem _ member, blames⟩
          · cases impossible

end

/-- Data have a value exactly if nothing unsupported stands in them. -/
theorem exists_ofPlain_iff {data : Plain}
    : (∃ value, ofPlain "" data = .ok value) ↔ ¬ data.HasUnsupported := by
  constructor
  · rintro converted (⟨leaf, occurs, unsupported⟩
      | ⟨entries, key, item, cause, occurs, member, noText⟩)
    · obtain ⟨value, converted⟩ := exists_ofPlain_of_occurs occurs converted
      unfold IsUnsupported at unsupported
      split at unsupported
      case h_4 => exact unsupported (ofForeign_eq_ok_iff.1 converted).1
      all_goals first | cases converted | exact unsupported.elim
    · obtain ⟨value, converted⟩ := exists_ofPlain_of_occurs occurs converted
      obtain ⟨pairs, converted, _⟩ := map_eq_ok_iff.1 converted
      obtain ⟨pair, spelled, _⟩ := exists_of_forall₂ (ofEntries_eq_ok_iff.1 converted) member
      rw [noText] at spelled
      cases spelled
  · intro supported
    cases converted : ofPlain "" data with
    | ok value => exact ⟨value, rfl⟩
    | error cause => exact (supported (blames_of_ofPlain converted).hasUnsupported).elim

end Value

end Stencil
