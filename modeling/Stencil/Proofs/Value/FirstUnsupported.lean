import Stencil.Data.Error
import Stencil.Proofs.Plain.Places

/-! The complaint about data without a value. It is about the first place, depth first, where
something unsupported stands: it names the data path of that place and what stands there.
-/

namespace Stencil

namespace Plain

/-- What a datum without parts and without a value is called. -/
def complaint? : Plain → Option String
  | .null => some "null"
  | .absent => some "undefined"
  | .bytes _ => some "object"
  | .foreign kind => if kind = .bare then none else some kind.kind
  | .time none => some "invalid date"
  | _ => none

theorem isSome_complaint?_iff {datum : Plain} : datum.complaint?.isSome ↔ datum.IsUnsupported := by
  unfold complaint? IsUnsupported
  split <;> simp

/-- The complaint about a place. -/
def Placed.complaint? (place : Placed) : Option Unsupported :=
  place.datum.complaint?.map (.datum (pathText place.steps))

/-- Data as they can be handed in: records list their members in the order of their keys, and the
keys of maps are primitive.
-/
structure IsProper (data : Plain) : Prop where
  enumerated : ∀ members, Occurs (.record members) data → Enumerated members
  keys
    : ∀ entries key item,
        Occurs (.map entries) data → (key, item) ∈ entries → key.IsPrimitive

theorem IsProper.of_occurs {part whole : Plain} (h : whole.IsProper) (occurs : Occurs part whole)
    : part.IsProper where
  enumerated members inPart := h.enumerated members (inPart.trans occurs)
  keys entries key item inPart := h.keys entries key item (inPart.trans occurs)

/-- Data are proper if they are so themselves and their parts are. -/
theorem isProper_of_parts {data : Plain}
    (enumerated : ∀ members, data = .record members → Enumerated members)
    (keys : ∀ entries, data = .map entries → ∀ entry ∈ entries, entry.1.IsPrimitive)
    (inside : ∀ part ∈ data.parts, part.2.IsProper)
    : data.IsProper := by
  refine ⟨fun members occurs => ?_, fun entries key item occurs member => ?_⟩
  · rcases occurs_iff.1 occurs with here | ⟨part, inParts, occurs⟩
    · exact enumerated members here.symm
    · exact (inside part inParts).enumerated members occurs
  · rcases occurs_iff.1 occurs with here | ⟨part, inParts, occurs⟩
    · exact keys entries here.symm _ member
    · exact (inside part inParts).keys entries key item occurs member

end Plain

namespace Value

open Plain Outcome

-----------------------------------------------------------------------------------------
-- The causes of the parts
-----------------------------------------------------------------------------------------

/-- List items fail for the cause of the first item that fails. -/
theorem cause?_ofItems (path : String) (index : Nat) (items : List Plain)
    : cause? (ofItems path index items)
      = (items.zipIdx index).findSome? fun item =>
          cause? (ofPlain (itemPath path item.2) item.1) := by
  induction items generalizing index with
  | nil => rfl
  | cons item items ih =>
      rw [ofItems, cause?_bind_bind, ih, List.zipIdx_cons, List.findSome?_cons]
      cases cause? (ofPlain (itemPath path index) item) <;> rfl

/-- Record members fail for the cause of the first member that fails. -/
theorem cause?_ofMembers (path : String) (members : List (String × Plain))
    : cause? (ofMembers path members)
      = members.findSome? fun member => cause? (ofPlain (memberPath path member.1) member.2) := by
  induction members with
  | nil => rfl
  | cons member members ih =>
      obtain ⟨key, item⟩ := member
      rw [ofMembers, cause?_bind_bind, ih, List.findSome?_cons]
      cases cause? (ofPlain (memberPath path key) item) <;> rfl

/-- Map entries with primitive keys fail for the cause of the first entry that fails. -/
theorem cause?_ofEntries (path : String) {entries : List (Plain × Plain)}
    (keys : ∀ entry ∈ entries, entry.1.IsPrimitive)
    : cause? (ofEntries path entries)
      = entries.findSome? fun entry =>
          cause? (ofPlain (memberPath path entry.1.keyText) entry.2) := by
  induction entries with
  | nil => rfl
  | cons entry entries ih =>
      obtain ⟨key, item⟩ := entry
      rw [List.forall_mem_cons] at keys
      obtain ⟨name, spelled⟩ := keys.1.exists_asText
      have text : key.keyText = name := by
        rw [keyText, spelled]
        rfl
      have here : ofEntries path ((key, item) :: entries)
          = ofPlain (memberPath path name) item >>= fun value =>
              ofEntries path entries >>= fun pairs => .ok ((name, value) :: pairs) := by
        rw [ofEntries, spelled]
        rfl
      rw [here, cause?_bind_bind, ih keys.2, List.findSome?_cons, text]
      cases cause? (ofPlain (memberPath path name) item) <;> rfl

/-- Data fail for themselves or for the first of their parts that fails. -/
theorem cause?_ofPlain (steps : List Step) {data : Plain} (proper : data.IsProper)
    : cause? (ofPlain (pathText steps) data)
      = ((Placed.mk steps data).complaint?).or
          (data.parts.findSome? fun part =>
            cause? (ofPlain (pathText (steps ++ [part.1])) part.2)) := by
  simp only [pathText_concat]
  cases data with
  | list items =>
      rw [ofPlain, cause?_map, cause?_ofItems, parts, List.findSome?_map]
      rfl
  | record members =>
      have ordered := inKeyOrder_eq_self ((proper.enumerated members .here).imp And.right)
      rw [ofPlain, cause?_map, cause?_ofMembers, parts, ordered, List.findSome?_map]
      rfl
  | map entries =>
      have keys : ∀ entry ∈ entries, entry.1.IsPrimitive := fun entry member =>
        proper.keys entries entry.1 entry.2 .here member
      rw [ofPlain, cause?_map, cause?_ofEntries _ keys, parts, List.findSome?_map]
      rfl
  | time millis? => cases millis? <;> rfl
  | foreign kind => cases kind <;> rfl
  | null | absent | boolean b | number x | integer n | text s | bytes octets => rfl

-----------------------------------------------------------------------------------------
-- The first complaint
-----------------------------------------------------------------------------------------

theorem findSome?_flatMap {α β γ : Type} (items : List α) (f : α → List β) (g : β → Option γ)
    : (items.flatMap f).findSome? g = items.findSome? fun item => (f item).findSome? g := by
  induction items with
  | nil => rfl
  | cons item items ih =>
      rw [List.flatMap_cons, List.findSome?_append, ih, List.findSome?_cons]
      cases (f item).findSome? g <;> rfl

theorem findSome?_congr {α β : Type} {items : List α} {f g : α → Option β}
    (same : ∀ item ∈ items, f item = g item)
    : items.findSome? f = items.findSome? g := by
  induction items with
  | nil => rfl
  | cons item items ih =>
      rw [List.forall_mem_cons] at same
      rw [List.findSome?_cons, List.findSome?_cons, same.1, ih same.2]

/-- Data fail for the first complaint about a place in them. By recursion over the data. -/
theorem cause?_ofPlain_eq_findSome? (steps : List Step) {data : Plain} (proper : data.IsProper)
    : cause? (ofPlain (pathText steps) data)
      = (placesAt steps data).findSome? Placed.complaint? := by
  have each : ∀ part ∈ data.parts,
      cause? (ofPlain (pathText (steps ++ [part.1])) part.2)
        = (placesAt (steps ++ [part.1]) part.2).findSome? Placed.complaint? := by
    intro part member
    have inside : Occurs part.2 data := occurs_iff.2 (.inr ⟨part, member, .here⟩)
    exact cause?_ofPlain_eq_findSome? _ (proper.of_occurs inside)
  rw [cause?_ofPlain steps proper, placesAt_eq, List.findSome?_cons, findSome?_flatMap,
    findSome?_congr each]
  cases (Placed.mk steps data).complaint? <;> rfl
  termination_by sizeOf data
  decreasing_by exact sizeOf_lt_of_mem_parts member

/-- Data have no value exactly if something unsupported stands in them. The complaint is then a
configuration error with the data path and the kind of the first place, depth first, where something
unsupported stands.
-/
theorem ofPlain_firstUnsupported {data : Plain} (proper : data.IsProper)
    : ((∃ cause, ofPlain "" data = .error cause) ↔ ∃ leaf, Occurs leaf data ∧ leaf.IsUnsupported)
      ∧ ∀ cause, ofPlain "" data = .error cause →
          ∃ before steps leaf after what,
            data.places = before ++ ⟨steps, leaf⟩ :: after
            ∧ (∀ place ∈ before, ¬ place.datum.IsUnsupported)
            ∧ leaf.complaint? = some what
            ∧ cause = .datum (pathText steps) what
            ∧ (Data.Error.unsupported cause).diagnostic.family = .config
            ∧ (Data.Error.unsupported cause).diagnostic.details
              = .fields [("path", .text (pathText steps)), ("type", .text what)] := by
  have first : cause? (ofPlain "" data) = data.places.findSome? Placed.complaint? :=
    cause?_ofPlain_eq_findSome? [] proper
  have fails {place : Placed} : place.complaint?.isSome ↔ place.datum.IsUnsupported := by
    rw [Placed.complaint?, Option.isSome_map, isSome_complaint?_iff]
  refine ⟨?_, ?_⟩
  · simp only [← cause?_eq_some_iff, first, ← Option.isSome_iff_exists, List.findSome?_isSome_iff,
      fails]
    constructor
    · intro h
      obtain ⟨place, member, unsupported⟩ := h
      exact ⟨place.datum, (exists_placesAt_iff [] data).1 ⟨place, member, rfl⟩, unsupported⟩
    · intro h
      obtain ⟨leaf, occurs, unsupported⟩ := h
      obtain ⟨place, member, rfl⟩ := (exists_placesAt_iff [] data).2 occurs
      exact ⟨place, member, unsupported⟩
  · intro cause failed
    rw [← cause?_eq_some_iff, first, List.findSome?_eq_some_iff] at failed
    obtain ⟨before, ⟨steps, leaf⟩, after, split, here, supported⟩ := failed
    obtain ⟨what, complaint, rfl⟩ := Option.map_eq_some_iff.1 here
    refine ⟨before, steps, leaf, after, what, split, ?_, complaint, rfl, rfl, rfl⟩
    intro place member unsupported
    have none := supported place member
    rw [← fails, none] at unsupported
    cases unsupported

/-- An index before a name, and in a list a map with two keys of one text: the entry of the first has
no value, although the entry of the second takes its place.
-/
theorem ofPlain_firstUnsupported_overwritten
    : let entries : List (Plain × Plain) :=
        [(.text "true", .foreign .function), (.boolean true, .text "x")]
      let data : Plain := .record [("10", .list [.text "x", .map entries]), ("b", .absent)]
      data.IsProper
        ∧ (∃ leaf, Occurs leaf data ∧ leaf.IsUnsupported)
        ∧ ofPlain "" data = .error (.datum "10[1].true" "function")
        ∧ ∃ before steps leaf after,
            data.places = before ++ ⟨steps, leaf⟩ :: after
            ∧ (∀ place ∈ before, ¬ place.datum.IsUnsupported)
            ∧ leaf.complaint? = some "function"
            ∧ pathText steps = "10[1].true" := by
  intro entries data
  have leaf {datum : Plain} (noParts : datum.parts = [])
      (noRecord : ∀ members, datum ≠ .record members) (noMap : ∀ entries, datum ≠ .map entries)
      : datum.IsProper :=
    isProper_of_parts (fun members same => absurd same (noRecord members))
      (fun entries same => absurd same (noMap entries)) (by simp [noParts])
  have text : (Plain.text "x").IsProper := leaf rfl nofun nofun
  have function : (Plain.foreign .function).IsProper := leaf rfl nofun nofun
  have absent : Plain.absent.IsProper := leaf rfl nofun nofun
  have map : (Plain.map entries).IsProper := by
    refine isProper_of_parts nofun (fun others same => ?_) (by simp [entries, parts, function, text])
    cases same
    exact List.forall_mem_cons.2 ⟨trivial, List.forall_mem_cons.2 ⟨trivial, nofun⟩⟩
  have list : (Plain.list [.text "x", .map entries]).IsProper :=
    isProper_of_parts nofun nofun (by simp [parts, text, map])
  have proper : data.IsProper := by
    refine isProper_of_parts ?_ nofun ?_
    · intro members same
      obtain rfl := Plain.record.inj same
      exact List.pairwise_pair.2 ⟨by decide, rfl⟩
    · intro part member
      obtain ⟨member', inMembers, rfl⟩ := List.mem_map.1 member
      rw [mem_inKeyOrder, List.mem_cons, List.mem_singleton] at inMembers
      rcases inMembers with rfl | rfl
      · exact list
      · exact absent
  have failed : ofPlain "" data = .error (.datum "10[1].true" "function") := rfl
  obtain ⟨exists_iff, first⟩ := ofPlain_firstUnsupported proper
  obtain ⟨before, steps, leaf, after, what, split, supported, complaint, same, -, -⟩ :=
    first _ failed
  obtain ⟨isPath, rfl⟩ := Unsupported.datum.inj same
  exact ⟨proper, exists_iff.1 ⟨_, failed⟩, failed, before, steps, leaf, after, split, supported,
    complaint, isPath.symm⟩

end Value

end Stencil
