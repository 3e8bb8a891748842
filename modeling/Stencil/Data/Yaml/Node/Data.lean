import Stencil.Data.Yaml.Node.Text
import Stencil.Plain.Text

/-!
The data that nodes stand for. The node of an anchor is read once for all its aliases; nodes
that aliases repeat too often are refused, and merge keys take the entries of other maps over.
-/

namespace Stencil.Data.Yaml

/-- The use that is made of the node of an anchor: its data once they are there, how often they
have been asked for, and the most repetitions within it as counted at its first alias.
-/
structure Use where
  count : Nat
  inner : Nat
  data? : Option Plain
  deriving Inhabited, Repr

/-- The uses of the anchors of a document, by the numbers of the anchors. -/
abbrev Uses := Array (Option Use)

/-- Actions that make data. -/
abbrev Convert := StateT Uses (Except Mistake)

namespace Node

/-- What the entries of a map become: members of a record, entries of a map with keys of any
kind, or items of a set.
-/
inductive Gathered where
  | members (members : List (String × Plain))
  | entries (entries : List (Plain × Plain))
  | items (items : List Plain)
  deriving Inhabited, Repr

/-- How the data of a node are made. -/
abbrev DataOf := Node → Convert Plain

/-- How the entries of a map are added to those of another one. -/
abbrev Gather := Gathered → List (Node × Option Node) → Convert Gathered

/-- The document around nodes, and the nodes of its anchors. -/
structure Scope where
  directives : Directives
  nodes : Array Node

/-- Stops for a mistake without a place. -/
def stop {α : Type} (reason : String) : Convert α :=
  StateT.lift (refuse reason 0)

/-- The use of an anchor. -/
def useOf (number : Nat) : Convert (Option Use) := do
  return (← get).getD number none

/-- Notes the use of an anchor. -/
def setUse (number : Nat) (use : Use) : Convert Unit :=
  modify fun uses => uses.setIfInBounds number (some use)

/-- The most aliases that may come of one anchor. -/
def maxRepetitions : Nat := 100

/-- The most repetitions within a node. A scalar counts as one. -/
def repetitions (uses : Uses) : Nat → Node → Nat
  | _, reference _ target? _ =>
    match target?.bind fun number => uses.getD number none with
    | some use => use.count * use.inner
    | none => 0
  | _, scalar _ _ _ _ => 1
  | 0, _ => 0
  | fuel + 1, list items _ => items.foldl (fun most item => max most (repetitions uses fuel item)) 0
  | fuel + 1, map entries _ _ => entries.foldl (ofEntry fuel) 0
  | fuel + 1, pairs entries _ _ => entries.foldl (ofEntry fuel) 0
where
  /-- The most repetitions within an entry or counted before. A missing value counts as one. -/
  ofEntry (fuel most : Nat) (entry : Node × Option Node) : Nat :=
    max most (max (repetitions uses fuel entry.1) ((entry.2.map (repetitions uses fuel)).getD 1))

/-- The data that an alias stands for. -/
def aliasData (scope : Scope) (dataOf : DataOf) (fuel : Nat) (target? : Option Nat)
    : Convert Plain := do
  match target? with
  | none => stop "alias without an anchor"
  | some number =>
    let source := scope.nodes.getD number default
    if (← useOf number).isNone then discard (dataOf source)
    match ← useOf number with
    | some { count, inner, data? := some data } =>
      let count := count + 1
      setUse number ⟨count, inner, some data⟩
      let uses ← get
      let inner := if inner = 0 then repetitions uses fuel source else inner
      setUse number ⟨count, inner, some data⟩
      if maxRepetitions < count * inner then stop "too many aliases"
      return data
    | _ => stop "alias within the node of its anchor"

/-- Whether a key merges the entries of other maps. -/
def isMergeKey (version : Version) : Node → Bool
  | scalar { value := .foreign (.symbol "<<"), .. } _ _ _ => true
  | scalar { value := .text "<<", .. } _ style _ => version == .legacy && style == .plain
  | _ => false

/-- The node that an alias stands for, or the node itself. -/
def resolved (scope : Scope) : Node → Convert Node
  | reference _ (some number) _ => pure (scope.nodes.getD number default)
  | reference _ none _ => stop "alias without an anchor"
  | node => pure node

/-- The text of data as a key. -/
def textOf (data : Plain) : Convert String :=
  match data.asText with
  | .ok text => pure text
  | .error cause => stop cause.message

/-- The key that a node spells in a record. -/
def keyOf (scope : Scope) (fuel : Nat) (key : Node) (data : Plain) : Convert String :=
  match data, key with
  | .null, _ => pure ""
  | data, scalar _ _ _ _ => textOf data
  | .boolean _, _ => textOf data
  | .number _, _ => textOf data
  | .text s, _ => pure s
  | .foreign (.symbol _), _ => textOf data
  | _, key => StateT.lift (keyText scope.directives fuel key)

/-- Adds an entry that does not merge. -/
def Gathered.add (scope : Scope) (dataOf : DataOf) (fuel : Nat) (key : Node)
    (value? : Option Node) (found : Gathered) : Convert Gathered := do
  let keyData ← dataOf key
  let valueData : Convert Plain :=
    match value? with
    | some value => dataOf value
    | none => pure .null
  match found with
  | .members known =>
    let name ← keyOf scope fuel key keyData
    return .members (Plain.put name (← valueData) known)
  | .entries known => return .entries (Plain.putEntry keyData (← valueData) known)
  | .items known => return .items (known ++ [keyData])

/-- Takes over an entry of another map unless its key is there. Symbols are no keys of records. -/
def Gathered.take (found : Gathered) (entry : Plain × Plain) : Convert Gathered := do
  match found, entry with
  | .members _, (.foreign (.symbol _), _) => return found
  | .members known, (key, value) =>
    let name ← textOf key
    return if (known.lookup name).isSome then found else .members (Plain.put name value known)
  | .entries known, (key, value) =>
    return if known.any fun other => Plain.isSameKey other.1 key then found
      else .entries (known ++ [(key, value)])
  | .items known, (key, _) => return .items (known ++ [key])

/-- The entry that an item of a set stands for when it is merged: its first two parts. -/
def entryOfItem (item : Plain) : Convert (Plain × Plain) :=
  let parts? : Option (List Plain) :=
    match item with
    | .text s => some (s.toList.map fun c => .text (String.singleton c))
    | .list items => some items
    | .bytes octets => some (octets.map fun octet => Plain.ofNat octet.toNat)
    | .map entries => some (entries.map fun entry => .list [entry.1, entry.2])
    | _ => none
  match parts? with
  | some parts => pure (parts.headD .absent, (parts.drop 1).headD .absent)
  | none => stop "item of a set without parts"

/-- Takes over the entries of a map that is merged. -/
def mergeFrom (scope : Scope) (gather : Gather) (found : Gathered) (source : Node)
    : Convert Gathered := do
  match ← resolved scope source with
  | map entries true _ =>
    match ← gather (.items []) entries with
    | .items items => (← items.mapM entryOfItem).foldlM Gathered.take found
    | _ => return found
  | map entries false _ =>
    match ← gather (.entries []) entries with
    | .entries entries => entries.foldlM Gathered.take found
    | _ => return found
  | _ => stop "map to merge expected"

/-- Adds an entry, or the entries of the maps that it merges. -/
def addData (scope : Scope) (dataOf : DataOf) (gather : Gather) (fuel : Nat) (found : Gathered)
    (entry : Node × Option Node) : Convert Gathered := do
  let (key, value?) := entry
  if isMergeKey scope.directives.version key then
    match ← value?.mapM (resolved scope) with
    | none => stop "map to merge expected"
    | some (list items _) => items.foldlM (mergeFrom scope gather) found
    | some (pairs (_ :: _) _ _) => stop "map to merge expected"
    | some (pairs [] _ _) => return found
    | some source => mergeFrom scope gather found source
  else found.add scope dataOf fuel key value?

/-- The data of what was gathered. What is in a set is lost. -/
def Gathered.data : Gathered → Plain
  | .members known => .record known
  | .entries known => .map known
  | .items _ => .foreign .set

/-- The map that an ordered list of pairs is. Its keys are different. -/
def orderedData (dataOf : DataOf) (entries : List (Node × Option Node)) : Convert Plain := do
  let add (found : List (Plain × Plain)) (entry : Node × Option Node)
      : Convert (List (Plain × Plain)) := do
    let key ← dataOf entry.1
    let value ← (entry.2.mapM dataOf)
    if found.any fun other => Plain.isSameKey other.1 key then stop "key twice"
    return found ++ [(key, value.getD .null)]
  return .map (← entries.foldlM add [])

/-- The data of a node without regard to its anchor. -/
def contentData (scope : Scope) (dataOf : DataOf) (gather : Gather) (fuel : Nat)
    : Node → Convert Plain
  | reference _ target? _ => aliasData scope dataOf fuel target?
  | scalar reading _ _ _ => pure reading.value
  | list items _ => return .list (← items.mapM dataOf)
  | map entries isSet _ =>
    return (← gather (if isSet then .items [] else .members []) entries).data
  | pairs entries true _ => orderedData dataOf entries
  | pairs entries false _ => do
    let items ← entries.mapM fun entry => gather (.members []) [entry]
    return .list (items.map Gathered.data)

mutual

/-- The data of a node. -/
def dataOf (scope : Scope) : Nat → DataOf
  | 0, _ => stop "nested too deeply"
  | fuel + 1, node => do
    let content := contentData scope (dataOf scope fuel) (gather scope fuel) fuel
    match node.facts.anchor? with
    | none => content node
    | some (_, number) =>
      setUse number ⟨1, 0, none⟩
      let data ← content node
      match ← useOf number with
      | some use => setUse number { use with data? := some data }
      | none => pure ()
      return data

/-- Adds the entries of a map. -/
def gather (scope : Scope) : Nat → Gather
  | 0, _, _ => stop "nested too deeply"
  | fuel + 1, found, entries =>
    entries.foldlM (addData scope (dataOf scope fuel) (gather scope fuel) fuel) found

end

/-- The data of the node of a document, with the nodes of its anchors. -/
def data (scope : Scope) (fuel : Nat) (node : Node) : Except Mistake Plain :=
  (dataOf scope fuel node).run' (scope.nodes.map fun _ => none)

end Node

end Stencil.Data.Yaml
