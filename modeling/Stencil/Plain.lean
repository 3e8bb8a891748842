import Stencil.Number.Layout

/-!
Plain data: what data files, configuration files and callers hand in before it becomes a value
tree. A record enumerates its index-like keys first, in ascending order, and its other keys in
the order in which they first came.
-/

namespace Stencil

/-- What a place in plain data may hold besides texts, numbers, lists, records and the like. -/
inductive Foreign where
  /-- A function with the text that it has. What it gives is zero. -/
  | function (source : String := "() => 0")
  | symbol (description : String)
  /-- A set, whatever is in it. -/
  | set
  /-- An object of a class. -/
  | object (className : String)
  /-- An object of no class at all, with no members of its own. -/
  | bare
  deriving DecidableEq, Repr, Inhabited

/-- The kind named for a foreign datum. -/
def Foreign.kind : Foreign → String
  | .function _ => "function"
  | .symbol _ => "symbol"
  | .set => "object"
  | .object _ => "object"
  | .bare => "object"

/-- Plain data. A list has an item at each of its indexes. A record is kept in the order in which it
enumerates its keys; a time is a time value or, for an invalid time, nothing. The keys of a map are
data of any kind.
-/
inductive Plain where
  | null
  | absent
  | boolean (b : Bool)
  | number (x : Number)
  | integer (n : Int)
  | text (s : String)
  | time (millis? : Option Int)
  | bytes (octets : List UInt8)
  | foreign (kind : Foreign)
  | list (items : List Plain)
  | record (members : List (String × Plain))
  | map (entries : List (Plain × Plain))
  deriving Inhabited, Repr

namespace Plain

/-- The number of a key that is the canonical decimal text of an index below `Nat.pow 2 32 - 1`. -/
def indexOf? (key : String) : Option Nat :=
  match key.toList with
  | [] => none
  | ['0'] => some 0
  | first :: rest =>
    if first == '0' || !(first :: rest).all Char.isDigit || rest.length > 9 then none
    else
      let index := (first :: rest).foldl (fun n c => 10 * n + (c.toNat - '0'.toNat)) 0
      if index < Nat.pow 2 32 - 1 then some index else none

/-- Whether a new key is enumerated before a key that is already there. -/
def precedes (key other : String) : Bool :=
  match indexOf? key, indexOf? other with
  | some i, some j => i < j
  | some _, none => true
  | none, _ => false

/-- Sets the member of a key: in place if the key is there, at the place of the key in the
order of enumeration otherwise.
-/
def put (key : String) (value : Plain)
    : List (String × Plain) → List (String × Plain)
  | [] => [(key, value)]
  | (k, v) :: rest =>
    if k = key then (key, value) :: rest
    else if precedes key k then (key, value) :: (k, v) :: rest
    else (k, v) :: put key value rest

/-- The members that setting pairs one after the other gives. -/
def membersOf (pairs : List (String × Plain)) : List (String × Plain) :=
  pairs.foldl (fun members pair => put pair.1 pair.2 members) []

/-- The record with the given pairs; a repeated key keeps its last value. -/
def ofPairs (pairs : List (String × Plain)) : Plain :=
  record (membersOf pairs)

/-- The members of a record, and none of anything else. -/
def members : Plain → List (String × Plain)
  | record members => members
  | _ => []

/-- The number that a natural number is rounded to. -/
def ofNat (n : Nat) : Plain :=
  number (Number.ofNat n)

/-- Data under their indexes, from a given one on. -/
def indexed : Nat → List Plain → List (String × Plain)
  | _, [] => []
  | index, item :: items => (toString index, item) :: indexed (index + 1) items

/-- The parts of data under their keys: the members of a record; the items of a list, the
characters of a text and the bytes of bytes under their indexes. Where nothing is, no parts can
be asked for.
-/
def parts? : Plain → Option (List (String × Plain))
  | null => none
  | absent => none
  | record members => some members
  | list items => some (indexed 0 items)
  | text s => some (indexed 0 (s.toList.map fun c => text (String.singleton c)))
  | bytes octets => some (indexed 0 (octets.map fun octet => ofNat octet.toNat))
  | _ => some []

/-- Whether two data are the same key of a map. Data with parts, times and symbols are only the
same as themselves, which is not known here.
-/
def isSameKey : Plain → Plain → Bool
  | null, null => true
  | absent, absent => true
  | boolean a, boolean b => a == b
  | number a, number b => a == b || (a.isZero && b.isZero)
  | integer m, integer n => m == n
  | text s, text t => s == t
  | _, _ => false

/-- Sets the value of a key of a map: in place if the key is there, and last otherwise. -/
def putEntry (key value : Plain) : List (Plain × Plain) → List (Plain × Plain)
  | [] => [(key, value)]
  | (k, v) :: rest =>
    if isSameKey k key then (k, value) :: rest else (k, v) :: putEntry key value rest

/-- Whether data count as true: all do but nothing, falsehood, zero, what is no number, and the
empty text.
-/
def isTrue : Plain → Bool
  | null => false
  | absent => false
  | boolean b => b
  | number x => x != .nan && !x.isZero
  | integer n => n != 0
  | text s => s != ""
  | _ => true

/-- The member of a record under a key; `absent` where there is none. -/
def member (key : String) (data : Plain) : Plain :=
  (data.members.lookup key).getD absent

/-- Whether a record has a key. -/
def hasMember (key : String) (data : Plain) : Bool :=
  (data.members.lookup key).isSome

end Plain

end Stencil
