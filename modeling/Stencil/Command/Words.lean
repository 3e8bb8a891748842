import Stencil.Command.Halt
import Stencil.Text.Search

/-!
The words of a command line, sorted into options with their values, operands, and the words
from the first unknown option on.
-/

namespace Stencil.Command

/-- Whether a word looks like an option: a hyphen and something after it. -/
def isOptionLike (word : String) : Bool :=
  match word.toList with
  | '-' :: _ :: _ => true
  | _ => false

/-- How a word reads among the options of a command. -/
inductive Reading where
  /-- The word is an option. -/
  | option (flag : Flag)
  /-- The word is an option and its value. -/
  | withValue (flag : Flag) (value : String)
  /-- The word is a short option without values, run together with other ones. -/
  | cluster (flag : Flag) (others : String)
  /-- The word is anything else. -/
  | other
  deriving DecidableEq, Repr, Inhabited

/-- How a word reads that starts with a short option. -/
def readShort (flags : List Flag) (word : String) : Reading :=
  match word.toList with
  | '-' :: letter :: c :: rest =>
    match flags.find? (·.short? == some letter) with
    | some flag =>
      if flag.takesValue then .withValue flag (String.ofList (c :: rest))
      else .cluster flag (String.ofList ('-' :: c :: rest))
    | none => .other
  | _ => .other

/-- How a word reads that joins a long option and a value by an equals sign. -/
def readLong (flags : List Flag) (word : String) : Reading :=
  match Text.cutAt? ['='] word.toList with
  | some (spelling, value) =>
    match flags.find? (·.longText == String.ofList spelling) with
    | some flag => if flag.takesValue then .withValue flag (String.ofList value) else .other
    | none => .other
  | none => .other

/-- How a word reads. -/
def read (flags : List Flag) (word : String) : Reading :=
  match flags.find? (·.isSpelledBy word) with
  | some flag => .option flag
  | none =>
    match readShort flags word with
    | .other => readLong flags word
    | reading => reading

/-- What remains of a word after its first short option is shorter. -/
theorem length_of_readShort {flags : List Flag} {word others : String} {flag : Flag}
    (h : readShort flags word = .cluster flag others)
    : others.toList.length < word.toList.length := by
  unfold readShort at h
  split at h
  · rename_i eq
    split at h
    · split at h
      · simp at h
      · simp only [Reading.cluster.injEq] at h
        simp [← h.2, eq]
    · simp at h
  · simp at h

/-- No long option is read as several short ones. -/
theorem readLong_ne_cluster {flags : List Flag} {word others : String} {flag : Flag}
    : readLong flags word ≠ .cluster flag others := by
  unfold readLong
  split
  · split
    · split <;> simp
    · simp
  · simp

/-- What remains of a word after its first short option is shorter. -/
theorem length_of_read {flags : List Flag} {word others : String} {flag : Flag}
    (h : read flags word = .cluster flag others)
    : others.toList.length < word.toList.length := by
  unfold read at h
  split at h
  · simp at h
  · split at h
    · exact absurd h readLong_ne_cluster
    · exact length_of_readShort h

/-- The words of a command line, sorted. -/
structure Sorted where
  given : List (Key × String) := []
  operands : List String := []
  unknown : List String := []
  deriving DecidableEq, Repr, Inhabited

namespace Sorted

/-- Adds an option with its value in front. -/
def give (key : Key) (value : String) (sorted : Sorted) : Sorted :=
  { sorted with given := (key, value) :: sorted.given }

/-- Adds words that no option takes in front: to the unknown words once an unknown option
stands before them, else to the operands.
-/
def pass (isUnknown : Bool) (words : List String) (sorted : Sorted) : Sorted :=
  if isUnknown then { sorted with unknown := words ++ sorted.unknown }
  else { sorted with operands := words ++ sorted.operands }

/-- Whether an option is given. -/
def has (sorted : Sorted) (key : Key) : Bool :=
  sorted.given.any (·.1 == key)

/-- The values of an option, in order. -/
def values (sorted : Sorted) (key : Key) : List String :=
  (sorted.given.filter (·.1 == key)).map (·.2)

/-- The last value of an option. -/
def last? (sorted : Sorted) (key : Key) : Option String :=
  (sorted.values key).getLast?

end Sorted

/-- Takes note of an option. The version is told at once, and numbers are checked. -/
def accept (flag : Flag) (value : String) : Except Halt Unit :=
  match flag.key with
  | .version => .error .version
  | .maxSteps =>
    if (positiveInteger? value).isSome then .ok ()
    else .error (.misuse (.badNumber flag value))
  | _ => .ok ()

/-- The space that words take, counting one more for each. -/
def space : List String → Nat
  | [] => 0
  | word :: words => word.toList.length + 1 + space words

/-- What remains after the first short option of a word takes less space. -/
theorem space_of_read {flags : List Flag} {word others : String} {flag : Flag}
    (h : read flags word = .cluster flag others) (words : List String)
    : space (others :: words) < space (word :: words) := by
  have := length_of_read h
  simp only [space]
  omega

/-- Sorts words among the options of a command. While `taker?` is an option that takes many
values, words that do not look like options are values of it. Two hyphens end the options.
-/
def sortWords (flags : List Flag) (taker? : Option Flag) (isUnknown : Bool)
    : List String → Except Halt Sorted
  | [] => .ok {}
  | "--" :: words =>
    .ok (Sorted.pass isUnknown (if isUnknown then "--" :: words else words) {})
  | word :: words =>
    match taker?.filter (fun _ => !isOptionLike word) with
    | some taker => do
      accept taker word
      return (← sortWords flags (some taker) isUnknown words).give taker.key word
    | none =>
      if !isOptionLike word then do
        return (← sortWords flags none isUnknown words).pass isUnknown [word]
      else
        match _h : read flags word with
        | .option flag =>
          if flag.takesValue then
            match words with
            | [] => .error (.misuse (.missingValue flag))
            | value :: words => do
              accept flag value
              let taker? := if flag.takesMany then some flag else none
              return (← sortWords flags taker? isUnknown words).give flag.key value
          else do
            accept flag ""
            return (← sortWords flags none isUnknown words).give flag.key ""
        | .withValue flag value => do
          accept flag value
          return (← sortWords flags none isUnknown words).give flag.key value
        | .cluster flag others => do
          accept flag ""
          return (← sortWords flags none isUnknown (others :: words)).give flag.key ""
        | .other => do
          return (← sortWords flags none true words).pass true [word]
termination_by words => space words
decreasing_by
  all_goals first | exact space_of_read ‹_› words | (simp only [space]; omega)

end Stencil.Command
