import Stencil.Number.Literal
import Stencil.Regex

/-!
Reading regular expressions. What is no mark in its place stands for itself.
-/

namespace Stencil.Regex

/-- What is left of a text, and the number of the next group in it. -/
structure Unread where
  text : List Char
  nextGroup : Nat
  deriving Repr

/-- Readers of regular expressions, that are given the number of all groups. -/
abbrev ReadPart := Unread → Option (Regex × Unread)

/-- The number at the start of a text. -/
def number? (text : List Char) : Option (Nat × List Char) :=
  let digits := text.takeWhile Char.isDigit
  (Number.natOfDigits? 10 digits).map fun n => (n, text.drop digits.length)

/-- The least and the greatest number in braces, after the opening one. -/
def bounds? (text : List Char) : Option ((Nat × Option Nat) × List Char) := do
  let (least, rest) ← number? text
  match rest with
  | '\x7d' :: rest => some ((least, some least), rest)
  | ',' :: '\x7d' :: rest => some ((least, none), rest)
  | ',' :: rest =>
    let (most, rest) ← number? rest
    match rest with
    | '\x7d' :: rest => some ((least, some most), rest)
    | _ => none
  | _ => none

/-- The bounds that a mark of repetition at the start of a text gives. -/
def repetition? (text : List Char) : Option ((Nat × Option Nat) × List Char) :=
  match text with
  | '*' :: rest => some ((0, none), rest)
  | '+' :: rest => some ((1, none), rest)
  | '?' :: rest => some ((0, some 1), rest)
  | '\x7b' :: rest => bounds? rest
  | _ => none

/-- An expression with the repetition that follows it, if one does. -/
def repeatedAs (body : Regex) (unread : Unread) : Option (Regex × Unread) :=
  match repetition? unread.text with
  | none => some (body, unread)
  | some ((least, most?), rest) =>
    if most?.any (· < least) then none
    else
      match rest with
      | '?' :: rest => some (.times least most? true body, { unread with text := rest })
      | rest => some (.times least most? false body, { unread with text := rest })

/-- The expression of a character, of which a repetition only repeats the last unit. -/
def readLiteral (c : Char) (unread : Unread) : Option (Regex × Unread) :=
  match Text.unitsOf c with
  | [high, low] => do
    let (last, unread) ← repeatedAs (.exactly low) unread
    some (.sequence (.exactly high) last, unread)
  | _ => repeatedAs (.exactly c.toNat) unread

/-- The value of hexadecimal digits at the start of a text. -/
def hex? (count : Nat) (text : List Char) : Option (Nat × List Char) :=
  let digits := text.take count
  if digits.length = count then
    (Number.natOfDigits? 16 digits).map fun n => (n, text.drop count)
  else none

/-- The value of up to three octal digits below 256 at the start of a text. -/
def octal? (text : List Char) : Option (Nat × List Char) :=
  let isOctal (c : Char) : Bool := '0' ≤ c && c ≤ '7'
  let most := if text.head?.any (· ≤ '3') then 3 else 2
  let digits := (text.take most).takeWhile isOctal
  (Number.natOfDigits? 8 digits).map fun n => (n, text.drop digits.length)

/-- The letters that stand for control characters after a backslash. -/
def controls : List (Char × Nat) :=
  [('f', 0xc), ('n', 0xa), ('r', 0xd), ('t', 0x9), ('v', 0xb)]

/-- The letters that stand for sets after a backslash. -/
def sets : List (Char × UnitSet) :=
  [('d', UnitSet.digits), ('D', UnitSet.digits.complement), ('w', UnitSet.wordChars),
    ('W', UnitSet.wordChars.complement), ('s', Text.blankRanges),
    ('S', UnitSet.complement Text.blankRanges)]

/-- The units that an escape stands for, after its backslash. -/
def escapedUnits (text : List Char) : Option (List Nat × List Char) :=
  match text with
  | [] => none
  | 'c' :: letter :: rest =>
    if letter.isAlpha then some ([letter.toNat % 32], rest)
    else some (['\\'.toNat], text)
  | 'c' :: rest => some (['\\'.toNat], 'c' :: rest)
  | 'x' :: rest => some (((hex? 2 rest).map fun found => ([found.1], found.2)).getD
      (['x'.toNat], rest))
  | 'u' :: rest => some (((hex? 4 rest).map fun found => ([found.1], found.2)).getD
      (['u'.toNat], rest))
  | c :: rest =>
    match controls.lookup c, octal? text with
    | some unit, _ => some ([unit], rest)
    | none, some (unit, rest) => some ([unit], rest)
    | none, none => some (Text.unitsOf c, rest)

/-! Sets in brackets -/

/-- What stands in brackets: units, and sets. -/
inductive Member where
  | one (unit : Nat)
  | set (units : UnitSet)
  deriving Repr

/-- The units of a member. -/
def Member.units : Member → UnitSet
  | one unit => [(unit, unit)]
  | set units => units

/-- The members up to the closing bracket, and the text after that. -/
def members? : Nat → List Char → Option (List Member × List Char)
  | 0, _ => none
  | _ + 1, [] => none
  | _ + 1, ']' :: rest => some ([], rest)
  | fuel + 1, '\\' :: rest =>
    match rest with
    | [] => none
    | 'b' :: rest => (members? fuel rest).map fun found => (.one 8 :: found.1, found.2)
    | c :: after =>
      match sets.lookup c with
      | some units => (members? fuel after).map fun found => (.set units :: found.1, found.2)
      | none => do
        let (units, rest) ← escapedUnits rest
        let (members, rest) ← members? fuel rest
        some (units.map .one ++ members, rest)
  | fuel + 1, c :: rest =>
    (members? fuel rest).map fun found => ((Text.unitsOf c).map .one ++ found.1, found.2)

/-- The set of members, of which a hyphen between two makes a range; nothing if a range has no
units.
-/
def unitsOfMembers : List Member → Option UnitSet
  | [] => some []
  | [member] => some member.units
  | member :: .one 0x2d :: [] => some (member.units ++ [(0x2d, 0x2d)])
  | .one first :: .one 0x2d :: .one last :: rest =>
    if first ≤ last then (unitsOfMembers rest).map ((first, last) :: ·) else none
  | first :: .one 0x2d :: last :: rest =>
    (unitsOfMembers rest).map fun units => first.units ++ (0x2d, 0x2d) :: last.units ++ units
  | member :: rest => (unitsOfMembers rest).map (member.units ++ ·)

/-- The set after an opening bracket. -/
def readSet (text : List Char) : Option (Regex × List Char) := do
  let (isNegated, text) :=
    match text with
    | '^' :: rest => (true, rest)
    | text => (false, text)
  let (members, rest) ← members? (text.length + 1) text
  let units ← unitsOfMembers members
  some (.oneOf isNegated units, rest)

/-! Terms -/

/-- The expression of an escape, after its backslash. A number of a group refers back to it. -/
def readEscape (groups : Nat) (unread : Unread) : Option (Regex × Unread) :=
  match unread.text with
  | [] => none
  | 'b' :: rest => some (.boundary false, { unread with text := rest })
  | 'B' :: rest => some (.boundary true, { unread with text := rest })
  | c :: rest =>
    match sets.lookup c with
    | some units => repeatedAs (.oneOf false units) { unread with text := rest }
    | none =>
      match if c = '0' then none else (number? unread.text).filter (·.1 ≤ groups) with
      | some (number, rest) => repeatedAs (.repeated number) { unread with text := rest }
      | none => do
        let (units, rest) ← escapedUnits unread.text
        match units with
        | [high, low] =>
          let (last, unread) ← repeatedAs (.exactly low) { unread with text := rest }
          some (.sequence (.exactly high) last, unread)
        | units => repeatedAs (.exactly (units.headD 0)) { unread with text := rest }

/-- The text after the name of a group. -/
def afterName? (text : List Char) : Option (List Char) :=
  let name := text.takeWhile (· != '>')
  let isNameChar (c : Char) : Bool := c.isAlphanum || c == '_' || c == '$' || 0x80 ≤ c.toNat
  if name.isEmpty || !name.all isNameChar || name.head?.any Char.isDigit then none
  else if name.length < text.length then some (text.drop (name.length + 1))
  else none

/-- An expression in parentheses, read by a reader of what is between them. -/
def inParentheses (read : ReadPart) (unread : Unread) : Option (Regex × Unread) := do
  let (body, unread) ← read unread
  match unread.text with
  | ')' :: rest => some (body, { unread with text := rest })
  | _ => none

/-- What an opening parenthesis begins, after that. Only looks at the text before a place cannot
be repeated.
-/
def readGroup (read : ReadPart) (unread : Unread) : Option (Regex × Unread) :=
  let within (rest : List Char) : Option (Regex × Unread) :=
    inParentheses read { unread with text := rest }
  let repeats (found : Regex × Unread) : Option (Regex × Unread) := repeatedAs found.1 found.2
  let numbered (rest : List Char) : Option (Regex × Unread) := do
    let (body, after) ← inParentheses read ⟨rest, unread.nextGroup + 1⟩
    repeatedAs (.group unread.nextGroup body) after
  match unread.text with
  | '?' :: ':' :: rest => (within rest).bind repeats
  | '?' :: '=' :: rest =>
    (within rest).bind fun found => repeats (.look true false found.1, found.2)
  | '?' :: '!' :: rest =>
    (within rest).bind fun found => repeats (.look true true found.1, found.2)
  | '?' :: '<' :: '=' :: rest =>
    (within rest).map fun found => (.look false false found.1, found.2)
  | '?' :: '<' :: '!' :: rest =>
    (within rest).map fun found => (.look false true found.1, found.2)
  | '?' :: '<' :: rest => (afterName? rest).bind numbered
  | '?' :: _ => none
  | rest => numbered rest

/-- A term: an expression that is neither a choice nor a sequence. -/
def readTerm (groups : Nat) (read : ReadPart) (unread : Unread) : Option (Regex × Unread) :=
  match unread.text with
  | [] => none
  | c :: rest =>
    let after : Unread := { unread with text := rest }
    match c with
    | '^' => some (.start, after)
    | '$' => some (.stop, after)
    | '.' => repeatedAs (.oneOf true UnitSet.lineEnds) after
    | '(' => readGroup read after
    | '\\' => readEscape groups after
    | '[' => do
      let (set, rest) ← readSet rest
      repeatedAs set { after with text := rest }
    | c => if (repetition? unread.text).isSome then none else readLiteral c after

mutual

/-- A choice between sequences. -/
def readEither (groups : Nat) : Nat → ReadPart
  | 0, _ => none
  | fuel + 1, unread => do
    let (first, unread) ← readSequence groups fuel unread
    match unread.text with
    | '|' :: rest =>
      let (second, unread) ← readEither groups fuel { unread with text := rest }
      some (.either first second, unread)
    | _ => some (first, unread)

/-- A sequence of terms. -/
def readSequence (groups : Nat) : Nat → ReadPart
  | 0, _ => none
  | fuel + 1, unread =>
    match unread.text with
    | [] => some (.empty, unread)
    | '|' :: _ => some (.empty, unread)
    | ')' :: _ => some (.empty, unread)
    | _ => do
      let (first, unread) ← readTerm groups (readEither groups fuel) unread
      let (second, unread) ← readSequence groups fuel unread
      some (.sequence first second, unread)

end

/-- The number of groups in a text, of which some may be in brackets. -/
def countGroups (isInSet : Bool) : List Char → Nat
  | [] => 0
  | '\\' :: rest => countGroups isInSet (rest.drop 1)
  | '[' :: rest => countGroups true rest
  | ']' :: rest => countGroups false rest
  | '(' :: rest =>
    let isNumbered :=
      match rest with
      | '?' :: '<' :: '=' :: _ => false
      | '?' :: '<' :: '!' :: _ => false
      | '?' :: '<' :: _ => true
      | '?' :: _ => false
      | _ => true
    (if isNumbered && !isInSet then 1 else 0) + countGroups isInSet rest
  | _ :: rest => countGroups isInSet rest
termination_by text => text.length

/-- The expression that a text spells. -/
def ofText? (text : List Char) : Option Regex :=
  match readEither (countGroups false text) (3 * text.length + 3) ⟨text, 1⟩ with
  | some (regex, ⟨[], _⟩) => some regex
  | _ => none

/-- Whether the expression that a text spells matches somewhere in another text. -/
def finds (expression : String) (text : List Char) : Bool :=
  (ofText? expression.toList).any (·.isFoundIn text)

end Stencil.Regex
