/-!
Texts: blank characters, the set that trimming removes and that separates the words of a tag, and
the 16-bit units that texts are counted in.
-/

namespace Stencil.Text

/-! ### Blank characters -/

/-- The code point ranges of the blank characters, both ends included: the control blanks,
the space, the byte order mark and every other space or line separator of Unicode. U+0085
and the zero-width U+180E and U+200B are not blank.
-/
def blankRanges : List (Nat × Nat) :=
  [(0x9, 0xD), (0x20, 0x20), (0xA0, 0xA0), (0x1680, 0x1680), (0x2000, 0x200A),
    (0x2028, 0x2029), (0x202F, 0x202F), (0x205F, 0x205F), (0x3000, 0x3000),
    (0xFEFF, 0xFEFF)]

/-- Whether a character is blank. -/
def isBlank (c : Char) : Bool :=
  blankRanges.any fun range => range.1 ≤ c.toNat && c.toNat ≤ range.2

/-- The text without its leading blanks. -/
def trimStart (text : List Char) : List Char :=
  text.dropWhile isBlank

/-- The text without its trailing blanks. -/
def trimEnd (text : List Char) : List Char :=
  (text.reverse.dropWhile isBlank).reverse

/-- The text without leading and trailing blanks. -/
def trim (text : List Char) : List Char :=
  trimEnd (trimStart text)

/-! ### Units -/

/-- The number of 16-bit units of a character. -/
def unitWidth (c : Char) : Nat :=
  if c.toNat < 0x10000 then 1 else 2

/-- The number of 16-bit units of a text. -/
def units (text : List Char) : Nat :=
  text.foldl (fun total c => total + unitWidth c) 0

/-- The 16-bit units of a character: itself, or a high and a low surrogate. -/
def unitsOf (c : Char) : List Nat :=
  if c.toNat < 0x10000 then [c.toNat]
  else [0xD800 + (c.toNat - 0x10000) / 0x400, 0xDC00 + (c.toNat - 0x10000) % 0x400]

/-- The character of a 16-bit unit that stands alone, or of a code point: a replacement character
for half of a pair.
-/
def ofUnit (unit : Nat) : Char :=
  if 0xD800 ≤ unit && unit < 0xE000 then '\ufffd' else Char.ofNat unit

/-- The characters of a list of 16-bit units and code points. -/
def ofUnits : List Nat → List Char
  | [] => []
  | [unit] => [ofUnit unit]
  | unit :: low :: rest =>
    if 0xD800 ≤ unit && unit < 0xDC00 && 0xDC00 ≤ low && low < 0xE000 then
      Char.ofNat (0x10000 + (unit - 0xD800) * 0x400 + (low - 0xDC00)) :: ofUnits rest
    else ofUnit unit :: ofUnits (low :: rest)

/-- Whether the first list comes before the second or equals it, compared item by item. -/
def lexLE : List Nat → List Nat → Bool
  | [], _ => true
  | _ :: _, [] => false
  | a :: as, b :: bs => a < b || (a == b && lexLE as bs)

/-- The order of texts by their 16-bit units. -/
def unitsLE (a b : String) : Bool :=
  lexLE (a.toList.flatMap unitsOf) (b.toList.flatMap unitsOf)

/-- Texts in the order of their 16-bit units. -/
def sortByUnits (texts : List String) : List String :=
  texts.mergeSort unitsLE

end Stencil.Text
