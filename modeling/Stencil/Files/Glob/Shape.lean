import Stencil.Files.PathText
import Stencil.Regex.Reader

/-!
The shape of patterns: whether a text stands for more than the one path that it spells.
-/

namespace Stencil.Files.Glob

/-- Whether a text has braces with a comma or two dots in them. -/
def hasChoice (text : List Char) : Bool :=
  let behind := text.dropWhile (· != '\x7b')
  let inner := behind.takeWhile (· != '\x7d')
  inner.length < behind.length && Regex.finds ",|\\.\\." inner

/-- Whether a text stands for more than the one path that it spells: it has a backslash, a star,
a question mark, a negation, brackets, parentheses with a choice or after a mark, or braces with
a choice.
-/
def isOpenEnded (text : List Char) : Bool :=
  text.any (fun c => c == '\\' || c == '*' || c == '?')
    || text.head? == some '!'
    || Regex.finds "\\[[^[]*]" text
    || Regex.finds "(?:^|[^!*+?@])\\([^(]*\\|[^|]*\\)" text
    || Regex.finds "[!*+?@]\\([^(]*\\)" text
    || hasChoice text

/-- Whether a pattern text takes files away. -/
def isNegative (text : List Char) : Bool :=
  text.head? == some '!' && (text.drop 1).head? != some '('

/-- A pattern text without the mark that it takes files away. -/
def positive (text : List Char) : List Char :=
  if isNegative text then text.drop 1 else text

/-- Whether a pattern text leads out of the directory that it is seen from. -/
def leadsOut (text : List Char) : Bool :=
  "..".toList.isPrefixOf text || "./..".toList.isPrefixOf text

/-- Whether a pattern text, taken away, also takes away all below a directory it matches: it
ends with two stars, or its last name spells one.
-/
def coversFolders (text : List Char) : Bool :=
  "/**".toList.isSuffixOf text || !isOpenEnded (PathText.baseName text)

/-- A text without slashes that follow others, the first character apart. -/
def singleSlashes : List Char → List Char
  | [] => []
  | c :: rest => c :: go c rest
where
  /-- Goes on after a character. -/
  go (last : Char) : List Char → List Char
    | [] => []
    | c :: rest => if c == '/' && last == '/' then go last rest else c :: go c rest

end Stencil.Files.Glob
