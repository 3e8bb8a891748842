import Stencil.Files.PathText
import Stencil.Regex.Reader

/-!
The directories of patterns: what stands before the first name that may be matched by more than
its own text.
-/

namespace Stencil.Files.Glob

/-- Whether parentheses after a mark stand in a text, on one line. -/
def hasMarkedParentheses : List Char → Bool
  | [] => false
  | '\\' :: c :: rest =>
    if UnitSet.lineEnds.has c.toNat then hasMarkedParentheses (c :: rest)
    else hasMarkedParentheses rest
  | c :: rest =>
    let isLine (c : Char) : Bool := !UnitSet.lineEnds.has c.toNat
    "@?!+*".toList.contains c && rest.head? == some '('
        && (rest.takeWhile isLine).contains ')'
      || hasMarkedParentheses rest

/-- Whether a mark closes what a text opens, before any backslash. -/
def isClosedBy (mark : Char) (text : List Char) : Bool :=
  let inner := text.takeWhile (· != mark)
  inner.length < text.length && !inner.contains '\\'

/-- The mark that closes what another mark opens. -/
def closing? (mark : Char) : Option Char :=
  if mark == '\x7b' then some '\x7d'
  else if mark == '(' then some ')'
  else if mark == '[' then some ']'
  else none

/-- What follows an escape, after its backslash. An escaped opening mark goes on to the closing
one.
-/
def afterEscape (text : List Char) : List Char :=
  match text with
  | [] => []
  | mark :: rest =>
    let inner := rest.takeWhile fun c => some c != closing? mark
    if inner.length < rest.length then rest.drop (inner.length + 1) else rest

/-- Whether a choice in parentheses starts a text, and what comes behind the bar if one does. -/
def behindBar? (text : List Char) : Option (List Char) :=
  match text with
  | '(' :: '|' :: _ => none
  | '(' :: rest =>
    let behind := rest.dropWhile (· != '|')
    if behind.isEmpty || (behind.drop 1).head? == some ')' then none else some behind
  | _ => none

/-- Whether a group that captures nothing starts a text. -/
def startsGroup (text : List Char) : Bool :=
  match text with
  | '(' :: '?' :: mark :: rest =>
    (mark == ':' || mark == '!' || mark == '=') && rest.head? != some ')'
  | _ => false

/-- Whether an opening mark starts a text, is followed by something, and is closed. -/
def startsClosed (mark closing : Char) (text : List Char) : Bool :=
  text.head? == some mark && (text.drop 1).head? != some closing && isClosedBy closing text

/-- Whether one of the marks that may match several texts starts a text. Groups count only while
choices have been closed.
-/
def startsOpen (areClosed : Bool) (text : List Char) : Bool :=
  text.head? == some '*'
    || (text.head?.any "].+)".toList.contains && (text.drop 1).head? == some '?')
    || startsClosed '[' ']' text
    || startsClosed '\x7b' '\x7d' text
    || (areClosed && startsGroup text && isClosedBy ')' text)
    || (behindBar? text).any (isClosedBy ')')

/-- Whether a mark that may match several texts stands in a text, with a bound on its length. -/
def hasOpenWithin (areClosed : Bool) : Nat → List Char → Bool
  | 0, _ => false
  | _ + 1, [] => false
  | fuel + 1, c :: rest =>
    if startsOpen areClosed (c :: rest) then true
    else if c == '\\' then
      let rest := afterEscape rest
      rest.head? == some '!' || hasOpenWithin areClosed fuel rest
    else
      let isUnclosed := (behindBar? (c :: rest)).any fun behind => !behind.contains ')'
      hasOpenWithin (areClosed && !isUnclosed) fuel rest

/-- Whether a path text may match several paths. -/
def isOpenPath (text : List Char) : Bool :=
  !text.isEmpty
    && (hasMarkedParentheses text || text.head? == some '!'
      || hasOpenWithin true text.length text)

/-- Whether a path text ends within something that it opens, or opens brackets or braces. -/
def isCut (text : List Char) : Bool :=
  Regex.finds "(^|[^\\\\])([\\\x7b\\[]|\\([^\\)]+$)" text

/-- The first directory above a path that matches only its own text, with a bound on the number
of names.
-/
def spelledParent : Nat → List Char → List Char
  | 0, text => text
  | fuel + 1, text =>
    let parent := (PathText.parent (String.ofList text)).toList
    if isOpenPath parent || isCut parent then spelledParent fuel parent else parent

/-- A text without backslashes before marks. -/
def unescaped : List Char → List Char
  | '\\' :: c :: rest =>
    if "!*?|[]()\x7b\x7d".toList.contains c then c :: unescaped rest
    else '\\' :: unescaped (c :: rest)
  | c :: rest => c :: unescaped rest
  | [] => []

/-- The directory of a pattern. A pattern that ends with brackets or braces has them in its
directory.
-/
def baseOf (text : List Char) : List Char :=
  let isEnclosed := Regex.finds "[\\\x7b\\[].*[\\\x7d\\]]$" text
  let path := if isEnclosed then text ++ ['/', 'a'] else text ++ ['a']
  unescaped (spelledParent (path.length + 1) path)

end Stencil.Files.Glob
