import Stencil.Text.Search

/-!
Styles of terminal texts: a code before the text turns a style on, and one after it turns the
style off. Codes never reach over the end of a line.
-/

namespace Stencil.Report

/-- The styles in use. -/
inductive Style where
  | red
  | green
  | yellow
  | blue
  | gray
  | bold
  | dim
  deriving DecidableEq, Repr

/-- A code with a number. -/
def code (number : String) : List Char :=
  ('\x1b' :: '[' :: number.toList) ++ ['m']

/-- The code that turns a style on. -/
def Style.on : Style → List Char
  | red => code "31"
  | green => code "32"
  | yellow => code "33"
  | blue => code "34"
  | gray => code "90"
  | bold => code "1"
  | dim => code "2"

/-- The code that turns a style off. -/
def Style.off : Style → List Char
  | bold => code "22"
  | dim => code "22"
  | _ => code "39"

/-- A text in which every `mark` is followed by `addition`. The fuel bounds the number of
marks.
-/
def addAfter (mark addition : List Char) : Nat → List Char → List Char
  | 0, text => text
  | fuel + 1, text =>
    match Text.cutAt? mark text with
    | none => text
    | some (before, after) => before ++ mark ++ addition ++ addAfter mark addition fuel after

/-- A text whose lines each end with `off` and start anew with `on`. A carriage return before a
line feed belongs to the line end.
-/
def wrapLines (on off : List Char) : List Char → List Char
  | [] => []
  | '\r' :: '\n' :: rest => off ++ ('\r' :: '\n' :: on) ++ wrapLines on off rest
  | '\n' :: rest => off ++ ('\n' :: on) ++ wrapLines on off rest
  | c :: rest => c :: wrapLines on off rest

/-- A text in a style, if styles are shown. An empty text gets no codes. -/
def paint (isStyled : Bool) (style : Style) (text : String) : String :=
  if isStyled && text ≠ "" then
    let inner := addAfter style.off style.on text.length text.toList
    String.ofList (style.on ++ wrapLines style.on style.off inner ++ style.off)
  else text

end Stencil.Report
