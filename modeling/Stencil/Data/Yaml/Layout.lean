import Stencil.Data.Yaml.Lexeme

/-!
The layout of a YAML text: which lexemes belong to which node, as their places and their
indentation tell, before it is known what the nodes mean or whether the layout is allowed.
-/

namespace Stencil.Data.Yaml

/-- An entry of a collection: the lexemes before its key or item, its key, the lexemes between
the key and the value, and the value. Without a separator the value is an item of its own.
-/
structure Entry (α : Type) where
  start : List Lexeme
  isExplicit : Bool
  key? : Option α
  sep? : Option (List Lexeme)
  value? : Option α
  deriving Repr, Inhabited

/-- The layout of a node. Entries are kept with the last one first. -/
inductive Layout where
  /-- An alias or a scalar, and the lexemes after it on its line. -/
  | flat (lexeme : Lexeme) (ending? : Option (List Lexeme))
  /-- A block scalar: the lexemes of its header line and its text. -/
  | block (head : List Lexeme) (text : List Char) (offset indent : Nat) (isBroken : Bool)
  | map (offset indent : Nat) (entries : List (Entry Layout))
  | list (offset indent : Nat) (entries : List (Entry Layout))
  /-- A collection in brackets, and its closing bracket with the lexemes after it. -/
  | brackets (opening : Lexeme) (indent : Nat) (entries : List (Entry Layout))
      (closing : List Lexeme)
  /-- A lexeme that belongs to no node. -/
  | fault (offset : Nat)
  deriving Repr, Inhabited

namespace Entry

/-- An entry that has only begun. -/
def opened {α : Type} (start : List Lexeme) : Entry α :=
  ⟨start, false, none, none, none⟩

/-- An entry that has only an item. -/
def item {α : Type} (value : α) : Entry α :=
  ⟨[], false, none, none, some value⟩

/-- An entry with a key, or without one, and what follows it. -/
def keyed {α : Type} (start : List Lexeme) (key? : Option α) (sep : List Lexeme) : Entry α :=
  ⟨start, false, key?, some sep, none⟩

end Entry

namespace Layout

/-- The offset of a node. -/
def offset : Layout → Nat
  | flat lexeme _ => lexeme.offset
  | block _ _ offset _ _ => offset
  | map offset _ _ => offset
  | list offset _ _ => offset
  | brackets opening _ _ _ => opening.offset
  | fault offset => offset

/-- The indentation of a node. -/
def indent : Layout → Nat
  | flat lexeme _ => lexeme.indent
  | block _ _ _ indent _ => indent
  | map _ indent _ => indent
  | list _ indent _ => indent
  | brackets _ indent _ _ => indent
  | fault _ => 0

/-- Whether a node is an alias, a flow scalar or a collection in brackets. -/
def isFlow : Layout → Bool
  | flat _ _ => true
  | brackets _ _ _ _ => true
  | _ => false

/-- Whether a node is a map or a list without brackets. -/
def isBlock : Layout → Bool
  | map _ _ _ => true
  | list _ _ _ => true
  | _ => false

/-- The lexemes that end the line of a node, if there is a place for them. -/
def ending? : Layout → Option (List Lexeme)
  | flat _ ending? => ending?
  | brackets _ _ _ closing => some closing
  | _ => none

/-- A node with other lexemes at the end of its line. -/
def withEnding (ending : List Lexeme) : Layout → Layout
  | flat lexeme _ => flat lexeme (some ending)
  | brackets opening indent entries _ => brackets opening indent entries ending
  | node => node

/-- Whether a node is an item of its own by the marks in its entry: there is a separator, but
no value, no key mark and no value mark.
-/
def isLoneItem (entry : Entry Layout) : Bool :=
  match entry.sep?, entry.value? with
  | some sep, none => !hasKind .keyMark entry.start && !hasKind .valueMark sep
  | _, _ => false

/-- An entry of a list in brackets, with a key that turns out to be an item as an item. -/
def settled (entry : Entry Layout) : Entry Layout :=
  if !isLoneItem entry then entry
  else
    let sep := entry.sep?.getD []
    match entry.key? with
    | some node =>
      if node.isFlow then
        { entry with
          key? := none
          sep? := none
          value? := some (node.withEnding (node.ending?.getD [] ++ sep)) }
      else
        { entry with
          start := entry.start ++ sep, key? := none, sep? := none, value? := some node }
    | none => { entry with start := entry.start ++ sep, sep? := none }

/-- A collection in brackets once all its entries are there. -/
def closed : Layout → Layout
  | brackets opening indent entries closing =>
    brackets opening indent
      (if opening.kind == .listOpen then entries.map settled else entries) closing
  | node => node

/-- A node with other indentation. -/
def withIndent (indent : Nat) : Layout → Layout
  | block head text offset _ isBroken => block head text offset indent isBroken
  | brackets opening _ entries closing => brackets opening indent entries closing
  | node => node

/-- The entries of a map or list without brackets. -/
def entries : Layout → List (Entry Layout)
  | map _ _ entries => entries
  | list _ _ entries => entries
  | _ => []

/-- A map or list without its last entry. -/
def withoutLast : Layout → Layout
  | map offset indent (_ :: entries) => map offset indent entries
  | list offset indent (_ :: entries) => list offset indent entries
  | node => node

/-- A node and the gaps that its last entry consists of, if these may as well follow it. -/
def splitGaps? (node : Layout) : Option (Layout × List Lexeme) :=
  match node.entries with
  | ⟨start, _, _, none, none⟩ :: _ =>
    let isOutside (lexeme : Lexeme) : Bool :=
      lexeme.kind != .comment || decide (lexeme.indent < node.indent)
    if !start.isEmpty && start.all Lexeme.isGap
        && (node.indent = 0 || start.all isOutside) then
      some (node.withoutLast, start)
    else none
  | _ => none

end Layout

end Stencil.Data.Yaml
