import Stencil.Json.Writer
import Stencil.Report.Style

/-!
Logs: entries of different severity, and loggers that show those from a level on. An entry may
have a payload, shown on lines of its own.
-/

namespace Stencil.Log

open Stencil.Report (Style paint)

/-- The levels of a logger, from the most to the least talkative. -/
inductive Level where
  | debug
  | info
  | warn
  | error
  | silent
  deriving DecidableEq, Repr, Inhabited

/-- The place of a level in the order of levels. -/
def Level.rank : Level → Nat
  | debug => 0
  | info => 1
  | warn => 2
  | error => 3
  | silent => 4

/-- The name of a level. -/
def Level.name : Level → String
  | debug => "debug"
  | info => "info"
  | warn => "warn"
  | error => "error"
  | silent => "silent"

/-- The level with a name. -/
def Level.ofName? (name : String) : Option Level :=
  [debug, info, warn, error, silent].find? (·.name == name)

/-- The kinds of entries. -/
inductive Severity where
  | debug
  | info
  | warn
  | error
  | success
  | failure
  deriving DecidableEq, Repr, Inhabited

/-- The level at which entries of a kind are shown. -/
def Severity.level : Severity → Level
  | debug => .debug
  | info => .info
  | warn => .warn
  | error => .error
  | success => .info
  | failure => .info

/-- What an entry of a kind starts with. -/
def Severity.heading : Severity → String
  | debug => "[DEBUG] "
  | info => "[INFO] "
  | warn => "[WARN] "
  | error => "[ERROR] "
  | success => "✓ "
  | failure => "✗ "

/-- The style of entries of a kind. -/
def Severity.style : Severity → Style
  | debug => .gray
  | info => .blue
  | warn => .yellow
  | error => .red
  | success => .green
  | failure => .red

/-- What an entry shows besides its message. -/
inductive Payload where
  /-- Data, shown as JSON. -/
  | data (content : Plain)
  /-- A text, shown as it is. -/
  | trace (text : String)
  deriving Repr, Inhabited

/-- The payload that data are. Data that count as false are none. -/
def Payload.ofData? (content : Plain) : Option Payload :=
  if content.isTrue then some (.data content) else none

/-- The payload that a failure is: its trace, or its message where there is no trace. -/
def Payload.ofFailure (message stack : String) : Payload :=
  trace (if stack = "" then message else stack)

/-- The text of a payload. Functions and symbols have none in JSON. -/
def Payload.text : Payload → String
  | data (.foreign (.function _)) => "undefined"
  | data (.foreign (.symbol _)) => "undefined"
  | data content => Json.write .indented content
  | trace text => text

/-- An entry of a log, written under the label of a logger if that has one. -/
structure Entry where
  label : String
  severity : Severity
  message : String
  payload? : Option Payload := none
  deriving Repr, Inhabited

/-- The text of an entry. -/
def Entry.text (isStyled : Bool) (entry : Entry) : String :=
  let message :=
    if entry.label = "" then entry.message else "[" ++ entry.label ++ "] " ++ entry.message
  let line (text : String) : String := paint isStyled entry.severity.style text ++ "\n"
  line (entry.severity.heading ++ message)
    ++ (entry.payload?.map fun payload => line payload.text).getD ""

/-- The text of an entry at a level; nothing if entries of its kind are not shown there. -/
def Entry.textAt (level : Level) (isStyled : Bool) (entry : Entry) : String :=
  if level.rank ≤ entry.severity.level.rank then entry.text isStyled else ""

/-- A logger: its level and the label of its entries. -/
structure Logger where
  level : Level
  label : String
  deriving DecidableEq, Repr, Inhabited

/-- A logger as it starts: without a label, at the level of information. -/
def Logger.initial : Logger := ⟨.info, ""⟩

/-- A logger at the same level, with one more part of the label. -/
def Logger.child (logger : Logger) (label : String) : Logger :=
  ⟨logger.level, if logger.label = "" then label else logger.label ++ ":" ++ label⟩

/-- Actions that write log entries, the last one first. -/
abbrev Logged (m : Type → Type) := StateT (List Entry) m

/-- Writes an entry. -/
def note {m : Type → Type} [Monad m] (entry : Entry) : Logged m Unit :=
  modify (entry :: ·)

end Stencil.Log
