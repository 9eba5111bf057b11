import Offside.Location

/-!
# The journal

While a text is read, a journal notes every change of the open blocks, the end of the text, and
every lexical error.  Entries are kept as events; their wording and the channel on which they go
out are functions of the event.  All of them are details for debugging, so a reader who asks for
anything more severe is shown nothing.

A reader writes entries down as they are made, and can only write numbers that are not too long.
-/

namespace Offside.Journal

/-- Something worth noting. -/
inductive Event where
  /-- A line opened a block at column `level`. -/
  | indent (level line : Int)
  /-- A line closed the block at column `level`. -/
  | dedent (level line : Int)
  /-- The end of the text closed the block at column `level`. -/
  | dedentAtEnd (level : Int)
  /-- The text ended. -/
  | eof (location : Location)
  /-- Reading failed. -/
  | failed (location : Location) (message : String)
  deriving DecidableEq, Repr

/-- Where entries go out. -/
inductive Channel where
  | core
  | lineStart
  | dedent
  deriving DecidableEq, Repr

/-- The root of all channel names. -/
def rootName : String := "pylite"

/-- The name of a channel. -/
def Channel.name : Channel → String
  | .core => rootName ++ ".lexer.core"
  | .lineStart => rootName ++ ".lexer.scanners.line_start"
  | .dedent => rootName ++ ".lexer.scanners.dedent"

/-- The full name of the channel called `name`: it is placed under the root unless it is the root
or stands under it already. -/
def qualify (name : String) : String :=
  if name = rootName ∨ (rootName ++ ".").toList.isPrefixOf name.toList then name
  else rootName ++ "." ++ name

/-- How severe an entry is. -/
inductive Severity where
  | debug
  | info
  | warning
  | error
  deriving DecidableEq, Repr

namespace Severity

/-- The label of a severity. -/
def label : Severity → String
  | .debug => "DEBUG"
  | .info => "INFO"
  | .warning => "WARNING"
  | .error => "ERROR"

/-- Severities in increasing order. -/
def rank : Severity → Nat
  | .debug => 0
  | .info => 1
  | .warning => 2
  | .error => 3

/-- Every severity, in increasing order. -/
def all : List Severity := [.debug, .info, .warning, .error]

/-- The severity with a given label. -/
def ofLabel? (text : String) : Option Severity := all.find? fun severity => severity.label == text

end Severity

namespace Event

/-- The channel of an event. -/
def channel : Event → Channel
  | .indent .. => .lineStart
  | .dedent .. => .dedent
  | .dedentAtEnd .. => .core
  | .eof .. => .core
  | .failed .. => .core

/-- Every event is a detail for debugging. -/
def severity (_ : Event) : Severity := .debug

/-- The wording of an event. -/
def message : Event → String
  | .indent level line =>
    "INDENT to column " ++ toString level ++ " at line " ++ toString line
  | .dedent level line =>
    "DEDENT from column " ++ toString level ++ " at line " ++ toString line
  | .dedentAtEnd level => "DEDENT from column " ++ toString level ++ " at end of input"
  | .eof location => "EOF at " ++ location.render
  | .failed location message => "Lexing failed at " ++ location.render ++ ": " ++ message

end Event

/-- Whether the numbers of an event can be written. -/
def Event.isWritable : Event → Bool
  | .indent level line => Decimal.fits level && Decimal.fits line
  | .dedent level line => Decimal.fits level && Decimal.fits line
  | .dedentAtEnd level => Decimal.fits level
  | .eof location => location.isWritable
  | .failed location _ => location.isWritable

/-- The events that a reader sees who asked for `threshold` and above. -/
def shown (threshold : Severity) (events : List Event) : List Event :=
  events.filter fun event => threshold.rank ≤ event.severity.rank

end Offside.Journal
