import Offside.Cursor.Basic
import Offside.Indentation.Column
import Offside.Indentation.Levels
import Offside.Journal
import Offside.LexError
import Offside.Settings
import Offside.Source
import Offside.Token.Basic

/-!
# The lexer

A lexer reads a text line by line.  At the start of a line it measures the indentation and opens
or closes blocks; inside a line it reads one lexeme after another.  Closing several blocks takes
several tokens, and between them the lexer stays in a mode of its own.

Actions on a lexer either give a value or fail, and in both cases leave a lexer behind.  Of the
failures only lexical errors, the decoder's refusals, and lexical errors at a position with too
many digits to be written can be reached; the others are kept apart so that this can be stated.
-/

namespace Offside

/-- What a lexer is about to do. -/
inductive Mode where
  /-- Measure the indentation of a line. -/
  | lineStart
  /-- Read the lexemes of a line. -/
  | inLine
  /-- Close blocks, until the line's indentation is that of the innermost one. -/
  | dedent
  deriving DecidableEq, Repr

namespace Mode

/-- The label of a mode. -/
def label : Mode → String
  | .lineStart => "LINE_START"
  | .inLine => "IN_LINE"
  | .dedent => "DEDENT"

/-- Every mode, in the order in which they are numbered. -/
def all : List Mode := [.lineStart, .inLine, .dedent]

/-- The mode with a given label. -/
def ofLabel? (text : String) : Option Mode := all.find? fun mode => mode.label == text

/-- The number of a mode, counted from one. -/
def ordinal (mode : Mode) : Nat := all.idxOf mode + 1

end Mode

/-- A lexer at work on a text. -/
structure Lexer where
  /-- The name of the text. -/
  name : String
  settings : Settings
  cursor : Cursor
  mode : Mode
  levels : Levels
  /-- The token that ended the stream, once it has ended. -/
  ending : Option Token
  /-- What was noted so far, the latest first. -/
  journal : List Journal.Event

namespace Lexer

/-- Why an action on a lexer fails. -/
inductive Error where
  /-- The text has an error. -/
  | lexical (cause : LexError)
  /-- The text has an error at a position that cannot be written. -/
  | decimal (cause : Decimal.Error)
  /-- The decoder refused the body of a string literal. -/
  | decoding (cause : DecodeError)
  /-- The cursor could not move. -/
  | cursor (cause : Cursor.Error)
  /-- A block could not be opened or closed. -/
  | levels (cause : Levels.Error)
  /-- The indentation could not be measured. -/
  | tabStop (cause : TabStopError)
  /-- The lexer went on for longer than its text allows. -/
  | stalled
  deriving DecidableEq, Repr

/-- The wording of an error. -/
def Error.message : Error → String
  | .lexical cause => cause.message
  | .decimal cause => cause.message
  | .decoding cause => cause.message
  | .cursor cause => cause.message
  | .levels cause => cause.message
  | .tabStop cause => cause.message
  | .stalled => "the lexer made no progress"

/-- A computation on a lexer that may fail and leaves a lexer behind either way. -/
abbrev Action := EStateM Error Lexer

/-- A lexer in front of a text. -/
def start (settings : Settings) (source : Source) : Lexer where
  name := source.name
  settings := settings
  cursor := .start source.text.toList
  mode := .lineStart
  levels := .initial
  ending := none
  journal := []

/-- The position of the next character. -/
def position (lexer : Lexer) : Position := lexer.cursor.position

/-- A position of this text, with the text's name. -/
def locate (lexer : Lexer) (position : Position) : Location :=
  .ofPosition lexer.name position

/-- What was noted so far, in order. -/
def events (lexer : Lexer) : List Journal.Event := lexer.journal.reverse

/-- What a caller can see of a lexer between two tokens. -/
structure View where
  mode : Mode
  levels : List Int
  position : Position
  deriving DecidableEq, Repr

/-- The visible part of a lexer. -/
def view (lexer : Lexer) : View := ⟨lexer.mode, lexer.levels.toList, lexer.position⟩

/-! ## Parts of actions -/

/-- Reads through the lexer's cursor, with the tab width that its settings give. -/
def reading {α : Type} (action : Int → Cursor.Action α) : Action α := fun lexer =>
  match action lexer.settings.tabWidth lexer.cursor with
  | .ok value cursor => .ok value { lexer with cursor }
  | .error cause cursor => .error (.cursor cause) { lexer with cursor }

/-- Adds an event to the journal. -/
def note (event : Journal.Event) : Action Unit :=
  modify fun lexer => { lexer with journal := event :: lexer.journal }

/-- Goes over to another mode. -/
def enter (mode : Mode) : Action Unit :=
  modify fun lexer => { lexer with mode }

/-- Opens a block. -/
def openBlock (level : Int) : Action Unit := fun lexer =>
  match lexer.levels.push level with
  | .ok levels => .ok () { lexer with levels }
  | .error cause => .error (.levels cause) lexer

/-- Closes the innermost block and gives its level. -/
def closeBlock : Action Int := fun lexer =>
  match lexer.levels.pop with
  | .ok (level, levels) => .ok level { lexer with levels }
  | .error cause => .error (.levels cause) lexer

/-- Measures a run of leading blanks. -/
def measure (run : List Char) : Action Int := fun lexer =>
  match Indentation.column lexer.settings.tabWidth run with
  | .ok level => .ok level lexer
  | .error cause => .error (.tabStop cause) lexer

/-- Decodes the body of a string literal. -/
def decode (body : List Char) : Action String := fun lexer =>
  match lexer.settings.decoder.run (String.ofList body) with
  | .ok value => .ok value lexer
  | .error cause => .error (.decoding cause) lexer

/-- Notes a lexical error at the current position and fails with it, or for want of a way to
write the position. -/
def fail {α : Type} (cause : LexError.Cause) : Action α := do
  let lexer ← get
  let location := lexer.locate lexer.position
  note (.failed location cause.message)
  match LexError.make cause (some location) with
  | .ok error => throw (.lexical error)
  | .error limit => throw (.decimal limit)

/-- The location of a position, or else of the current one, together with its written form. -/
def located (position : Option Position) : Action (Location × String) := fun lexer =>
  let location := lexer.locate (position.getD lexer.position)
  match location.write with
  | .ok text => .ok (location, text) lexer
  | .error cause => .error (.decimal cause) lexer

/-- A token of this lexer's text that begins at `start`. -/
def token (kind : Kind) (value : Option Value) (text : List Char) (start : Position) :
    Action Token := do
  return ⟨kind, value, String.ofList text, (← get).locate start⟩

end Lexer

end Offside
