import Offside.Cursor.Basic

/-!
# Cursor commands

The operations of a cursor as data, so that any sequence of them can be run and spoken about.
A command that fails does not end a run: the next one starts from the cursor that it left.
-/

namespace Offside.Cursor

/-- One operation on a cursor. -/
inductive Command where
  /-- Look at the character `shift` places away. -/
  | peek (shift : Int)
  /-- Read one character. -/
  | advance
  /-- Read up to the offset `stop`. -/
  | advanceTo (stop : Int)
  /-- Take back the latest character. -/
  | unconsume
  /-- Ask whether everything has been read. -/
  | atEnd
  /-- Ask for the end of the run of `members` that begins at `start`, or at the cursor. -/
  | runEnd (members : List Char) (start : Option Int)
  deriving DecidableEq, Repr

/-- What a command answers. -/
inductive Reply where
  | text (text : List Char)
  | offset (offset : Int)
  | flag (flag : Bool)
  | done
  deriving DecidableEq, Repr

/-- Carries out one command. -/
def Command.exec (width : Int) : Command → Action Reply
  | .peek shift => do
    match (← get).peekAt shift with
    | .ok found => return .text found.toList
    | .error cause => throw cause
  | .advance => do
    let read ← Cursor.advance width
    return .text read.toList
  | .advanceTo stop => .text <$> Cursor.advanceTo width stop
  | .unconsume => do
    Cursor.unconsume
    return .done
  | .atEnd => return .flag (← get).atEnd
  | .runEnd members start => do
    let cursor ← get
    match cursor.runEndFrom (members.contains ·) (start.getD cursor.offset) with
    | .ok stop => return .offset stop
    | .error cause => throw cause

/-- The cursor that a result leaves behind, be it a success or a failure. -/
def left {α : Type} : EStateM.Result Error Cursor α → Cursor
  | .ok _ cursor => cursor
  | .error _ cursor => cursor

/-- The results of a sequence of commands, each run from the cursor that the one before left. -/
def Command.runAll (width : Int) (cursor : Cursor) :
    List Command → List (EStateM.Result Error Cursor Reply)
  | [] => []
  | command :: commands =>
    let result := command.exec width cursor
    result :: runAll width (left result) commands

/-- The cursor after a sequence of commands. -/
def Command.leftByAll (width : Int) (cursor : Cursor) (commands : List Command) : Cursor :=
  commands.foldl (fun reached command => left (command.exec width reached)) cursor

end Offside.Cursor
