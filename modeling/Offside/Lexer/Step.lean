import Offside.Lexer.Matcher

/-!
# Steps

One step of the lexer, in each of its modes.  A step gives a token, or reads something that makes
none, or only goes over to another mode.
-/

namespace Offside.Lexer

/-- Ends the text: closes one block, or, when none is open, gives the token that ends the stream
and keeps it. -/
def atEndOfText : Action Token := do
  let lexer ← get
  if lexer.levels.depth ≠ 0 then
    let level ← closeBlock
    note (.dedentAtEnd level)
    token (.layout .dedent) none [] lexer.position
  else
    let ending ← token (.layout .eof) none [] lexer.position
    modify fun lexer => { lexer with ending := some ending }
    note (.eof ending.location)
    return ending

/-! ## At the start of a line -/

/-- Reads a carriage return, if one is next, and gives what was read. -/
def absorbReturn : Action (List Char) := do
  if (← get).cursor.peek 0 = some '\r' then
    reading (Cursor.advanceBy · 1)
  else
    return []

/-- Reads a line without lexemes, its line break included. -/
def skipLine : Action Unit := do
  let rest := (← get).cursor.rest
  match Lexeme.lineFeed? rest with
  | none => let _ ← reading (Cursor.advanceBy · rest.length)
  | some length =>
    let _ ← reading (Cursor.advanceBy · (length + 1))
    let _ ← absorbReturn

/-- Measures the indentation of a line and compares it with the innermost block.  Lines without
lexemes are skipped.  A line that closes blocks is left unread, and is measured again for each of
them. -/
def stepLineStart : Action (Option Token) := do
  let lexer ← get
  if lexer.cursor.atEnd then
    return some (← atEndOfText)
  let run := lexer.cursor.rest.takeWhile CharClass.indentation.has
  let following := lexer.cursor.peek run.length
  if following = none ∨ following = some '\n' ∨ following = some commentMark then
    skipLine
    return none
  let level ← measure run
  if level = lexer.levels.top then
    let _ ← reading (Cursor.advanceBy · run.length)
    enter .inLine
    return none
  else if level > lexer.levels.top then
    let _ ← reading (Cursor.advanceBy · run.length)
    openBlock level
    enter .inLine
    note (.indent level lexer.position.line)
    return some (← token (.layout .indent) none [] lexer.position)
  else
    -- The run stays unread: it is measured again for every block that it closes.
    enter .dedent
    return none

/-! ## Closing blocks -/

/-- Closes one block that the line is not in, or goes on with the line once it is in the innermost
one.  A line that is deeper than the innermost block by then was never opened. -/
def stepDedent : Action (Option Token) := do
  let lexer ← get
  let run := lexer.cursor.rest.takeWhile CharClass.indentation.has
  let level ← measure run
  let top := lexer.levels.top
  if top < level then
    fail .badIndentation
  else if top > level then
    let _ ← closeBlock
    note (.dedent top lexer.position.line)
    return some (← token (.layout .dedent) none [] lexer.position)
  else
    let _ ← reading (Cursor.advanceBy · run.length)
    enter .inLine
    return none

/-! ## Inside a line -/

/-- Whether a character belongs to the blanks between two lexemes: a carriage return that is part
of a line break does not. -/
def isInnerBlank (c : Char) (following : Option Char) : Bool :=
  CharClass.blank.has c && !(c == '\r' && following == some '\n')

/-- Reads the blanks in front of the next lexeme. -/
def skipBlanks : Action Unit := do
  let _ ← reading (Cursor.readWhile · isInnerBlank)

/-- Reads a comment up to its line break; gives whether there is a line break. -/
def skipComment : Action Bool := do
  let rest := (← get).cursor.rest
  match Lexeme.lineFeed? rest with
  | none =>
    let _ ← reading (Cursor.advanceBy · rest.length)
    return false
  | some length =>
    -- A carriage return right before the line feed belongs to the line break.
    let comment := rest.take length
    let kept := if comment.getLast? = some '\r' then length - 1 else length
    let _ ← reading (Cursor.advanceBy · kept)
    return true

/-- Reads a line break: a line feed with a carriage return before it, after it, or both. -/
def lineBreak : Action (List Char) := do
  let before ← absorbReturn
  let feed ← reading (Cursor.advanceBy · 1)
  let after ← absorbReturn
  return before ++ feed ++ after

/-- Ends a line: reads the comment, if there is one, and the line break.  A comment that runs to
the end of the text gives no token. -/
def endLine : Action (Option Token) := do
  let lexer ← get
  if lexer.cursor.peek 0 = some commentMark then
    unless ← skipComment do return none
  let text ← lineBreak
  enter .lineStart
  return some (← token (.layout .newline) none text lexer.position)

/-- Reads the next lexeme of a line, or the end of the line, or the blanks in front of them. -/
def stepInLine : Action (Option Token) := do
  let lexer ← get
  match lexer.cursor.peek 0 with
  | none => return some (← atEndOfText)
  | some c =>
    if c = commentMark ∨ Lexeme.atLineBreak lexer.cursor.rest then
      endLine
    else if CharClass.blank.has c then
      skipBlanks
      return none
    else
      match ← lexeme? with
      | some token => return some token
      | none => fail (.unexpected c)

/-- One step of the lexer. -/
def step : Action (Option Token) := do
  match (← get).mode with
  | .lineStart => stepLineStart
  | .dedent => stepDedent
  | .inLine => stepInLine

end Offside.Lexer
