import Offside.Position

/-!
# The cursor

A cursor stands between the characters that have been read and those that have not, and knows
its position.  It only moves forward, one character at a time, except that the latest move can be
undone once.  A line feed or a tab cannot be undone by arithmetic, so the place before the latest
move is remembered until it is used.

Every read goes through `advance`, which is what keeps the position in step with the text:
`Cursor.source` never changes, and the position is the one that `Position.after` computes for the
text already read.

Two ways of reading a run of characters stand side by side.  `runEnd` and the list operations on
`rest` look ahead without moving.  `readWhile` moves first and asks afterwards, so it reads one
character too many and puts it back.
-/

namespace Offside

/-- A place in a text. -/
structure Place where
  /-- The characters already read, the latest first. -/
  before : List Char
  /-- The characters not yet read. -/
  rest : List Char
  /-- The position of the first character of `rest`. -/
  position : Position
  deriving DecidableEq, Repr

/-- A place in a text, with the means to undo the latest move. -/
structure Cursor where
  /-- The characters already read, the latest first. -/
  before : List Char
  /-- The characters not yet read. -/
  rest : List Char
  /-- The position of the first character of `rest`. -/
  position : Position
  /-- The place before the latest move, if that move can still be undone. -/
  undo : Option Place
  deriving DecidableEq, Repr

namespace Cursor

/-- What can go wrong with a cursor. -/
inductive Error where
  /-- There is no move to undo. -/
  | nothingToUndo
  /-- A character was asked for in front of the text. -/
  | outOfRange
  /-- A character was asked for at a place that no index reaches. -/
  | notAnIndex
  /-- A tab was read at a tab width that has no stops. -/
  | tabStop (cause : TabStopError)
  /-- More characters were to be read than there are.  Such a read waits for the next one at the end
  of the text, and never comes back. -/
  | endless
  deriving DecidableEq, Repr

/-- The wording of a cursor error. -/
def Error.message : Error → String
  | .nothingToUndo => "unconsume() must follow an advance()"
  | .outOfRange => "string index out of range"
  | .notAnIndex => "cannot fit 'int' into an index-sized integer"
  | .tabStop cause => cause.message
  | .endless => "advance_to() went past the end of the text"

/-- A computation that reads through a cursor.  Where it fails, the cursor stays where the
failure left it. -/
abbrev Action := EStateM Error Cursor

/-- The cursor in front of a text. -/
def start (source : List Char) : Cursor := ⟨[], source, .start, none⟩

/-- The cursor at a place, with no move to undo. -/
def ofPlace (place : Place) : Cursor := ⟨place.before, place.rest, place.position, none⟩

/-- Where the cursor stands. -/
def place (cursor : Cursor) : Place := ⟨cursor.before, cursor.rest, cursor.position⟩

/-- The whole text, read and unread. -/
def source (cursor : Cursor) : List Char := cursor.before.reverse ++ cursor.rest

/-- How many characters have been read. -/
def offset (cursor : Cursor) : Nat := cursor.before.length

/-- Whether everything has been read. -/
def atEnd (cursor : Cursor) : Bool := cursor.rest.isEmpty

/-! ## Looking ahead -/

/-- The unread character `ahead` places on, if the text goes that far. -/
def peek (cursor : Cursor) (ahead : Nat) : Option Char := cursor.rest[ahead]?

/-- The least index of a place.  Indices are signed words of 64 bits. -/
def leastIndex : Int := -9223372036854775808

/-- The character with a given index.  Past the end there is none.  A place in front of the text
counts back from its end, as far as the text is long; it has to be an index at all, which is
checked first. -/
def charAt (cursor : Cursor) (index : Int) : Except Error (Option Char) :=
  let length : Int := cursor.source.length
  if length ≤ index then .ok none
  else if index < leastIndex then .error .notAnIndex
  else if 0 ≤ index then .ok cursor.source[index.toNat]?
  else if 0 ≤ length + index then .ok cursor.source[(length + index).toNat]?
  else .error .outOfRange

/-- The character `shift` places from the cursor, in either direction. -/
def peekAt (cursor : Cursor) (shift : Int) : Except Error (Option Char) :=
  cursor.charAt (cursor.offset + shift)

/-- The offset of the first character from `start` on that is not a member. -/
def runEnd (cursor : Cursor) (member : Char → Bool) (start : Nat) : Nat :=
  start + ((cursor.source.drop start).takeWhile member).length

/-- The index of the first character from `start` on that is not a member.  From an index in front
of the text the run goes through the end of the text, and then on at its beginning. -/
def runEndFrom (cursor : Cursor) (member : Char → Bool) (start : Int) : Except Error Int :=
  if 0 ≤ start then .ok (cursor.runEnd member start.toNat)
  else do
    let _ ← cursor.charAt start
    let length : Int := cursor.source.length
    let passed := cursor.source.drop (length + start).toNat ++ cursor.source
    return start + (passed.takeWhile member).length

/-! ## Moving -/

/-- The cursor after reading `c`, with `rest` still to come and the position not yet moved. -/
def step (cursor : Cursor) (c : Char) (rest : List Char) : Cursor :=
  { cursor with before := c :: cursor.before, rest, undo := some cursor.place }

/-- The cursor after reading `c` where tabs have a width: the position has moved as well. -/
def past (width : Int) (cursor : Cursor) (c : Char) (rest : List Char) : Cursor :=
  { cursor.step c rest with position := cursor.position.moved width (.ofChar c) }

/-- Reads one character, or nothing at the end of the text.  If the tab width refuses the move,
the character counts as read and the position stays. -/
def advance (width : Int) : Action (Option Char) := fun cursor =>
  match cursor.rest with
  | [] => .ok none cursor
  | c :: rest =>
    match cursor.position.advance width (.ofChar c) with
    | .ok position => .ok (some c) { cursor.step c rest with position }
    | .error cause => .error (.tabStop cause) (cursor.step c rest)

/-- Reads `count` characters.  All of them have to be there: at the end of the text nothing more is
read, and a read that still waits for something goes on for ever, which is a failure here. -/
def advanceBy (width : Int) : Nat → Action (List Char)
  | 0 => pure []
  | count + 1 => do
    let some c ← advance width | throw .endless
    let text ← advanceBy width count
    return c :: text

/-- Reads up to the offset `stop`, which must not be past the end of the text; there is nothing to
read if the cursor is already there. -/
def advanceTo (width : Int) (stop : Int) : Action (List Char) := do
  let cursor ← get
  advanceBy width (stop - cursor.offset).toNat

/-- Takes back the latest character.  This works once after each read. -/
def unconsume : Action Unit := fun cursor =>
  match cursor.undo with
  | some place => .ok () (ofPlace place)
  | none => .error .nothingToUndo cursor

/-- Reads at most as many characters as there are `upcoming`, as long as each, seen with the one
after it, is to be kept; the first that is not is put back. -/
def readWhileAlong (width : Int) (keep : Char → Option Char → Bool) :
    List Char → Action (List Char)
  | [] => pure []
  | _ :: upcoming => do
    let some c ← advance width | return []
    if keep c ((← get).peek 0) then
      let text ← readWhileAlong width keep upcoming
      return c :: text
    else
      -- The character belongs to what comes next.
      unconsume
      return []

/-- Reads characters as long as each, seen with the one after it, is to be kept.  The first that
is not is read as well, and put back. -/
def readWhile (width : Int) (keep : Char → Option Char → Bool) : Action (List Char) := do
  let cursor ← get
  readWhileAlong width keep cursor.rest

/-! ## The text on both sides -/

theorem take_source (cursor : Cursor) :
    cursor.source.take cursor.offset = cursor.before.reverse := by
  rw [source, offset, ← List.length_reverse, List.take_left]

theorem drop_source (cursor : Cursor) : cursor.source.drop cursor.offset = cursor.rest := by
  rw [source, offset, ← List.length_reverse, List.drop_left]

theorem getElem?_source (cursor : Cursor) (ahead : Nat) :
    cursor.source[cursor.offset + ahead]? = cursor.peek ahead := by
  rw [peek, ← drop_source, List.getElem?_drop]

/-- The run at the cursor is at the front of the unread text. -/
theorem runEnd_offset (cursor : Cursor) (member : Char → Bool) :
    cursor.runEnd member cursor.offset =
      cursor.offset + (cursor.rest.takeWhile member).length := by
  rw [runEnd, drop_source]

/-! ## What a move keeps -/

@[simp] theorem source_start (text : List Char) : (start text).source = text := rfl

@[simp] theorem source_step {cursor : Cursor} {c : Char} {rest : List Char}
    (h : cursor.rest = c :: rest) : (cursor.step c rest).source = cursor.source := by
  simp [step, source, h]

@[simp] theorem offset_step (cursor : Cursor) (c : Char) (rest : List Char) :
    (cursor.step c rest).offset = cursor.offset + 1 := rfl

theorem advance_nil {width : Int} {cursor : Cursor} (h : cursor.rest = []) :
    advance width cursor = .ok none cursor := by
  simp [advance, h]

theorem advance_cons {width : Int} (nonzero : width ≠ 0) {cursor : Cursor} {c : Char}
    {rest : List Char} (h : cursor.rest = c :: rest) :
    advance width cursor = .ok (some c) (cursor.past width c rest) := by
  simp [advance, h, nonzero, past]

end Cursor

end Offside
