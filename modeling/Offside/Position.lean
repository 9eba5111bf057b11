import Offside.Decimal

/-!
# Positions

A position is a line and a column, both counted from one.  Reading a character moves it: a line
feed opens the next line, a carriage return has no width, a tab goes to the column after the next
tab stop, and every other character is one column wide.  So `\r\n` and `\n\r` are both a single
line break.

Tab stops need a width to divide by; at width zero a tab has nowhere to go, and that is the only
way a move can fail.
-/

namespace Offside

/-- What reading a character does to a position. -/
inductive Motion where
  /-- Go to the first column of the next line. -/
  | newline
  /-- Stay. -/
  | still
  /-- Go to the column after the next tab stop. -/
  | tab
  /-- Go one column on. -/
  | forward
  deriving DecidableEq, Repr

namespace Motion

/-- The motion of a character. -/
def ofChar (c : Char) : Motion :=
  if c = '\n' then .newline
  else if c = '\r' then .still
  else if c = '\t' then .tab
  else .forward

/-- The motion of a text taken as one unit: only a text that is a single line feed, carriage
return or tab moves specially. -/
def ofText (text : String) : Motion :=
  match text.toList with
  | [c] => ofChar c
  | _ => .forward

end Motion

/-- Why a tab stop cannot be found. -/
inductive TabStopError where
  | zeroWidth
  deriving DecidableEq, Repr

/-- The wording of a tab stop error. -/
def TabStopError.message : TabStopError → String
  | .zeroWidth => "integer modulo by zero"

/-- A line and a column, both counted from one. -/
structure Position where
  line : Int
  column : Int
  deriving DecidableEq, Repr

namespace Position

/-- The position of the first character of a text. -/
def start : Position := ⟨1, 1⟩

/-- The position after a motion, for a tab width other than zero.  The remainder is the one that
has the sign of the divisor, so tab stops stay a width apart also left of the first column. -/
def moved (width : Int) (motion : Motion) (position : Position) : Position :=
  match motion with
  | .newline => ⟨position.line + 1, 1⟩
  | .still => position
  | .tab => ⟨position.line, position.column + width - (position.column - 1).fmod width⟩
  | .forward => ⟨position.line, position.column + 1⟩

/-- The position after a motion; a tab of width zero is refused. -/
def advance (width : Int) (motion : Motion) (position : Position) :
    Except TabStopError Position :=
  if motion = .tab ∧ width = 0 then .error .zeroWidth else .ok (position.moved width motion)

/-- The position after a whole text, read from `position` on. -/
def after (width : Int) (text : List Char) (position : Position) : Position :=
  text.foldl (fun reached c => reached.moved width (.ofChar c)) position

@[simp] theorem advance_of_ne_zero {width : Int} (h : width ≠ 0) (motion : Motion)
    (position : Position) : position.advance width motion = .ok (position.moved width motion) := by
  simp [advance, h]

@[simp] theorem after_nil (width : Int) (position : Position) :
    position.after width [] = position := rfl

@[simp] theorem after_cons (width : Int) (c : Char) (text : List Char) (position : Position) :
    position.after width (c :: text) = (position.moved width (.ofChar c)).after width text := rfl

theorem after_append (width : Int) (text more : List Char) (position : Position) :
    position.after width (text ++ more) = (position.after width text).after width more := by
  simp [after]

/-- Whether both numbers can be written. -/
def isWritable (position : Position) : Bool :=
  Decimal.fits position.line && Decimal.fits position.column

/-- The short form `line:column`. -/
def brief (position : Position) : String :=
  toString position.line ++ ":" ++ toString position.column

end Position

end Offside
