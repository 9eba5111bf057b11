import Offside.Position
import Offside.Text.Quoted

/-!
# Locations

A location is a position in a source that has a name.  Tokens and lexical errors carry one.
-/

namespace Offside

/-- A position in a named source. -/
structure Location where
  line : Int
  column : Int
  file : String
  deriving DecidableEq, Repr

namespace Location

/-- The name of a source that was given none. -/
def unnamed : String := "<input>"

/-- A position, placed in a source. -/
def ofPosition (file : String) (position : Position) : Location :=
  ⟨position.line, position.column, file⟩

/-- The position alone. -/
def position (location : Location) : Position := ⟨location.line, location.column⟩

/-- Whether the numbers of a location can be written. -/
def isWritable (location : Location) : Bool := location.position.isWritable

/-- The form used in front of error messages: `file:line:column`, and without the file if its
name is empty. -/
def render (location : Location) : String :=
  if location.file.isEmpty then location.position.brief
  else location.file ++ ":" ++ location.position.brief

/-- The rendered form, if the location can be written. -/
def write (location : Location) : Except Decimal.Error String :=
  if location.isWritable then .ok location.render else .error .tooLong

/-- The form that shows every field, if the location can be written. -/
def describe (location : Location) : Except Decimal.Error String :=
  if location.isWritable then
    .ok ("SourceLocation(lineno=" ++ toString location.line ++
      ", col_offset=" ++ toString location.column ++
      ", source_file=" ++ Text.quoted location.file ++ ")")
  else .error .tooLong

@[simp] theorem position_ofPosition (file : String) (position : Position) :
    (ofPosition file position).position = position := rfl

end Location

end Offside
