import Offside.Location

/-!
# Lexical errors

A lexical error has a cause and, where it is known, a location.  The cause fixes both the
category, by which callers tell errors apart, and the wording.  The location is part of the
wording, so an error can only be made at a location that can be written.
-/

namespace Offside

/-- Categories of errors.  Each but `any` is a special case of a wider one. -/
inductive Category where
  /-- Any error of this library. -/
  | any
  /-- An error in a text. -/
  | lexical
  /-- A line closes blocks down to a column at which none is open. -/
  | indentation
  /-- No lexeme begins with the character. -/
  | character
  /-- An integer literal is too large. -/
  | overflow
  deriving DecidableEq, Repr

namespace Category

/-- The category of which this one is a special case. -/
def wider? : Category → Option Category
  | .any => none
  | .lexical => some .any
  | .indentation => some .lexical
  | .character => some .lexical
  | .overflow => some .lexical

/-- The category with all wider ones, the widest last. -/
def lineage : Category → List Category
  | .any => [.any]
  | .lexical => [.lexical, .any]
  | category => [category, .lexical, .any]

/-- Each category is followed by the next wider one. -/
theorem lineage_eq (category : Category) :
    category.lineage = category :: (category.wider?.map lineage).getD [] := by
  cases category <;> rfl

end Category

namespace LexError

/-- What is wrong with a text. -/
inductive Cause where
  /-- The indentation of a line lies between two open blocks. -/
  | badIndentation
  /-- No lexeme begins with `found`. -/
  | unexpected (found : Char)
  /-- The literal is longer or larger than is allowed. -/
  | outOfRange (literal : String)
  /-- Somebody reported an error in their own words. -/
  | reported (category : Category) (message : String)
  deriving DecidableEq, Repr

/-- The category of a cause. -/
def Cause.category : Cause → Category
  | .badIndentation => .indentation
  | .unexpected _ => .character
  | .outOfRange _ => .overflow
  | .reported category _ => category

/-- The wording of a cause. -/
def Cause.message : Cause → String
  | .badIndentation => "Bad indentation."
  | .unexpected found => "Unexpected character: " ++ String.singleton found
  | .outOfRange literal => "Integer literal out of range: " ++ literal
  | .reported _ message => message

end LexError

/-- An error in a text. -/
structure LexError where
  cause : LexError.Cause
  location : Option Location
  deriving DecidableEq, Repr

namespace LexError

/-- The error of a cause at a location, if that can be written. -/
def make (cause : Cause) (location : Option Location) : Except Decimal.Error LexError :=
  if location.all Location.isWritable then .ok ⟨cause, location⟩ else .error .tooLong

/-- The category of an error is that of its cause. -/
def category (error : LexError) : Category := error.cause.category

/-- The wording without the location. -/
def bareMessage (error : LexError) : String := error.cause.message

/-- The wording, with the location in front if there is one. -/
def message (error : LexError) : String :=
  match error.location with
  | none => error.bareMessage
  | some location => location.render ++ " " ++ error.bareMessage

end LexError

end Offside
