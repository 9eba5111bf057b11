import Offside.Location

/-!
# Sources

A text to be read, with the name under which it is spoken of.  It is made of Unicode scalar values,
so no half of a surrogate pair stands alone in it.
-/

namespace Offside

/-- A text with its name. -/
structure Source where
  text : String
  name : String := Location.unnamed
  deriving DecidableEq, Repr

end Offside
