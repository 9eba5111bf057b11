import Offside.Location
import Offside.Token.Kind

/-!
# Tokens

A token has a kind, the text that it was read from, the location where that text begins, and for
literals and names a value.
-/

namespace Offside

/-- What a token stands for, beyond its kind. -/
inductive Value where
  | int (value : Int)
  | text (value : String)
  deriving DecidableEq, Repr

namespace Value

/-- The plain text of a value: the decimal digits of an integer, and a text as it is. -/
def plain : Value → String
  | .int value => toString value
  | .text value => value

/-- Whether a value can be written. -/
def isWritable : Value → Bool
  | .int value => Decimal.fits value
  | .text _ => true

/-- The form of a value in a description: a text is quoted. -/
def describe : Value → String
  | .int value => toString value
  | .text value => Text.quoted value

end Value

/-- A token. -/
structure Token where
  kind : Kind
  /-- The value of a number, the decoded body of a string literal, or the word of a name. -/
  value : Option Value
  /-- The text that was read; empty for a change of indentation and for the end. -/
  text : String
  location : Location
  deriving DecidableEq, Repr

namespace Token

/-- Whether this is the token that ends every stream. -/
def isEof (token : Token) : Bool := token.kind == .layout .eof

/-- The short form: kind, value if there is one, and position.  All numbers in it have to be
writable. -/
def describe (token : Token) : Except Decimal.Error String :=
  let value := match token.value with
    | none => ""
    | some value => value.describe ++ ", "
  if token.location.isWritable ∧ token.value.all Value.isWritable then
    .ok ("Token(" ++ token.kind.label ++ ", " ++ value ++ token.location.position.brief ++ ")")
  else .error .tooLong

end Token

end Offside
