/-!
# The alphabet

The classes of characters that the lexical rules speak of.  They are all finite sets of ASCII
characters: a letter or digit of another script belongs to no class.
-/

namespace Offside

/-- A class of characters. -/
inductive CharClass where
  /-- Decimal digits. -/
  | digit
  /-- What a word may begin with: a letter or an underscore. -/
  | wordStart
  /-- What a word may go on with: a letter, a digit or an underscore. -/
  | wordPart
  /-- The two quotes around a string literal. -/
  | quote
  /-- What a string literal may never contain. -/
  | stringStop
  /-- What the indentation of a line is made of. -/
  | indentation
  /-- What may stand between two lexemes of a line. -/
  | blank
  deriving DecidableEq, Repr

namespace CharClass

/-- Whether a character belongs to the class. -/
def has : CharClass → Char → Bool
  | .digit, c => c.isDigit
  | .wordStart, c => c.isAlpha || c == '_'
  | .wordPart, c => c.isAlpha || c.isDigit || c == '_'
  | .quote, c => c == '"' || c == '\''
  | .stringStop, c => c == '\n' || c == '\r' || c == '\t'
  | .indentation, c => c == ' ' || c == '\t' || c == '\r'
  | .blank, c => c == ' ' || c == '\t' || c == '\r'

/-- Whether a text is a single character of the class. -/
def hasText (cls : CharClass) (text : String) : Bool :=
  match text.toList with
  | [c] => cls.has c
  | _ => false

end CharClass

/-- The character that opens a comment. -/
def commentMark : Char := '#'

end Offside
