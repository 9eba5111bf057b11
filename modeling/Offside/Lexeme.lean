import Offside.Alphabet

/-!
# Lexemes

Which characters at the front of the unread text make up a literal or a line break, said as
functions of that text alone.
-/

namespace Offside.Lexeme

/-- The body of the string literal that `text` begins with.  It ends at the next quote of the
same sort, and a line feed, a carriage return or a tab may not come before that. -/
def quotedBody? (text : List Char) : Option (List Char) :=
  match text with
  | [] => none
  | quote :: rest =>
    if CharClass.quote.has quote then
      let body := rest.takeWhile fun c => c != quote && !CharClass.stringStop.has c
      if rest[body.length]? = some quote then some body else none
    else none

/-- The digits of the integer literal that `text` begins with: a zero stands alone, any other
digit takes all digits after it. -/
def integer? (text : List Char) : Option (List Char) :=
  match text with
  | [] => none
  | c :: _ =>
    if CharClass.digit.has c then
      some (if c = '0' then ['0'] else text.takeWhile CharClass.digit.has)
    else none

/-- Whether `text` begins with a line break: a line feed, or a carriage return in front of one. -/
def atLineBreak : List Char → Bool
  | '\n' :: _ => true
  | '\r' :: '\n' :: _ => true
  | _ => false

/-- How many characters stand in front of the first line feed of `text`, if it has one. -/
def lineFeed? (text : List Char) : Option Nat := text.findIdx? (· == '\n')

end Offside.Lexeme
