import Offside.Decimal
import Offside.Lexeme
import Offside.Lexer.Basic

/-!
# Matchers

Each matcher looks for one sort of lexeme at the cursor.  It either reads a lexeme and gives its
token, or reads nothing and gives none.  A string literal is read before its body is decoded, so a
decoder that refuses the body leaves the cursor behind the literal; an integer literal that is too
large is not read at all.
-/

namespace Offside.Lexer

/-- Matches a string literal. -/
def string? : Action (Option Token) := do
  let lexer ← get
  match Lexeme.quotedBody? lexer.cursor.rest with
  | none => return none
  | some body =>
    let text ← reading (Cursor.advanceBy · (body.length + 2))
    let value ← decode body
    return some (← token .string (some (.text value)) text lexer.position)

/-- Matches an operator that is written with the next `length` characters, if it is among the
`candidates`. -/
def operatorOf? (candidates : List Operator) (length : Nat) : Action (Option Token) := do
  let lexer ← get
  match Operator.find? candidates (lexer.cursor.rest.take length) with
  | none => return none
  | some op =>
    let text ← reading (Cursor.advanceBy · length)
    return some (← token (.operator op) none text lexer.position)

/-- Matches an operator of two characters that ends in an equals sign. -/
def compound? : Action (Option Token) := operatorOf? Operator.compound 2

/-- Matches integer division or an operator of one character. -/
def simple? : Action (Option Token) := do
  match ← operatorOf? [.intDiv] 2 with
  | some token => return some token
  | none => operatorOf? Operator.single 1

/-- Matches a word, which is a keyword or a name.  The word is read to its end before it is looked
up, so a name may begin with a keyword. -/
def word? : Action (Option Token) := do
  let lexer ← get
  match lexer.cursor.peek 0 with
  | none => return none
  | some c =>
    if CharClass.wordStart.has c then
      let text ← reading (Cursor.readWhile · fun c _ => CharClass.wordPart.has c)
      let word := String.ofList text
      match Keyword.ofText? word with
      | some keyword => return some (← token (.keyword keyword) none text lexer.position)
      | none => return some (← token .name (some (.text word)) text lexer.position)
    else return none

/-- Matches an integer literal.  It is refused, unread, if it has too many digits or stands for a
number above the largest that the settings allow. -/
def integer? : Action (Option Token) := do
  let lexer ← get
  match Lexeme.integer? lexer.cursor.rest with
  | none => return none
  | some digits =>
    let value := Decimal.ofDigits digits
    if Decimal.digitLimit < digits.length ∨ lexer.settings.maxInt < value then
      fail (.outOfRange (String.ofList digits))
    else
      let text ← reading (Cursor.advanceBy · digits.length)
      return some (← token .number (some (.int value)) text lexer.position)

/-- The first token that one of the matchers gives, tried in order. -/
def firstOf : List (Action (Option Token)) → Action (Option Token)
  | [] => return none
  | matcher :: matchers => do
    match ← matcher with
    | some token => return some token
    | none => firstOf matchers

/-- Matches any lexeme. -/
def lexeme? : Action (Option Token) := firstOf [string?, compound?, word?, integer?, simple?]

end Offside.Lexer
