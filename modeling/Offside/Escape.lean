/-!
# Backslash escapes

The body of a string literal may hold escapes: a backslash and one more character.  Seven of them
stand for a character; every other pair is kept as it is written, and so is a backslash at the
very end, so that every body can be decoded.
-/

namespace Offside.Escape

/-- What a backslash and `c` stand for. -/
def meaning? (c : Char) : Option Char :=
  if c = 'n' then some '\n'
  else if c = 't' then some '\t'
  else if c = 'r' then some '\r'
  else if c = '0' then some '\x00'
  else if c = '\\' then some '\\'
  else if c = '\'' then some '\''
  else if c = '"' then some '"'
  else none

/-- Decodes the escapes of a body, from left to right. -/
def decode : List Char → List Char
  | [] => []
  | '\\' :: c :: rest =>
    match meaning? c with
    | some meant => meant :: decode rest
    | none => '\\' :: c :: decode rest
  | c :: rest => c :: decode rest

/-- Decodes the escapes of a text.  A text without backslashes is given back as it is. -/
def decodeText (raw : String) : String :=
  if '\\' ∈ raw.toList then String.ofList (decode raw.toList) else raw

end Offside.Escape
