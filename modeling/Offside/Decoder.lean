import Offside.Escape

/-!
# Decoders

A decoder turns the body of a string literal into the value of its token.  Lexing does not depend
on what it does, and it may refuse a body.  Decoders are told apart by their names.  The one that
settings have unless another is chosen decodes backslash escapes and refuses nothing; `strict` is a
decoder that does refuse.
-/

namespace Offside

/-- Why a decoder refuses a body. -/
structure DecodeError where
  message : String
  deriving DecidableEq, Repr

/-- A named way to decode the body of a string literal. -/
structure Decoder where
  name : String
  run : String → Except DecodeError String

namespace Decoder

/-- Decodes the backslash escapes. -/
def escapes : Decoder := ⟨"default", fun raw => .ok (Escape.decodeText raw)⟩

/-- Keeps a body without backslashes and refuses any other. -/
def strict : Decoder :=
  ⟨"strict", fun raw =>
    if raw.toList.contains '\\' then .error ⟨"bad escape in " ++ raw⟩ else .ok raw⟩

end Decoder

end Offside
