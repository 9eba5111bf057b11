import Offside.Decimal
import Offside.Decoder

/-!
# Settings

The settings of a lexer: the width of a tab, the largest integer literal, and the decoder of
string literals.  Settings are made from fields that may each be left out, and a value of the type
is always valid: tabs have a width, and the largest integer is not negative.
-/

namespace Offside

/-- Valid settings. -/
structure Settings where
  tabWidth : Int := 8
  maxInt : Int := 2147483647
  decoder : Decoder := .escapes
  tabWidth_pos : 1 ≤ tabWidth := by decide
  maxInt_nonneg : 0 ≤ maxInt := by decide

namespace Settings

/-- The settings that apply where nothing else was chosen. -/
def standard : Settings := {}

/-- Fields for settings, as far as they are given. -/
structure Fields where
  tabWidth : Option Int := none
  maxInt : Option Int := none
  decoder : Option Decoder := none
  /-- The names of given fields that are no settings. -/
  unknown : List String := []

/-- Why fields do not make settings. -/
inductive Error where
  /-- Tabs need a width. -/
  | tabWidth (given : Int)
  /-- Literals are not negative, so neither is the largest. -/
  | maxInt (given : Int)
  /-- No setting has this name. -/
  | unknownField (name : String)
  /-- The name is taken by the settings themselves. -/
  | repeatedField (name : String)
  deriving DecidableEq, Repr

/-- The wording of a settings error. -/
def Error.message : Error → String
  | .tabWidth given =>
    Decimal.worded [given] ("tab_width must be positive, got " ++ toString given)
  | .maxInt given =>
    Decimal.worded [given] ("max_int must not be negative, got " ++ toString given)
  | .unknownField name =>
    "LexConfig.__init__() got an unexpected keyword argument '" ++ name ++ "'"
  | .repeatedField name =>
    "LexConfig.__init__() got multiple values for argument '" ++ name ++ "'"

/-- Settings from fields.  What is left out is as in `standard`, unknown fields are passed over,
and the tab width is checked first. -/
def ofFields (fields : Fields) : Except Error Settings :=
  let tabWidth := fields.tabWidth.getD standard.tabWidth
  let maxInt := fields.maxInt.getD standard.maxInt
  if positive : 1 ≤ tabWidth then
    if nonneg : 0 ≤ maxInt then
      .ok ⟨tabWidth, maxInt, fields.decoder.getD standard.decoder, positive, nonneg⟩
    else .error (.maxInt maxInt)
  else .error (.tabWidth tabWidth)

/-- The name of the settings while they are made.  It is always given, so a field of that name
would be given twice. -/
def ownName : String := "self"

/-- Settings from fields that must all be known; this is checked before any value, and the first
field that is not known is the one refused. -/
def ofExactFields (fields : Fields) : Except Error Settings :=
  match fields.unknown with
  | name :: _ => .error (if name = ownName then .repeatedField name else .unknownField name)
  | [] => ofFields fields

/-- Settings are the same if their numbers are and their decoders have the same name. -/
instance : BEq Settings where
  beq settings other :=
    settings.tabWidth == other.tabWidth && settings.maxInt == other.maxInt &&
      settings.decoder.name == other.decoder.name

theorem tabWidth_ne_zero (settings : Settings) : settings.tabWidth ≠ 0 := by
  have positive := settings.tabWidth_pos
  omega

end Settings

end Offside
