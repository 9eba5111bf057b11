/-!
# Decimal numerals

Integers are read and written in decimal.  Both ways there is a limit on the number of digits: a
longer numeral is not read, and an integer that would need one cannot be written.
-/

namespace Offside.Decimal

/-- The greatest number of digits of a numeral. -/
def digitLimit : Nat := 4300

/-- Why an integer cannot be written. -/
inductive Error where
  | tooLong
  deriving DecidableEq, Repr

/-- The wording of a numeral error. -/
def Error.message : Error → String
  | .tooLong =>
    "Exceeds the limit (" ++ toString digitLimit ++ " digits) for integer string conversion; " ++
      "use sys.set_int_max_str_digits() to increase the limit"

/-- The number that decimal digits stand for. -/
def ofDigits (digits : List Char) : Nat :=
  digits.foldl (fun total c => 10 * total + (c.toNat - '0'.toNat)) 0

/-- Whether an integer has few enough digits to be written.  Its sign does not count. -/
def fits (n : Int) : Bool := n.natAbs < Nat.pow 10 digitLimit

/-- A wording that integers are part of.  It cannot be put together if one of them cannot be
written, and the wording is then the one of that failure. -/
def worded (integers : List Int) (text : String) : String :=
  if integers.all fits then text else Error.tooLong.message

end Offside.Decimal
