/-!
# Ranges of characters

A set of characters, written down as closed ranges of code points in increasing order.
-/

namespace Offside.Text

/-- Closed ranges of code points. -/
abbrev Ranges := List (Nat × Nat)

namespace Ranges

/-- Whether a character lies in one of the ranges. -/
def has (ranges : Ranges) (c : Char) : Bool :=
  ranges.any fun (low, high) => low ≤ c.toNat && c.toNat ≤ high

/-- Whether no range is empty and each lies above the one before it. -/
def increasing (ranges : Ranges) : Bool :=
  ranges.all (fun (low, high) => low ≤ high) &&
    (ranges.zip ranges.tail).all fun (range, next) => range.2 < next.1

end Ranges

end Offside.Text
