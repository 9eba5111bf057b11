import Mathlib.Data.List.Basic
import Mathlib.Data.Nat.Notation

/-!
# Slices of a text

A slice is what stands between two offsets.  The lemmas find the slices of a text that is given in
parts, and the parts of a text around an offset.
-/

namespace Offside

/-- What stands in `text` from the offset `first` up to the offset `stop`. -/
def slice (text : List Char) (first stop : ℕ) : List Char := (text.take stop).drop first

variable {source before text rest : List Char} {first : ℕ}

theorem slice_of_split (split : source = before ++ (text ++ rest))
    (hfirst : first = before.length) : slice source first (first + text.length) = text := by
  simp [slice, split, hfirst, List.take_append, List.take_of_length_le]

end Offside
