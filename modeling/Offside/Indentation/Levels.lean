import Offside.Decimal

/-!
# Indentation levels

The columns of the blocks that are open, as a stack.  The base level is always there and is
never closed, so only the levels above it are stored.  A block opens at a column greater than the
innermost one, hence the levels increase strictly from the base on.
-/

namespace Offside

/-- The open blocks of a text. -/
structure Levels where
  /-- The columns of the blocks above the base, the innermost first. -/
  opened : List Int
  deriving DecidableEq, Repr

namespace Levels

/-- The column of a line that stands in no block. -/
def base : Int := 1

/-- Why a block cannot be opened or closed. -/
inductive Error where
  /-- A block has to be deeper than the one around it. -/
  | notDeeper (level top : Int)
  /-- The base level cannot be closed. -/
  | onlyBase
  deriving DecidableEq, Repr

/-- The wording of a level error. -/
def Error.message : Error → String
  | .notDeeper level top =>
    Decimal.worded [level, top]
      ("indent level " ++ toString level ++ " must exceed current level " ++ toString top)
  | .onlyBase => "cannot pop the base indentation level"

/-- No block is open. -/
def initial : Levels := ⟨[]⟩

/-- The column of the innermost open block. -/
def top (levels : Levels) : Int := levels.opened.headD base

/-- The number of open blocks. -/
def depth (levels : Levels) : Nat := levels.opened.length

/-- The columns from the base to the innermost block. -/
def toList (levels : Levels) : List Int := base :: levels.opened.reverse

/-- Opens a block at `level`. -/
def push (levels : Levels) (level : Int) : Except Error Levels :=
  if level ≤ levels.top then .error (.notDeeper level levels.top)
  else .ok ⟨level :: levels.opened⟩

/-- Closes the innermost block, and gives its column and the blocks that are left. -/
def pop (levels : Levels) : Except Error (Int × Levels) :=
  match levels.opened with
  | [] => .error .onlyBase
  | level :: opened => .ok (level, ⟨opened⟩)

/-- Whether `level` is the base or the column of an open block. -/
def contains (levels : Levels) (level : Int) : Bool := levels.toList.contains level

/-- The form that shows every level. -/
def describe (levels : Levels) : String :=
  "IndentStack([" ++ ", ".intercalate (levels.toList.map toString) ++ "])"

/-! ## The levels as a list -/

@[simp] theorem toList_initial : initial.toList = [base] := rfl

theorem length_toList (levels : Levels) : levels.toList.length = levels.depth + 1 := by
  simp [toList, depth]

theorem toList_push {levels deeper : Levels} {level : Int}
    (h : levels.push level = .ok deeper) : deeper.toList = levels.toList ++ [level] := by
  unfold push at h
  split at h
  · simp at h
  · injection h with h
    simp [← h, toList]

theorem toList_pop {levels outer : Levels} {level : Int}
    (h : levels.pop = .ok (level, outer)) : levels.toList = outer.toList ++ [level] := by
  unfold pop at h
  split at h
  · simp at h
  · next opened hopened =>
    injection h with h
    injection h with hlevel houter
    simp [toList, hopened, ← hlevel, ← houter]

end Levels

end Offside
