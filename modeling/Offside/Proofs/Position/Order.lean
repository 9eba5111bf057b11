import Mathlib.Data.Prod.Lex
import Mathlib.Data.Int.Order.Basic
import Offside.Alphabet
import Offside.Settings
import Offside.Position

/-!
# The order of positions

Positions are ordered as in reading: by line, and within a line by column.  Reading a character
never goes back, and it goes on unless the character is a carriage return.  The line of a position
counts the line feeds read so far.
-/

namespace Offside.Position

/-- A position as a pair in lexicographic order. -/
def key (position : Position) : ℤ ×ₗ ℤ := toLex (position.line, position.column)

theorem key_injective : Function.Injective key := by
  rintro ⟨line, column⟩ ⟨line', column'⟩ h
  obtain ⟨rfl, rfl⟩ := Prod.mk.inj (toLex.injective h)
  rfl

noncomputable instance : LinearOrder Position := LinearOrder.lift' key key_injective

theorem le_iff {position other : Position} :
    position ≤ other ↔
      position.line < other.line ∨ position.line = other.line ∧ position.column ≤ other.column :=
  Prod.Lex.le_iff

theorem lt_iff {position other : Position} :
    position < other ↔
      position.line < other.line ∨ position.line = other.line ∧ position.column < other.column :=
  Prod.Lex.lt_iff

/-- A character with a width, or a line feed, moves the position on. -/
theorem lt_moved {width : Int} (positive : 0 < width) {motion : Motion} (h : motion ≠ .still)
    (position : Position) : position < position.moved width motion := by
  rw [lt_iff]
  cases motion with
  | newline => exact Or.inl (Int.lt_succ position.line)
  | still => exact absurd rfl h
  | tab =>
      have hlt := Int.fmod_lt_of_pos (position.column - 1) positive
      exact Or.inr ⟨rfl, by simp only [moved]; omega⟩
  | forward => exact Or.inr ⟨rfl, Int.lt_succ position.column⟩

theorem le_moved {width : Int} (positive : 0 < width) (motion : Motion) (position : Position) :
    position ≤ position.moved width motion := by
  by_cases h : motion = .still
  · rw [h, moved]
  · exact (lt_moved positive h position).le

theorem le_after {width : Int} (positive : 0 < width) (text : List Char) (position : Position) :
    position ≤ position.after width text := by
  induction text generalizing position with
  | nil => exact le_rfl
  | cons c text ih => exact (le_moved positive _ position).trans (ih _)

/-- A text that is not all carriage returns moves the position on. -/
theorem lt_after {width : Int} (positive : 0 < width) {text : List Char} {c : Char}
    (hmem : c ∈ text) (hc : c ≠ '\r') (position : Position) :
    position < position.after width text := by
  obtain ⟨before, rest, rfl⟩ := List.append_of_mem hmem
  have hmotion : Motion.ofChar c ≠ .still := by
    unfold Motion.ofChar
    split_ifs <;> simp
  rw [after_append]
  calc position
      ≤ position.after width before := le_after positive before position
    _ < (position.after width before).moved width (.ofChar c) := lt_moved positive hmotion _
    _ ≤ (position.after width before).after width (c :: rest) := le_after positive rest _

@[simp] theorem moved_feed (width : Int) (position : Position) :
    position.moved width (.ofChar '\n') = ⟨position.line + 1, 1⟩ := rfl

/-- A carriage return has no width. -/
@[simp] theorem moved_return (width : Int) (position : Position) :
    position.moved width (.ofChar '\r') = position := rfl

theorem after_returns (width : Int) {run : List Char} (hrun : ∀ c ∈ run, c = '\r')
    (position : Position) : position.after width run = position := by
  induction run with
  | nil => rfl
  | cons c run ih =>
      rw [hrun c (List.mem_cons_self ..), after_cons, moved_return]
      exact ih fun d hd => hrun d (List.mem_cons_of_mem _ hd)

theorem line_moved (width : Int) {c : Char} (hc : c ≠ '\n') (position : Position) :
    (position.moved width (.ofChar c)).line = position.line := by
  rw [Motion.ofChar, if_neg hc]
  split_ifs <;> rfl

/-- The line of a position counts line feeds. -/
theorem line_after (width : Int) (text : List Char) (position : Position) :
    (position.after width text).line = position.line + text.count '\n' := by
  induction text generalizing position with
  | nil => simp
  | cons c text ih =>
      rw [after_cons, ih, List.count_cons]
      by_cases hc : c = '\n'
      · rw [hc, moved_feed, if_pos (beq_self_eq_true _)]
        push_cast
        omega
      · rw [line_moved width hc, if_neg (by simpa using hc), Nat.add_zero]

/-- A position of which neither number is below one or above `bound`. -/
structure IsWithin (bound : Int) (position : Position) : Prop where
  line : 1 ≤ position.line ∧ position.line ≤ bound
  column : 1 ≤ position.column ∧ position.column ≤ bound

/-- A character moves a position by the width of a tab at most. -/
theorem IsWithin.moved {width bound : Int} {position : Position} (h : position.IsWithin bound)
    (positive : 0 < width) (motion : Motion) :
    (position.moved width motion).IsWithin (bound + width) := by
  obtain ⟨hline, hcolumn⟩ := h
  cases motion with
  | newline => exact ⟨by simp only [Position.moved]; omega, by simp only [Position.moved]; omega⟩
  | still => exact ⟨by simp only [Position.moved]; omega, by simp only [Position.moved]; omega⟩
  | forward => exact ⟨by simp only [Position.moved]; omega, by simp only [Position.moved]; omega⟩
  | tab =>
      -- The way to the next tab stop is not empty and no longer than a tab is wide.
      have hnonneg := Int.fmod_nonneg_of_pos (position.column - 1) positive
      have hlt := Int.fmod_lt_of_pos (position.column - 1) positive
      exact ⟨by simp only [Position.moved]; omega, by simp only [Position.moved]; omega⟩

/-- Reading a text leads no further than all tabs would. -/
theorem IsWithin.after {width bound : Int} {position : Position} (h : position.IsWithin bound)
    (positive : 0 < width) (text : List Char) :
    (position.after width text).IsWithin (bound + text.length * width) := by
  induction text generalizing position bound with
  | nil => simpa using h
  | cons c text ih =>
      have hbound : bound + ((c :: text).length : Int) * width =
          bound + width + text.length * width := by
        rw [List.length_cons, Int.natCast_succ, Int.add_mul]
        omega
      rw [hbound]
      exact ih (h.moved positive _)

/-- Characters other than line feeds, carriage returns and tabs are one column wide. -/
theorem after_of_not_stop {width : Int} {text : List Char}
    (h : ∀ c ∈ text, CharClass.stringStop.has c = false) (position : Position) :
    position.after width text = ⟨position.line, position.column + text.length⟩ := by
  induction text generalizing position with
  | nil => simp
  | cons c text ih =>
      obtain ⟨hc, htext⟩ := List.forall_mem_cons.mp h
      have forward : Motion.ofChar c = .forward := by
        simp only [CharClass.has, Bool.or_eq_false_iff, beq_eq_false_iff_ne] at hc
        rw [Motion.ofChar, if_neg hc.1.1, if_neg hc.1.2, if_neg hc.2]
      rw [after_cons, forward, ih htext]
      simp only [moved, List.length_cons, Position.mk.injEq, true_and]
      omega

theorem line_after_of_not_mem {width : Int} {text : List Char} (h : '\n' ∉ text)
    (position : Position) : (position.after width text).line = position.line := by
  rw [line_after, List.count_eq_zero_of_not_mem h]
  exact Int.add_zero _

end Offside.Position
