import Offside.Position

/-!
# Indentation columns

The column that a run of leading blanks reaches.  It is computed on its own, from the number of
blanks passed so far: a space is one wide, a tab fills up to the next multiple of the tab width,
and anything else, a carriage return in particular, has no width.
-/

namespace Offside.Indentation

/-- The width of a run after one more character. -/
def widened (width : Int) (total : Int) (c : Char) : Except TabStopError Int :=
  if c = ' ' then .ok (total + 1)
  else if c = '\t' then
    if width = 0 then .error .zeroWidth else .ok (total + (width - total.fmod width))
  else .ok total

/-- The column after a run of leading blanks, counted from one. -/
def column (width : Int) (run : List Char) : Except TabStopError Int := do
  let total ← run.foldlM (widened width) 0
  return total + 1

/-- Where tabs have a width, every character widens a run. -/
theorem exists_widened {width : Int} (nonzero : width ≠ 0) (total : Int) (c : Char) :
    ∃ wider, widened width total c = .ok wider := by
  rw [widened, if_neg nonzero]
  split
  · exact ⟨_, rfl⟩
  · split <;> exact ⟨_, rfl⟩

/-- Where tabs have a width, every run has a column. -/
theorem exists_column {width : Int} (nonzero : width ≠ 0) (run : List Char) :
    ∃ level, column width run = .ok level := by
  suffices h : ∀ total, ∃ wider, run.foldlM (widened width) total = .ok wider by
    obtain ⟨total, ht⟩ := h 0
    exact ⟨total + 1, by rw [column, ht]; rfl⟩
  induction run with
  | nil => exact fun total => ⟨total, rfl⟩
  | cons c run ih =>
    intro total
    obtain ⟨wider, hw⟩ := exists_widened nonzero total c
    obtain ⟨widest, hs⟩ := ih wider
    exact ⟨widest, by rw [List.foldlM_cons, hw]; exact hs⟩

theorem column_ne_error {width : Int} (nonzero : width ≠ 0) (run : List Char)
    (cause : TabStopError) : column width run ≠ .error cause := by
  obtain ⟨level, reaches⟩ := exists_column nonzero run
  simp [reaches]

/-- The column after a run of leading blanks where tabs have a width. -/
def level {width : Int} (nonzero : width ≠ 0) (run : List Char) : Int :=
  match reaches : column width run with
  | .ok reached => reached
  | .error cause => absurd reaches (column_ne_error nonzero run cause)

theorem level_eq {width : Int} {nonzero : width ≠ 0} {run : List Char} {reached : Int}
    (reaches : column width run = .ok reached) : level nonzero run = reached := by
  unfold level
  split
  · next other h => exact Except.ok.inj (h.symm.trans reaches)
  · next cause h => exact absurd h (column_ne_error nonzero run cause)

end Offside.Indentation
