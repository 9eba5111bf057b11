import Mathlib.Data.List.Count
import Mathlib.Tactic.Ring
import Offside.Indentation.Column
import Offside.Proofs.Lines.Text
import Offside.Proofs.Position.Order

/-!
# Indentation columns are columns

The column of a run of blanks is computed on its own, from a total that begins at zero.  It is the
column that the position reaches by reading the run from the beginning of a line.
-/

namespace Offside.Indentation

/-- A total and a column that is one greater stay so over a blank. -/
theorem widened_of_blank {width : Int} (nonzero : width ≠ 0) (line total : Int) {c : Char}
    (hc : CharClass.blank.has c) :
    widened width total c =
      .ok (((⟨line, total + 1⟩ : Position).moved width (.ofChar c)).column - 1) := by
  rcases Lines.eq_of_blank hc with rfl | rfl | rfl
  · simp [widened, Motion.ofChar, Position.moved]
  · simp [widened, Motion.ofChar, Position.moved, nonzero]
    omega
  · simp [widened, Motion.ofChar, Position.moved]

theorem foldlM_widened {width : Int} (nonzero : width ≠ 0) (line : Int) {run : List Char}
    (hrun : ∀ c ∈ run, CharClass.blank.has c) (total : Int) :
    run.foldlM (widened width) total =
      .ok (((⟨line, total + 1⟩ : Position).after width run).column - 1) := by
  induction run generalizing total with
  | nil => simp [pure, Except.pure]
  | cons c run ih =>
      have hc := hrun c (List.mem_cons_self ..)
      rw [List.foldlM_cons, widened_of_blank nonzero line total hc, Position.after_cons]
      generalize hmoved : (⟨line, total + 1⟩ : Position).moved width (.ofChar c) = moved
      have hline : moved = ⟨line, moved.column - 1 + 1⟩ := by
        have hsame := Position.line_moved width (Lines.ne_feed_of_blank hc) ⟨line, total + 1⟩
        rw [hmoved] at hsame
        rw [Int.sub_add_cancel]
        exact congrArg (Position.mk · moved.column) hsame
      have hrest := ih (fun d hd => hrun d (List.mem_cons_of_mem _ hd)) (moved.column - 1)
      rw [← hline] at hrest
      exact hrest

/-- The two ways to compute columns agree. -/
theorem column_eq_after {width : Int} (nonzero : width ≠ 0) (line : Int) {run : List Char}
    (hrun : ∀ c ∈ run, CharClass.blank.has c) :
    column width run = .ok ((⟨line, 1⟩ : Position).after width run).column := by
  rw [column, foldlM_widened nonzero line hrun]
  simp [bind, Except.bind, pure, Except.pure]

/-- The base level is the least column. -/
theorem one_le_of_column {width level : Int} (positive : 0 < width) {run : List Char}
    (hrun : ∀ c ∈ run, CharClass.blank.has c) (h : column width run = .ok level) : 1 ≤ level := by
  rw [column_eq_after (Int.ne_of_gt positive) 1 hrun] at h
  obtain rfl := Except.ok.inj h
  have hline := Position.line_after width run ⟨1, 1⟩
  rw [List.count_eq_zero.mpr (Lines.not_mem_of_blank hrun)] at hline
  rcases Position.le_iff.mp (Position.le_after positive run ⟨1, 1⟩) with hlt | ⟨-, hle⟩
  · exact absurd (hline.trans (Int.add_zero _)) (Int.ne_of_gt hlt)
  · exact hle

/-! ## Spaces and tabs -/

theorem foldlM_widened_spaces (width total : Int) (count : ℕ) :
    (List.replicate count ' ').foldlM (widened width) total = .ok (total + count) := by
  induction count generalizing total with
  | zero => simp [pure, Except.pure]
  | succ count ih =>
      have hspace : widened width total ' ' = .ok (total + 1) := rfl
      rw [List.replicate_succ, List.foldlM_cons, hspace]
      show (List.replicate count ' ').foldlM (widened width) (total + 1) = _
      rw [ih]
      congr 1
      push_cast
      omega

/-- From a multiple of the tab width, a tab goes on to the next one. -/
theorem widened_tab {width : Int} (positive : 0 < width) (count : Int) :
    widened width (count * width) '\t' = .ok (count * width + width) := by
  have hmultiple : (count * width).fmod width = 0 := Int.mul_fmod_left count width
  have hwidth : width ≠ 0 := Int.ne_of_gt positive
  simp [widened, hwidth, hmultiple]

/-- Each space is one column wide. -/
theorem column_spaces (width : Int) (count : ℕ) :
    column width (List.replicate count ' ') = .ok (1 + count) := by
  rw [column, foldlM_widened_spaces, Int.zero_add, Int.add_comm]
  rfl

theorem foldlM_widened_tabs {width : Int} (positive : 0 < width) {run : List Char}
    (hrun : ∀ c ∈ run, CharClass.blank.has c) (spaceless : ' ' ∉ run) (start : ℕ) :
    run.foldlM (widened width) (start * width) = .ok ((start + run.count '\t' : ℕ) * width) := by
  induction run generalizing start with
  | nil => rfl
  | cons c run ih =>
      obtain ⟨hc, hmore⟩ := List.forall_mem_cons.mp hrun
      obtain ⟨hspace, hrest⟩ := List.ne_and_not_mem_of_not_mem_cons spaceless
      rw [List.foldlM_cons]
      rcases Lines.eq_of_blank hc with rfl | rfl | rfl
      · exact absurd rfl hspace
      · have hnext : (start * width + width : Int) = (start + 1 : ℕ) * width := by
          push_cast
          ring
        rw [widened_tab positive, hnext, List.count_cons_self]
        show run.foldlM (widened width) ((start + 1 : ℕ) * width) = _
        rw [ih hmore hrest, Nat.add_assoc, Nat.add_comm 1]
      · rw [List.count_cons_of_ne (by decide)]
        exact ih hmore hrest start

/-- Without spaces, a run reaches as many tab widths as it has tabs. -/
theorem column_tabs {width : Int} (positive : 0 < width) {run : List Char}
    (hrun : ∀ c ∈ run, CharClass.blank.has c) (spaceless : ' ' ∉ run) :
    column width run = .ok (1 + run.count '\t' * width) := by
  have htotal := foldlM_widened_tabs positive hrun spaceless 0
  rw [Nat.cast_zero, Int.zero_mul, Nat.zero_add] at htotal
  rw [column, htotal, Int.add_comm]
  rfl

end Offside.Indentation
