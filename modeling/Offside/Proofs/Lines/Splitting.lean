import Offside.Proofs.Lines.Text
import Offside.Proofs.Position.Order

/-!
# Texts as lines

A text is made of whole lines, each with its line feed, and of a rest without one (`exists_ended`).
Cutting a text at its line feeds gives back the whole lines and goes on with the rest
(`splitOn_ended_append`), so a change in the rest leaves the lines in front of it alone.  Behind
whole lines a line begins, whose number counts them.

In the same way what follows a place in a text is the rest of the line there, and then nothing or a
line feed (`exists_lineTail`).
-/

namespace Offside.Lines

open Lexeme

/-- Lines, each with its line feed. -/
def ended (lines : List (List Char)) : List Char := lines.flatMap (· ++ ['\n'])

@[simp] theorem ended_nil : ended [] = [] := rfl

theorem ended_cons (line : List Char) (lines : List (List Char)) :
    ended (line :: lines) = line ++ '\n' :: ended lines := by
  simp [ended]

theorem count_ended {lines : List (List Char)} (h : ∀ line ∈ lines, '\n' ∉ line) :
    (ended lines).count '\n' = lines.length := by
  induction lines with
  | nil => rfl
  | cons line lines ih =>
      have hline := List.count_eq_zero_of_not_mem (h line (List.mem_cons_self ..))
      have hlines := ih fun line hmem => h line (List.mem_cons_of_mem _ hmem)
      rw [ended_cons, List.count_append, List.count_cons_self, hline, hlines, List.length_cons,
        Nat.zero_add]

/-- Behind whole lines, a line begins. -/
theorem after_ended (width : Int) {lines : List (List Char)} (h : ∀ line ∈ lines, '\n' ∉ line)
    (number : Int) :
    (⟨number, 1⟩ : Position).after width (ended lines) = ⟨number + lines.length, 1⟩ := by
  induction lines generalizing number with
  | nil => simp
  | cons line lines ih =>
      have hline := h line (List.mem_cons_self ..)
      have hlines := ih fun line hmem => h line (List.mem_cons_of_mem _ hmem)
      rw [ended_cons, Position.after_append, Position.after_cons, Position.moved_feed,
        Position.line_after_of_not_mem hline, hlines]
      simp only [List.length_cons, Position.mk.injEq, and_true]
      push_cast
      omega

/-- Every text is made of whole lines and a rest. -/
theorem exists_ended (text : List Char) :
    ∃ lines rest, text = ended lines ++ rest ∧ (∀ line ∈ lines, '\n' ∉ line) ∧ '\n' ∉ rest := by
  induction hlength : text.length using Nat.strong_induction_on generalizing text with
  | h length ih =>
      rcases exists_lineFeed text with hlast | ⟨line, more, rfl, hline⟩
      · exact ⟨[], text, rfl, by simp, hlast⟩
      · have hshorter : more.length < length := by
          rw [← hlength, List.length_append, List.length_cons]
          omega
        obtain ⟨lines, rest, rfl, hlines, hrest⟩ := ih _ hshorter more rfl
        refine ⟨line :: lines, rest, by simp [ended_cons], ?_, hrest⟩
        intro other hmem
        rcases List.mem_cons.mp hmem with rfl | hmem
        · exact hline
        · exact hlines other hmem

/-- Where a text is empty or ends in a line feed, there is no rest. -/
theorem eq_nil_of_getLast? {lines : List (List Char)} {rest : List Char} (hrest : '\n' ∉ rest)
    (h : ended lines ++ rest = [] ∨ (ended lines ++ rest).getLast? = some '\n') : rest = [] := by
  by_contra hne
  rcases h with hnil | hlast
  · exact hne (List.append_eq_nil_iff.mp hnil).2
  · rw [List.getLast?_append_of_ne_nil _ hne] at hlast
    exact hrest (List.mem_of_getLast? hlast)

/-- Cutting gives back the whole lines. -/
theorem splitOn_ended_append {lines : List (List Char)} (h : ∀ line ∈ lines, '\n' ∉ line)
    (text : List Char) : (ended lines ++ text).splitOn '\n' = lines ++ text.splitOn '\n' := by
  induction lines with
  | nil => rfl
  | cons line lines ih =>
      have hline := h line (List.mem_cons_self ..)
      rw [ended_cons, List.append_assoc, List.cons_append,
        List.splitOn_append_cons_self_of_not_mem hline,
        ih fun line hmem => h line (List.mem_cons_of_mem _ hmem)]
      rfl

/-- Every text goes on with the rest of a line, and then with nothing or a line feed. -/
theorem exists_lineTail (text : List Char) :
    ∃ line tail, text = line ++ tail ∧ '\n' ∉ line ∧ IsLineTail tail := by
  rcases exists_lineFeed text with hlast | ⟨line, more, rfl, hline⟩
  · exact ⟨text, [], (List.append_nil text).symm, hlast, Or.inl rfl⟩
  · exact ⟨line, '\n' :: more, rfl, hline, Or.inr ⟨more, rfl⟩⟩

/-- What follows a line does not depend on what the line is. -/
theorem exists_splitOn_of_lineTail {tail : List Char} (h : IsLineTail tail) :
    ∃ behind, ∀ line, '\n' ∉ line → (line ++ tail).splitOn '\n' = line :: behind := by
  rcases h with rfl | ⟨more, rfl⟩
  · refine ⟨[], fun line hline => ?_⟩
    rw [List.append_nil, List.splitOn_eq_singleton hline]
  · exact ⟨more.splitOn '\n', fun line hline =>
      List.splitOn_append_cons_self_of_not_mem hline more⟩

end Offside.Lines
