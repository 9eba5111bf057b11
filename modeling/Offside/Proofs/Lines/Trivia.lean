import Mathlib.Data.List.DropRight
import Offside.Proofs.Lines.Text

/-!
# Trivia

What makes no tokens: blanks, comments, and lines that hold nothing else.  A comment goes up to the
end of its line, so whether a text is trivia depends on what follows it.
-/

namespace Offside.Lines

/-- The part of `text` that stands in its last line. -/
def lastLine (text : List Char) : List Char := text.rtakeWhile (· ≠ '\n')

theorem lastLine_append {line : List Char} (hline : '\n' ∉ line) (text : List Char) :
    lastLine (text ++ line) = lastLine text ++ line := by
  have hreverse : ∀ c ∈ line.reverse, decide (c ≠ '\n') = true := by
    intro c hc
    simpa using fun heq : c = '\n' => hline (heq ▸ List.mem_reverse.mp hc)
  simp only [lastLine, List.rtakeWhile, List.reverse_append]
  rw [List.takeWhile_append_of_pos hreverse, List.reverse_append, List.reverse_reverse]

theorem lastLine_feed {line : List Char} (hline : '\n' ∉ line) (text : List Char) :
    lastLine (text ++ '\n' :: line) = line := by
  have hnone : lastLine (text ++ ['\n']) = [] := by simp [lastLine]
  rw [← List.singleton_append, ← List.append_assoc, lastLine_append hline, hnone,
    List.nil_append]

/-- Whether a line ends in front of `text`. -/
def EndsLine (text : List Char) : Prop := text = [] ∨ Lexeme.atLineBreak text = true

/-- `text` holds nothing but blanks, line feeds, and comments that go up to the end of their lines,
where `rest` follows. -/
inductive Trivia : List Char → List Char → Prop
  | nil (rest : List Char) : Trivia [] rest
  | blank {c : Char} {text rest : List Char} (hc : CharClass.blank.has c)
      (more : Trivia text rest) : Trivia (c :: text) rest
  | feed {text rest : List Char} (more : Trivia text rest) : Trivia ('\n' :: text) rest
  | comment {body text rest : List Char} (hbody : '\n' ∉ body) (ends : EndsLine (text ++ rest))
      (more : Trivia text rest) : Trivia (commentMark :: (body ++ text)) rest

theorem Trivia.append {text more rest : List Char} (h : Trivia text (more ++ rest))
    (h' : Trivia more rest) : Trivia (text ++ more) rest := by
  generalize hfollowing : more ++ rest = following at h
  induction h with
  | nil following => exact h'
  | blank hc more' ih => exact .blank hc (ih hfollowing)
  | feed more' ih => exact .feed (ih hfollowing)
  | @comment body text following hbody ends more' ih =>
      rw [List.cons_append, List.append_assoc]
      refine .comment hbody ?_ (ih hfollowing)
      rw [List.append_assoc, hfollowing]
      exact ends

theorem trivia_of_blank {run : List Char} (hrun : ∀ c ∈ run, CharClass.blank.has c)
    (rest : List Char) : Trivia run rest := by
  induction run with
  | nil => exact .nil rest
  | cons c run ih =>
      exact .blank (hrun c (List.mem_cons_self ..))
        (ih fun d hd => hrun d (List.mem_cons_of_mem _ hd))

theorem trivia_of_isComment {comment rest : List Char} (h : IsComment comment)
    (ends : EndsLine rest) : Trivia comment rest := by
  rcases h with rfl | ⟨body, rfl, hbody⟩
  · exact .nil rest
  · rw [← List.append_nil body]
    exact .comment hbody ends (.nil rest)

theorem trivia_of_isBlank {line rest : List Char} (h : IsBlank line) (ends : EndsLine rest) :
    Trivia line rest := by
  obtain ⟨run, comment, rfl, hrun, hcomment⟩ := h
  exact (trivia_of_blank hrun _).append (trivia_of_isComment hcomment ends)

theorem isBlank_of_blank {run : List Char} (hrun : ∀ c ∈ run, CharClass.blank.has c) :
    IsBlank run :=
  ⟨run, [], (List.append_nil run).symm, hrun, Or.inl rfl⟩

theorem IsComment.isBlank {comment : List Char} (h : IsComment comment) : IsBlank comment :=
  ⟨[], comment, rfl, fun _ hc => absurd hc List.not_mem_nil, h⟩

/-- A line without lexemes that goes on without lexemes has none. -/
theorem IsBlank.append {line more : List Char} (h : IsBlank line) (h' : IsBlank more) :
    IsBlank (line ++ more) := by
  obtain ⟨run, comment, rfl, hrun, hcomment⟩ := h
  rcases hcomment with rfl | ⟨body, rfl, hbody⟩
  · obtain ⟨run', comment', rfl, hrun', hcomment'⟩ := h'
    refine ⟨run ++ run', comment', by simp, ?_, hcomment'⟩
    intro c hc
    exact (List.mem_append.mp hc).elim (hrun c) (hrun' c)
  · -- What follows a comment belongs to it.
    exact ⟨run, commentMark :: (body ++ more), by simp, hrun,
      Or.inr ⟨body ++ more, rfl, List.not_mem_append hbody h'.not_mem⟩⟩

end Offside.Lines
