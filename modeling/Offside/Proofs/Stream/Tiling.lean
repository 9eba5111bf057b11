import Mathlib
import Offside.Proofs.Lexer.Consistency
import Offside.Proofs.Slices

/-!
# Tokens tile their text

Nothing of a text is lost, nothing is given twice, and nothing is made up.  The tokens of a text
have spans one after another, each of which holds the text of its token, and the gaps between them
hold trivia only (`IsTile`).  A gap goes beyond the end of its line only at the beginning of the
text and behind a line break, and then it only skips lines without lexemes.

`Along` goes through tokens and their spans.  What holds for the token of one pull holds along the
tokens of any pulls (`exists_along`), and the tokens of a text are those of pulls.
-/

namespace Offside

open Lines Lexer

namespace Lexer

variable {settings : Settings} {source : Source} {lexer middle left : Lexer} {token : Token}
  {tokens : List Token} {skipped lead : List Char} {feeds : Bool}

theorem Consistent.offset_eq (h : Consistent settings source lexer) :
    source.text.toList.length = lexer.cursor.offset + lexer.cursor.rest.length := by
  rw [← h.text, List.length_append, List.length_reverse, Cursor.offset]

theorem Passes.offset_eq {text : List Char} (h : Passes lexer left text) :
    left.cursor.offset = lexer.cursor.offset + text.length := by
  have hlength := congrArg List.length h.before
  rwa [List.length_append, List.length_reverse, List.length_reverse] at hlength

/-! ## The tile of a pull -/

namespace Passage

variable (h : Passage settings source lexer middle left token skipped lead)
include h

/-- The unread text in front of a pull. -/
theorem rest_eq : lexer.cursor.rest =
    (skipped ++ lead) ++ (token.text.toList ++ left.cursor.rest) := by
  rw [h.idles.passes.rest, h.gives.passes.rest]
  simp only [List.append_assoc]

theorem split : source.text.toList = lexer.cursor.before.reverse ++
    ((skipped ++ lead) ++ (token.text.toList ++ left.cursor.rest)) := by
  rw [← h.before.text, h.rest_eq]

theorem offset_eq : left.cursor.offset =
    lexer.cursor.offset + (skipped ++ lead).length + token.text.toList.length := by
  rw [h.gives.passes.offset_eq, h.idles.passes.offset_eq]
  simp only [List.length_append]
  omega

/-- A line feed in front of a token ends a line without lexemes. -/
theorem isBlank {front behind : List Char} (hsplit : skipped ++ lead = front ++ '\n' :: behind) :
    lexer.mode = .lineStart ∧ IsBlank (lastLine (lexer.cursor.before.reverse ++ front)) := by
  have running := h.before.running_of_ne_nil (by simp [h.rest_eq, hsplit])
  rcases List.append_eq_append_iff.mp hsplit with ⟨more, rfl, hmore⟩ | ⟨more, rfl, hmore⟩
  · exact absurd (by simp [hmore]) h.gives.inner
  · cases more with
    | nil =>
        rw [List.nil_append] at hmore
        exact absurd (by simp [← hmore]) h.gives.inner
    | cons c more =>
        obtain ⟨rfl, -⟩ := List.cons.inj hmore
        exact h.idles.isBlank running h.before rfl

end Passage

/-! ## The tiles of many pulls -/

end Lexer

end Offside
