import Mathlib
import Offside.Proofs.Lexer.Consistency

/-!
# Failures that stay

A lexical error is not to be passed by: whoever pulls again gets it again, for as long as they
like, and meanwhile the lexer stands where it stood.  Only the journal grows, by one entry for each
call.  So no token comes after a lexical error.

The refusal of a decoder is different.  It comes after the literal has been read, and the next pull
goes on behind it.

## Strategy

The step that fails with a lexical error changes nothing but the journal, though the steps before
it in the same pull may have skipped lines, closed blocks or moved to another mode.  No step looks
at the journal, so from what is left the same step fails again (`exists_failing_of_transition`).
This makes a failing pull one that fails again (`IsStuck.of_next`), and induction over the calls
gives the rest.
-/

namespace Offside.Lexer

open Lines

variable {lexer left : Lexer} {tokens : List Token} {cause : Error}

/-- A pull fails with `cause`, which is noted, and nothing else changes. -/
def IsStuck (cause : Error) (lexer : Lexer) : Prop :=
  ∃ event, next lexer = .error cause (lexer.noting event)

/-! ## Failing again -/

/-- A step that fails, but not for the decoder, fails again on what it leaves. -/
theorem exists_failing_of_transition (h : Transition lexer (.error cause left))
    (lexical : ∀ refusal, cause ≠ .decoding refusal) :
    ∃ fault, left = lexer.failing fault ∧
      Transition left (.error cause (left.failing fault)) := by
  generalize hresult : EStateM.Result.error cause left = result at h
  -- What is noted is no part of the conditions under which a step applies.
  cases h with
  | mismatch mode indented reaches deeper =>
      obtain ⟨rfl, rfl⟩ := EStateM.Result.error.inj hresult
      have again := @Transition.mismatch (lexer.failing .badIndentation) _ _ _ mode indented reaches
        deeper
      exact ⟨.badIndentation, rfl, again⟩
  | refused mode content found fits refusal =>
      obtain ⟨rfl, -⟩ := EStateM.Result.error.inj hresult
      exact absurd rfl (lexical _)
  | @tooLarge shape mode content found large =>
      obtain ⟨rfl, rfl⟩ := EStateM.Result.error.inj hresult
      let fault := LexError.Cause.outOfRange (String.ofList shape.text)
      have again := @Transition.tooLarge (lexer.failing fault) shape mode content found large
      exact ⟨fault, rfl, again⟩
  | @unexpected c more mode split content found =>
      obtain ⟨rfl, rfl⟩ := EStateM.Result.error.inj hresult
      have again := @Transition.unexpected (lexer.failing (.unexpected c)) c more mode split content
        found
      exact ⟨.unexpected c, rfl, again⟩
  | _ => simp at hresult

/-- What a pull that fails leaves behind is stuck. -/
theorem IsStuck.of_next (h : next lexer = .error cause left)
    (lexical : ∀ refusal, cause ≠ .decoding refusal) : IsStuck cause left := by
  obtain ⟨middle, skipped, running, idles, last⟩ := exists_idles_of_next_error h
  obtain ⟨fault, rfl, again⟩ := exists_failing_of_transition last lexical
  have running' : (middle.failing fault).ending = none := idles.running running
  exact ⟨_, next_of_error running' again⟩

/-! ## All calls that follow -/

/-- A lexer that is stuck gives no tokens, and nothing but its journal changes. -/
theorem IsStuck.of_calls (stuck : IsStuck cause lexer)
    (lexical : ∀ refusal, cause ≠ .decoding refusal) (later : Calls lexer tokens left) :
    tokens = [] ∧ left = { lexer with journal := left.journal } ∧ IsStuck cause left := by
  induction later with
  | nil lexer => exact ⟨rfl, rfl, stuck⟩
  | token first more ih =>
      obtain ⟨event, failure⟩ := stuck
      simp [failure] at first
  | failed first more ih =>
      obtain ⟨event, failure⟩ := stuck
      obtain ⟨rfl, rfl⟩ := EStateM.Result.error.inj (failure.symm.trans first)
      -- What the call has noted is not compared.
      exact ih (.of_next failure lexical)

/-- After a lexical error, whatever came before it, every call fails with the same error and leaves
the same lexer behind, up to its journal. -/
theorem stuck_of_lexical {error : LexError} {stuck final : Lexer}
    (failure : next lexer = .error (.lexical error) stuck) (later : Calls stuck tokens final) :
    tokens = [] ∧ final = { stuck with journal := final.journal } ∧
      ∃ journal, next final = .error (.lexical error) { stuck with journal } := by
  have lexical : ∀ refusal, Error.lexical error ≠ .decoding refusal := by simp
  obtain ⟨htokens, hfinal, event, again⟩ :=
    (IsStuck.of_next failure lexical).of_calls lexical later
  have hnoting : final.noting event = { stuck with journal := event :: final.journal } := by
    rw [hfinal]
    rfl
  exact ⟨htokens, hfinal, event :: final.journal, hnoting ▸ again⟩

/-- A line that is deeper than the block that it closes down to is not got over. -/
theorem stuck_of_deeper_line :
    ∃ tokens lexer stuck final, Calls (start .standard ⟨"\tx\n y", "a"⟩) tokens lexer ∧
      tokens.map (·.kind) = [.layout .indent, .name, .layout .newline, .layout .dedent] ∧
      next lexer = .error (.lexical ⟨.badIndentation, some ⟨2, 1, "a"⟩⟩) stuck ∧
      Calls stuck [] final ∧ final = { stuck with journal := final.journal } ∧
      ∃ journal, next final =
        .error (.lexical ⟨.badIndentation, some ⟨2, 1, "a"⟩⟩) { stuck with journal } := by
  have given : outcome (take 4) (start .standard ⟨"\tx\n y", "a"⟩) =
      .ok [⟨.layout .indent, none, "", ⟨1, 1, "a"⟩⟩,
        ⟨.name, some (.text "x"), "x", ⟨1, 9, "a"⟩⟩,
        ⟨.layout .newline, none, "\n", ⟨1, 10, "a"⟩⟩,
        ⟨.layout .dedent, none, "", ⟨2, 1, "a"⟩⟩] := by
    cbv
  obtain ⟨lexer, pulls, hlexer⟩ := exists_pulls_of_outcome given
  have facts : (lexer.mode, lexer.cursor.rest, lexer.levels.top, lexer.here, lexer.ending,
      lexer.settings.tabWidth) = (.dedent, [' '] ++ ['y'], 1, ⟨2, 1, "a"⟩, none, 8) := by
    rw [← hlexer]
    cbv
  simp only [Prod.mk.injEq] at facts
  obtain ⟨mode, hrest, htop, hhere, running, hwidth⟩ := facts
  have content : IsContent ['y'] := ⟨'y', [], rfl, by decide, by decide, by decide⟩
  have indented : Indented lexer.cursor.rest [' '] ['y'] :=
    hrest ▸ indented_of_isContent (by simp [CharClass.has]) content
  have reaches : lexer.Reaches [' '] 2 := by
    rw [Reaches, hwidth]
    rfl
  have failure := next_of_error running
    (Transition.mismatch mode indented reaches (htop ▸ by decide))
  have writable : (⟨2, 1, "a"⟩ : Location).isWritable := by decide +kernel
  rw [hhere, Error.at_of_isWritable writable] at failure
  -- The theorem gives the call that follows, and then speaks of that one as well.
  obtain ⟨-, -, journal, again⟩ := stuck_of_lexical failure (.nil _)
  have later := Calls.failed again (.nil _)
  obtain ⟨-, hfinal, more⟩ := stuck_of_lexical failure later
  exact ⟨_, lexer, _, _, pulls.calls, rfl, failure, later, hfinal, more⟩

end Offside.Lexer
