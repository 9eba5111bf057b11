import Mathlib.Logic.Function.Iterate
import Offside.Proofs.Lexer.Consistency
import Offside.Proofs.Lexer.OtherSettings

/-!
# Decoders do not steer the lexer

Two lexers for the same text whose settings differ in the decoder alone go through the same states,
pull after pull, whatever the decoders do.  Each pull has the same outcome under both, except where
it comes to a string literal: there the outcome is what the decoder makes of the body, the value of
a token or a refusal, and everything else about it is the same (`Counterpart`).  In particular a
refusal is not the end: the pull that follows it goes on behind the literal, as it would behind a
literal that was decoded.

## Strategy

A pull under another decoder goes the same way up to the first lexeme (`arrival_next`).  A lexeme
that is no string literal has a value that no decoder is asked for (`exists_value_of_unquoted`).  A
string literal has been read before the decoder is asked, so what is left behind it does not depend
on the answer (`literal`).  Induction on the number of pulls carries the equality of states along.
-/

namespace Offside

/-- The settings with another decoder. -/
def Settings.withDecoder (settings : Settings) (decoder : Decoder) : Settings :=
  { settings with decoder }

/-- Lexemes other than string literals have values that do not depend on the settings. -/
theorem Lexeme.Shape.exists_value_of_unquoted {shape : Lexeme.Shape}
    (unquoted : ∀ mark body, shape ≠ .quoted mark body) :
    shape.kind ≠ .string ∧ ∃ value, ∀ settings, shape.value settings = .ok value := by
  cases shape with
  | quoted mark body => exact absurd rfl (unquoted mark body)
  | operator op => exact ⟨Kind.noConfusion, none, fun _ => rfl⟩
  | word letters =>
      cases hword : Keyword.ofText? (String.ofList letters) with
      | some keyword => exact ⟨by simp [kind, hword], none, fun _ => by simp [value, hword]⟩
      | none =>
          refine ⟨by simp [kind, hword], some (.text (String.ofList letters)), fun _ => ?_⟩
          simp [value, hword]
  | integer digits => exact ⟨Kind.noConfusion, _, fun _ => rfl⟩

namespace Lexer

open Lexeme

variable {settings : Settings} {source : Source} {decoder : Decoder} {lexer left : Lexer}
  {mark : Char} {body : List Char}

/-- The lexer behind a lexeme. -/
def past (front : Lexer) (shape : Shape) : Lexer :=
  { front with cursor := shape.pass front.settings.tabWidth front.cursor }

/-- How a pull ends in front of a string literal.  The literal is read, and then the decoder is
asked for the value of its body. -/
def literal (front : Lexer) (mark : Char) (body : List Char) : EStateM.Result Error Lexer Token :=
  let shape := Shape.quoted mark body
  match front.settings.decoder.run (String.ofList body) with
  | .ok value =>
      .ok ⟨.string, some (.text value), String.ofList shape.text, front.here⟩ (front.past shape)
  | .error refusal => .error (.decoding refusal) (front.past shape)

/-- The results of one pull under `settings`, and under the same settings with another decoder. -/
inductive Counterpart (settings : Settings) (decoder : Decoder) :
    EStateM.Result Error Lexer Token → EStateM.Result Error Lexer Token → Prop
  /-- A token that is no string literal is the same. -/
  | token {token : Token} {left : Lexer} (unquoted : token.kind ≠ .string) :
      Counterpart settings decoder (.ok token left)
        (.ok token (left.under (settings.withDecoder decoder)))
  /-- An error of the text is the same. -/
  | failure {cause : Error} {left : Lexer} (lexical : ∀ refusal, cause ≠ .decoding refusal) :
      Counterpart settings decoder (.error cause left)
        (.error cause (left.under (settings.withDecoder decoder)))
  /-- A string literal is the same, and each decoder is asked for its value. -/
  | literal {front : Lexer} {mark : Char} {body : List Char} (kept : front.settings = settings)
      (faces : front.Faces (.quoted mark body)) :
      Counterpart settings decoder (front.literal mark body)
        ((front.under (settings.withDecoder decoder)).literal mark body)

/-! ## One pull -/

theorem next_of_quoted (running : lexer.ending = none)
    (faces : lexer.Faces (.quoted mark body)) : next lexer = lexer.literal mark body := by
  obtain ⟨mode, content, found⟩ := faces
  have fits : ¬ (Shape.quoted mark body).IsTooLarge lexer.settings := id
  unfold literal
  cases hrun : lexer.settings.decoder.run (String.ofList body) with
  | ok value =>
      apply next_of_token running
      apply Transition.lexeme mode content found
      apply Shape.read_of_value _ fits
      simp only [Shape.value, hrun]
  | error refusal =>
      apply next_of_error running
      apply Transition.refused mode content found fits
      simp only [Shape.value, hrun]

/-- In front of any other lexeme the decoder does not matter. -/
theorem counterpart_of_unquoted {shape : Shape} (running : lexer.ending = none)
    (faces : lexer.Faces shape) (unquoted : ∀ mark body, shape ≠ .quoted mark body) :
    Counterpart lexer.settings decoder (next lexer)
      (next (lexer.under (lexer.settings.withDecoder decoder))) := by
  generalize hother : lexer.settings.withDecoder decoder = other
  have running' : (lexer.under other).ending = none := running
  have large_iff : shape.IsTooLarge other ↔ shape.IsTooLarge lexer.settings := by
    subst hother
    cases shape <;> rfl
  obtain ⟨hkind, value, hvalue⟩ := Shape.exists_value_of_unquoted unquoted
  obtain ⟨mode, content, found⟩ := faces
  -- What a lexeme gives is the same on both sides, because only the decoders differ.
  by_cases large : shape.IsTooLarge lexer.settings
  · have failure := next_of_error running' (.tooLarge mode content found (large_iff.mpr large))
    rw [next_of_error running (.tooLarge mode content found large), failure, ← hother]
    exact .failure (Error.at_ne_decoding _ _)
  · have read := Shape.read_of_value lexer.here large (hvalue lexer.settings)
    have read' := Shape.read_of_value lexer.here (large_iff.not.mpr large) (hvalue other)
    have given := next_of_token running' (.lexeme mode content found read')
    rw [next_of_token running (.lexeme mode content found read), given, ← hother]
    exact .token hkind

theorem counterpart_of_faces (decoder : Decoder) {shape : Shape}
    (running : lexer.ending = none) (faces : lexer.Faces shape) :
    Counterpart lexer.settings decoder (next lexer)
      (next (lexer.under (lexer.settings.withDecoder decoder))) := by
  by_cases quoted : ∃ mark body, shape = .quoted mark body
  · obtain ⟨mark, body, rfl⟩ := quoted
    have running' : (lexer.under (lexer.settings.withDecoder decoder)).ending = none := running
    rw [next_of_quoted running faces, next_of_quoted running' faces.under]
    exact .literal rfl faces
  · have unquoted : ∀ mark body, shape ≠ .quoted mark body :=
      fun mark body h => quoted ⟨mark, body, h⟩
    exact counterpart_of_unquoted running faces unquoted

/-- One pull under two decoders. -/
theorem Consistent.counterpart (consistent : Consistent settings source lexer)
    (decoder : Decoder) :
    Counterpart settings decoder (next lexer)
      (next (lexer.under (settings.withDecoder decoder))) := by
  cases running : lexer.ending with
  | none =>
      have width : (settings.withDecoder decoder).tabWidth = lexer.settings.tabWidth := by
        rw [consistent.settings]
        rfl
      cases arrival_next running width with
      | lexeme faces running kept here other =>
          have arrived := counterpart_of_faces decoder running faces
          rw [kept, consistent.settings] at arrived
          rw [here, other]
          exact arrived
      | token layout here other =>
          rw [here, other]
          exact .token fun hkind => by simp [hkind, Kind.isLayout] at layout
      | failure lexical here other =>
          rw [here, other]
          exact .failure lexical
  | some ending =>
      have running' : (lexer.under (settings.withDecoder decoder)).ending = some ending := running
      obtain ⟨rfl, -⟩ := consistent.ended ending running
      rw [next_of_ended running, next_of_ended running']
      exact .token Kind.noConfusion

/-- A literal is passed by, whatever the decoder makes of it. -/
theorem literal_leaves (front : Lexer) (mark : Char) (body : List Char) :
    (∃ token, front.literal mark body = .ok token (front.past (.quoted mark body))) ∨
      ∃ cause, front.literal mark body = .error cause (front.past (.quoted mark body)) := by
  unfold literal
  cases front.settings.decoder.run (String.ofList body) with
  | ok value => exact Or.inl ⟨_, rfl⟩
  | error refusal => exact Or.inr ⟨_, rfl⟩

/-! ## Any number of pulls -/

/-- What counterparts leave behind differs in the decoder alone. -/
theorem Counterpart.left_eq {other : Lexer}
    (h : Counterpart settings decoder (next lexer) (next other)) :
    leftBy next other = (leftBy next lexer).under (settings.withDecoder decoder) := by
  unfold leftBy
  generalize next lexer = result at h ⊢
  generalize next other = result' at h ⊢
  cases h with
  | token unquoted => rfl
  | failure lexical => rfl
  | @literal front mark body kept faces =>
      subst kept
      have passes : (front.under (front.settings.withDecoder decoder)).past (.quoted mark body) =
          (front.past (.quoted mark body)).under (front.settings.withDecoder decoder) := rfl
      -- Both may be refused, and then both are passed by.
      rcases literal_leaves front mark body with ⟨token, h⟩ | ⟨cause, h⟩ <;>
        rcases literal_leaves (front.under (front.settings.withDecoder decoder)) mark body with
          ⟨token', h'⟩ | ⟨cause', h'⟩ <;>
        rw [h, h', passes]

theorem Consistent.leftBy_next (h : Consistent settings source lexer) :
    Consistent settings source (leftBy next lexer) := by
  unfold leftBy
  cases hnext : next lexer with
  | ok token left => exact h.of_next hnext
  | error cause left => exact h.of_next_error hnext

theorem consistent_iterate (settings : Settings) (source : Source) (count : ℕ) :
    Consistent settings source ((leftBy next)^[count] (start settings source)) := by
  induction count with
  | zero => exact consistent_start settings source
  | succ count ih =>
      rw [Function.iterate_succ_apply']
      exact ih.leftBy_next

/-- After as many pulls, lexers under two decoders are the same but for the decoder. -/
theorem iterate_withDecoder (settings : Settings) (decoder : Decoder) (source : Source)
    (count : ℕ) :
    (leftBy next)^[count] (start (settings.withDecoder decoder) source) =
      ((leftBy next)^[count] (start settings source)).under (settings.withDecoder decoder) := by
  induction count with
  | zero => rfl
  | succ count ih =>
      have counterpart := (consistent_iterate settings source count).counterpart decoder
      rw [Function.iterate_succ_apply', Function.iterate_succ_apply', ih]
      exact counterpart.left_eq

/-- After any number of pulls, successful or not, the lexers under two decoders differ in the
decoder alone, and what the next pulls give differs at most in what the decoders make of a string
literal. -/
theorem counterpart_of_iterate (settings : Settings) (decoder : Decoder) (source : Source)
    (count : ℕ) :
    let lexer := (leftBy next)^[count] (start settings source)
    let other := (leftBy next)^[count] (start (settings.withDecoder decoder) source)
    other = lexer.under (settings.withDecoder decoder) ∧
      Counterpart settings decoder (next lexer) (next other) := by
  intro lexer other
  have consistent : Consistent settings source lexer := consistent_iterate settings source count
  have hother : other = lexer.under (settings.withDecoder decoder) :=
    iterate_withDecoder settings decoder source count
  exact ⟨hother, hother ▸ consistent.counterpart decoder⟩

/-- A literal that is refused, and the name behind it. -/
example :
    outcome next (start (Settings.standard.withDecoder .strict) ⟨"'\\' x", "a"⟩) =
        .error (.decoding ⟨"bad escape in \\"⟩) ∧
      outcome next ((leftBy next)^[1] (start (Settings.standard.withDecoder .strict)
        ⟨"'\\' x", "a"⟩)) = .ok ⟨.name, some (.text "x"), "x", ⟨1, 5, "a"⟩⟩ := by
  constructor
  · cbv
  · cbv

end Lexer

end Offside
