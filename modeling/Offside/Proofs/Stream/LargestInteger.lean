import Offside.Proofs.Lexer.OtherSettings
import Offside.Proofs.Stream.Outcomes

/-!
# A larger largest integer

Two lexers for the same text, of which one allows larger integers than the other, give the same
tokens up to the first integer literal that only one of them allows.  There the stricter one fails,
and the other gives the literal and goes on.  Without such a literal they come to the same end.  A
literal with too many digits is none of these: no settings allow it.

## Strategy

A pull under the other settings goes the same way up to the first lexeme (`arrival_next`).  The
settings differ in nothing that the value of a lexeme depends on, so a lexeme is dealt with alike
unless it is too large for one of them, and only an integer literal can be.  This makes one pull the
same or a parting (`Parts`), and an account the same up to the parting (`Reads.raised`).
-/

namespace Offside

open Lexeme Lines

/-- Settings that differ at most in the largest integer, which is not smaller in the second. -/
structure Settings.IsRaised (settings larger : Settings) : Prop where
  tabWidth : larger.tabWidth = settings.tabWidth
  decoder : larger.decoder = settings.decoder
  maxInt : settings.maxInt ≤ larger.maxInt

/-- The settings with `n` as the largest integer. -/
def Settings.upTo (settings : Settings) (n : ℕ) : Settings :=
  { settings with maxInt := n, maxInt_nonneg := Int.natCast_nonneg n }

theorem Settings.isRaised_upTo (settings : Settings) {n m : ℕ} (h : n ≤ m) :
    (settings.upTo n).IsRaised (settings.upTo m) :=
  ⟨rfl, rfl, Int.ofNat_le.mpr h⟩

namespace Settings.IsRaised

variable {settings larger : Settings} {shape : Shape}

/-- The largest integer has no part in the value of a lexeme. -/
theorem value_eq (raised : settings.IsRaised larger) :
    shape.value larger = shape.value settings := by
  cases shape with
  | quoted mark body => simp only [Shape.value, raised.decoder]
  | operator op => rfl
  | word letters => rfl
  | integer digits => rfl

/-- What is too large for the larger settings is too large for the others. -/
theorem isTooLarge (raised : settings.IsRaised larger) (large : shape.IsTooLarge larger) :
    shape.IsTooLarge settings := by
  cases shape with
  | integer digits => exact large.imp_right raised.maxInt.trans_lt
  | _ => exact large

/-- What only the stricter settings refuse is an integer literal between the two bounds. -/
theorem exists_digits (large : shape.IsTooLarge settings) (fits : ¬ shape.IsTooLarge larger) :
    ∃ digits, shape = .integer digits ∧ digits.length ≤ Decimal.digitLimit ∧
      settings.maxInt < Decimal.ofDigits digits ∧ Decimal.ofDigits digits ≤ larger.maxInt := by
  cases shape with
  | integer digits =>
      obtain ⟨short, allowed⟩ := not_or.mp fits
      have short := Nat.le_of_not_lt short
      exact ⟨digits, rfl, short, large.resolve_left (Nat.not_lt.mpr short), Int.not_lt.mp allowed⟩
  | _ => exact absurd large id

end Settings.IsRaised

namespace Lexer

variable {settings larger : Settings} {source : Source} {lexer left : Lexer} {shape : Shape}
  {digits : List Char} {reading : Reading Error Unit}

/-- The next pull of a lexer comes to an integer literal that is too large for its settings, though
not too long, and that the larger settings allow. -/
structure Parts (larger : Settings) (lexer left : Lexer) (digits : List Char) : Prop where
  faces : left.Faces (.integer digits)
  short : digits.length ≤ Decimal.digitLimit
  above : lexer.settings.maxInt < Decimal.ofDigits digits
  allowed : Decimal.ofDigits digits ≤ larger.maxInt
  refused : next lexer = .error (.at (.outOfRange (String.ofList digits)) left.here) left
  given : ∃ final, next (lexer.under larger) =
    .ok ⟨.number, some (.int (Decimal.ofDigits digits)), String.ofList digits, left.here⟩ final

/-! ## One pull -/

/-- In front of a lexeme that both settings allow, or neither. -/
theorem next_under_of_faces (running : lexer.ending = none) (faces : lexer.Faces shape)
    (raised : lexer.settings.IsRaised larger)
    (alike : shape.IsTooLarge lexer.settings → shape.IsTooLarge larger) :
    next (lexer.under larger) = resultUnder larger (next lexer) := by
  have running' : (lexer.under larger).ending = none := running
  obtain ⟨mode, content, found⟩ := faces
  by_cases large : shape.IsTooLarge lexer.settings
  · have refused := @Transition.tooLarge (lexer.under larger) _ mode content found (alike large)
    rw [next_of_error running (.tooLarge mode content found large), next_of_error running' refused]
    rfl
  · have fits : ¬ shape.IsTooLarge larger := fun h => large (raised.isTooLarge h)
    -- The literal is passed by in the same way, for the tabs have the same width.
    have hpass : { lexer.under larger with cursor := shape.pass larger.tabWidth lexer.cursor } =
        under { lexer with cursor := shape.pass lexer.settings.tabWidth lexer.cursor } larger := by
      rw [raised.tabWidth]
      rfl
    cases hvalue : shape.value lexer.settings with
    | ok value =>
        have read := Shape.read_of_value lexer.here large hvalue
        have read' := Shape.read_of_value lexer.here fits (raised.value_eq.trans hvalue)
        have given := @Transition.lexeme (lexer.under larger) _ _ mode content found read'
        rw [next_of_token running (.lexeme mode content found read), next_of_token running' given]
        exact congrArg (EStateM.Result.ok _) hpass
    | error refusal =>
        have refused := @Transition.refused (lexer.under larger) _ _ mode content found fits
          (raised.value_eq.trans hvalue)
        rw [next_of_error running (.refused mode content found large hvalue),
          next_of_error running' refused]
        exact congrArg (EStateM.Result.error _) hpass

/-- In front of a lexeme that the larger settings alone allow. -/
theorem parts_of_faces (running : lexer.ending = none) (faces : lexer.Faces shape)
    (large : shape.IsTooLarge lexer.settings) (fits : ¬ shape.IsTooLarge larger) :
    ∃ left digits, Parts larger lexer left digits := by
  obtain ⟨digits, rfl, short, above, allowed⟩ := Settings.IsRaised.exists_digits large fits
  have running' : (lexer.under larger).ending = none := running
  obtain ⟨mode, content, found⟩ := faces
  have read : (Shape.integer digits).read larger lexer.here =
      .ok ⟨.number, some (.int (Decimal.ofDigits digits)), String.ofList digits, lexer.here⟩ :=
    Shape.read_of_value lexer.here fits rfl
  have given := @Transition.lexeme (lexer.under larger) _ _ mode content found read
  exact ⟨lexer.failing (.outOfRange (String.ofList digits)), digits,
    { faces := ⟨mode, content, found⟩
      short
      above
      allowed
      refused := next_of_error running (.tooLarge mode content found large)
      given := ⟨_, next_of_token running' given⟩ }⟩

/-- One pull under the larger settings is the same, or the ways part. -/
theorem next_raised (raised : lexer.settings.IsRaised larger) :
    next (lexer.under larger) = resultUnder larger (next lexer) ∨
      ∃ left digits, Parts larger lexer left digits := by
  cases running : lexer.ending with
  | none =>
      cases arrival_next running raised.tabWidth with
      | @lexeme front shape faces running' kept here other =>
          have raised' : front.settings.IsRaised larger := kept ▸ raised
          rw [here, other]
          by_cases parting : shape.IsTooLarge front.settings ∧ ¬ shape.IsTooLarge larger
          · obtain ⟨left, digits, parts⟩ := parts_of_faces running' faces parting.1 parting.2
            exact Or.inr ⟨left, digits, { parts with
              above := kept ▸ parts.above
              refused := here.trans parts.refused
              given := parts.given.imp fun _ => other.trans }⟩
          · exact Or.inl (next_under_of_faces running' faces raised'
              (not_and_not_right.mp parting))
      | token layout here other => exact Or.inl (by rw [here, other]; rfl)
      | failure lexical here other => exact Or.inl (by rw [here, other]; rfl)
  | some ending =>
      have running' : (lexer.under larger).ending = some ending := running
      exact Or.inl (by rw [next_of_ended running, next_of_ended running']; rfl)

/-! ## All pulls -/

/-- The account of a lexer is the same under larger settings, or the ways part behind some tokens
that both give. -/
theorem Reads.raised (h : Reads lexer reading) (consistent : Consistent settings source lexer)
    (raised : settings.IsRaised larger) :
    Reads (lexer.under larger) reading ∨
      ∃ tokens middle left digits, Pulls lexer tokens middle ∧
        Pulls (lexer.under larger) tokens (middle.under larger) ∧
        Parts larger middle left digits ∧
        reading = ⟨tokens, .error (.at (.outOfRange (String.ofList digits)) left.here)⟩ := by
  induction h with
  | @ended lexer left token last eof =>
      rcases next_raised (consistent.settings ▸ raised) with same | ⟨left', digits, parts⟩
      · rw [last] at same
        exact Or.inl (.ended same eof)
      · exact absurd (last.symm.trans parts.refused) (by simp)
  | @token lexer left token reading first running more ih =>
      rcases next_raised (consistent.settings ▸ raised) with same | ⟨left', digits, parts⟩
      · rw [first] at same
        rcases ih (consistent.of_next first) with reads |
          ⟨tokens, middle, left', digits, pulls, pulls', parts, rfl⟩
        · exact Or.inl (.token same running reads)
        · exact Or.inr ⟨token :: tokens, middle, left', digits, .cons first pulls,
            .cons same pulls', parts, rfl⟩
      · exact absurd (first.symm.trans parts.refused) (by simp)
  | @failed lexer left cause failure =>
      rcases next_raised (consistent.settings ▸ raised) with same | ⟨left', digits, parts⟩
      · rw [failure] at same
        exact Or.inl (.failed same)
      · obtain ⟨rfl, -⟩ := EStateM.Result.error.inj (failure.symm.trans parts.refused)
        exact Or.inr ⟨[], lexer, left', digits, .nil _, .nil _, parts, rfl⟩

/-! ## Whole texts -/

/-- Under a larger largest integer a text has the same outcome.  Or else, behind tokens that both
lexers give, there is an integer literal which only the larger settings allow, and that is the error
without them; it is reported if its place can be written. -/
theorem tokenize_raised (raised : settings.IsRaised larger) (source : Source) :
    tokenize larger source = tokenize settings source ∨
      ∃ tokens middle left digits, Pulls (start settings source) tokens middle ∧
        Pulls (start larger source) tokens (middle.under larger) ∧
        Parts larger middle left digits ∧
        tokenize settings source =
          .error (.at (.outOfRange (String.ofList digits)) left.here) ∧
        (settings.Fits source → tokenize settings source =
          .error (.lexical ⟨.outOfRange (String.ofList digits), some left.here⟩)) := by
  have reads := reads_start settings source
  rcases reads.raised (consistent_start settings source) raised with same |
    ⟨tokens, middle, left, digits, pulls, pulls', parts, hreading⟩
  · exact Or.inl ((tokenize_eq_whole same).trans (tokenize_eq_whole reads).symm)
  · have failure : tokenize settings source =
        .error (.at (.outOfRange (String.ofList digits)) left.here) := by
      rw [tokenize_eq_whole reads, hreading]
      rfl
    refine Or.inr ⟨tokens, middle, left, digits, pulls, pulls', parts, failure, fun fits => ?_⟩
    have consistent := ((consistent_start settings source).of_calls pulls.calls).of_next_error
      parts.refused
    rw [failure, Error.at_of_isWritable (consistent.isWritable_of_fits fits)]

/-- A literal behind another one, which is allowed in any case. -/
theorem tokenize_raised_literal :
    (Settings.standard.upTo 5).IsRaised (Settings.standard.upTo 10) ∧
      ∃ tokens middle left digits,
        Pulls (start (Settings.standard.upTo 5) ⟨"1 9", "a"⟩) tokens middle ∧
        Pulls (start (Settings.standard.upTo 10) ⟨"1 9", "a"⟩) tokens
          (middle.under (Settings.standard.upTo 10)) ∧
        Parts (Settings.standard.upTo 10) middle left digits ∧
        tokenize (Settings.standard.upTo 5) ⟨"1 9", "a"⟩ =
          .error (.lexical ⟨.outOfRange (String.ofList digits), some left.here⟩) := by
  have raised := Settings.standard.isRaised_upTo (show 5 ≤ 10 by decide)
  have fits : (Settings.standard.upTo 5).Fits ⟨"1 9", "a"⟩ := by
    unfold Settings.Fits
    decide +kernel
  have hne : tokenize (Settings.standard.upTo 10) ⟨"1 9", "a"⟩ ≠
      tokenize (Settings.standard.upTo 5) ⟨"1 9", "a"⟩ := by decide +kernel
  obtain ⟨tokens, middle, left, digits, pulls, pulls', parts, -, failure⟩ :=
    (tokenize_raised raised ⟨"1 9", "a"⟩).resolve_left hne
  exact ⟨raised, tokens, middle, left, digits, pulls, pulls', parts, failure fits⟩

/-- Behind a tab of the greatest width, a literal that only the larger settings allow is not the
error that is reported without them. -/
theorem tokenize_raised_wide :
    (Settings.wide.upTo 5).IsRaised (Settings.wide.upTo 10) ∧
      tokenize (Settings.wide.upTo 10) ⟨"\t9\n?", Location.unnamed⟩ =
        .error (.lexical ⟨.unexpected '?', some ⟨2, 1, Location.unnamed⟩⟩) ∧
      tokenize (Settings.wide.upTo 5) ⟨"\t9\n?", Location.unnamed⟩ =
        .error (.decimal .tooLong) := by
  refine ⟨Settings.wide.isRaised_upTo (by decide), ?_, ?_⟩
  · decide +kernel
  · decide +kernel

end Lexer

end Offside
