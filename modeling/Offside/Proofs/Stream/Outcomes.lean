import Mathlib.Data.List.Basic
import Offside.Proofs.Lexer.Consistency
import Offside.Proofs.Lines.Agreement

/-!
# How reading comes to an end

Every pull of a lexer at work comes to an end, and so does the reading of every text.  A text has at
most two tokens for each of its characters and one more, and the last of them is the only one that
ends the stream.  Where there is an error instead, it is one of three (`Fails`): a lexical error
located where the lexer stands, the refusal of the decoder, or, in the place of a lexical error, an
error that says that the place cannot be written.  What can go wrong with a cursor, with blocks and
with tab stops does not go wrong here: no read goes past the end of the text, where it would never
come back, nothing is put back that was not read, and counted steps do not run out.

Lines and columns are bounded by what the text would reach if all of it were tabs.  If that number
can be written, then so can every place that the lexer comes to (`Consistent.isWritable_of_fits`),
and the third error is out of the question.  Otherwise it does occur (`exists_failure_behindTab`).
-/

namespace Offside

/-- Whether the farthest place that the text could reach can be written. -/
def Settings.Fits (settings : Settings) (source : Source) : Prop :=
  Decimal.fits (1 + source.text.length * settings.tabWidth)

/-- A number between one and a number that can be written can be written. -/
theorem Decimal.fits_of_le {n bound : Int} (h : Decimal.fits bound) (positive : 1 ≤ n)
    (hle : n ≤ bound) : Decimal.fits n := by
  unfold Decimal.fits at h ⊢
  rw [decide_eq_true_eq] at h ⊢
  generalize Nat.pow 10 digitLimit = limit at h ⊢
  omega

theorem Position.IsWithin.isWritable {bound : Int} {position : Position}
    (h : position.IsWithin bound) (fits : Decimal.fits bound) : position.isWritable := by
  obtain ⟨hline, hcolumn⟩ := h
  unfold Position.isWritable
  rw [Bool.and_eq_true]
  exact ⟨Decimal.fits_of_le fits hline.1 hline.2, Decimal.fits_of_le fits hcolumn.1 hcolumn.2⟩

namespace Lexer

open Offside.Action Lexeme Lines

variable {settings : Settings} {source : Source} {lexer left : Lexer} {tokens : List Token}
  {reading : Reading Error Unit} {cause : Error}

/-- How a lexer fails where it stands.  Errors of the cursor, of the blocks and of the tab stops are
not among the cases. -/
inductive Fails (lexer : Lexer) : Error → Prop
  /-- The text has an error. -/
  | lexical {cause : LexError.Cause} (writable : lexer.here.isWritable)
      (category : cause.category ∈ [Category.indentation, .character, .overflow]) :
      Fails lexer (.lexical ⟨cause, some lexer.here⟩)
  /-- The text has an error, but the place cannot be written. -/
  | unwritable (unwritable : ¬ lexer.here.isWritable) : Fails lexer (.decimal .tooLong)
  /-- The decoder refuses the body of a string literal. -/
  | refused {body : String} {cause : DecodeError}
      (refusal : lexer.settings.decoder.run body = .error cause) : Fails lexer (.decoding cause)

/-! ## Failures -/

/-- Where the lexer reports a cause, it fails with it or for want of a way to write the place. -/
theorem fails_at {cause : LexError.Cause}
    (category : cause.category ∈ [Category.indentation, .character, .overflow]) :
    Fails lexer (.at cause lexer.here) := by
  by_cases writable : lexer.here.isWritable
  · rw [Error.at_of_isWritable writable]
    exact .lexical writable category
  · rw [Error.at_of_not_isWritable writable]
    exact .unwritable writable

/-- A step fails as the lexer may fail that it leaves behind. -/
theorem fails_of_transition (h : Transition lexer (.error cause left)) : Fails left cause := by
  generalize hresult : EStateM.Result.error cause left = result at h
  -- What is noted of an error does not move the lexer.
  cases h with
  | mismatch mode indented reaches deeper =>
      obtain ⟨rfl, rfl⟩ := EStateM.Result.error.inj hresult
      exact @fails_at (lexer.failing .badIndentation) .badIndentation (by decide)
  | refused mode content found fits refusal =>
      obtain ⟨rfl, rfl⟩ := EStateM.Result.error.inj hresult
      obtain ⟨mark, body, -, hbody⟩ := Shape.exists_body_of_refused refusal
      exact .refused hbody
  | @tooLarge shape mode content found large =>
      obtain ⟨rfl, rfl⟩ := EStateM.Result.error.inj hresult
      exact @fails_at (lexer.failing (.outOfRange (String.ofList shape.text)))
        (.outOfRange (String.ofList shape.text)) (by simp [LexError.Cause.category])
  | @unexpected c more mode split content found =>
      obtain ⟨rfl, rfl⟩ := EStateM.Result.error.inj hresult
      exact @fails_at (lexer.failing (.unexpected c)) (.unexpected c)
        (by simp [LexError.Cause.category])
  | _ => simp at hresult

theorem fails_of_next (h : next lexer = .error cause left) : Fails left cause := by
  obtain ⟨middle, skipped, running, idles, last⟩ := exists_idles_of_next_error h
  exact fails_of_transition last

/-! ## Places that can be written -/

/-- In a text that is small enough every place can be written. -/
theorem Consistent.isWritable_of_fits (h : Consistent settings source lexer)
    (fits : settings.Fits source) : lexer.here.isWritable := by
  have hstart : Position.start.IsWithin 1 := ⟨⟨le_rfl, le_rfl⟩, ⟨le_rfl, le_rfl⟩⟩
  have hwithin := hstart.after settings.tabWidth_pos lexer.cursor.before.reverse
  rw [← h.settings, ← h.position, h.settings, List.length_reverse] at hwithin
  have hread : lexer.cursor.before.length ≤ source.text.length := by
    have hlength := congrArg List.length h.text
    rw [List.length_append, List.length_reverse, String.length_toList] at hlength
    omega
  -- A shorter text reaches less far.
  have hwidth : 0 ≤ settings.tabWidth := Int.le_of_lt settings.tabWidth_pos
  have hnonneg : 0 ≤ (lexer.cursor.before.length : Int) * settings.tabWidth :=
    Int.mul_nonneg (Int.natCast_nonneg _) hwidth
  have hle : (lexer.cursor.before.length : Int) * settings.tabWidth ≤
      source.text.length * settings.tabWidth :=
    Int.mul_le_mul_of_nonneg_right (Int.ofNat_le.mpr hread) hwidth
  exact hwithin.isWritable (Decimal.fits_of_le fits (by omega) (by omega))

/-! ## Whole texts -/

/-- Tokens of which the last one ends the stream, and no other does. -/
def EndsOnce (tokens : List Token) : Prop :=
  ∃ front last, tokens = front ++ [last] ∧ last.isEof ∧ ∀ token ∈ front, token.isEof = false

theorem EndsOnce.cons {token : Token} (h : EndsOnce tokens) (running : token.isEof = false) :
    EndsOnce (token :: tokens) := by
  obtain ⟨front, last, rfl, eof, hfront⟩ := h
  exact ⟨token :: front, last, rfl, eof, List.forall_mem_cons.mpr ⟨running, hfront⟩⟩

/-- An account without an error goes up to the token that ends the stream. -/
theorem Reads.endsOnce {value : Unit} (h : Reads lexer reading)
    (hvalue : reading.result = .ok value) : EndsOnce reading.tokens := by
  induction h with
  | @ended lexer left token last eof => exact ⟨[], token, rfl, eof, by simp⟩
  | token first running more ih => exact (ih hvalue).cons running
  | failed failure => simp at hvalue

/-- No account is longer than the limit. -/
theorem Reads.length_le (h : Reads lexer reading) (running : lexer.ending = none)
    (increasing : lexer.levels.Increasing) : reading.tokens.length ≤ lexer.tokenLimit := by
  induction h with
  | ended last eof => exact Nat.succ_le_succ (Nat.zero_le _)
  | @token lexer left token reading first eof more ih =>
      have pull := pull_next running
      rw [first] at pull
      obtain ⟨hincreasing, hless⟩ := pull.keeps increasing
      have hmore := ih (pull.running running eof) hincreasing
      -- The token does not end the stream, so it has used up some of the limit.
      have hless : left.tokenLimit < lexer.tokenLimit := hless.resolve_right (by simp [eof])
      show reading.tokens.length + 1 ≤ lexer.tokenLimit
      omega
  | failed failure => exact Nat.zero_le _

/-- The error of an account is that of the pull that follows its tokens. -/
theorem Reads.exists_failure (h : Reads lexer reading) (hcause : reading.result = .error cause) :
    ∃ middle left, Pulls lexer reading.tokens middle ∧ next middle = .error cause left := by
  induction h with
  | ended last eof => simp at hcause
  | token first running more ih =>
      obtain ⟨middle, left, pulls, failure⟩ := ih hcause
      exact ⟨middle, left, .cons first pulls, failure⟩
  | @failed lexer left cause' failure =>
      obtain rfl := Except.error.inj hcause
      exact ⟨lexer, left, .nil lexer, failure⟩

theorem tokenLimit_start (settings : Settings) (source : Source) :
    (start settings source).tokenLimit = 2 * source.text.length + 1 := by
  simp [tokenLimit, start, Cursor.start, Levels.initial, Levels.depth, ← String.length_toList]

/-- How the reading of a whole text may end. -/
inductive IsOutcome (settings : Settings) (source : Source) : Except Error (List Token) → Prop
  /-- There are few tokens, and the last of them ends the stream. -/
  | tokens {tokens : List Token} (once : EndsOnce tokens)
      (few : tokens.length ≤ 2 * source.text.length + 1) : IsOutcome settings source (.ok tokens)
  /-- After some tokens, a pull fails. -/
  | failure {tokens : List Token} {middle left : Lexer} {cause : Error}
      (pulls : Pulls (start settings source) tokens middle)
      (failure : next middle = .error cause left) (fails : Fails left cause) :
      IsOutcome settings source (.error cause)

/-- Every text comes to one of these ends. -/
theorem isOutcome_tokenize (settings : Settings) (source : Source) :
    IsOutcome settings source (tokenize settings source) := by
  have reads := reads_start settings source
  rw [tokenize_eq_whole reads]
  unfold Reading.whole
  cases hresult : (Lines.read settings source).reported.result with
  | ok value =>
      have hlength := reads.length_le rfl Levels.increasing_initial
      rw [tokenLimit_start] at hlength
      exact .tokens (reads.endsOnce hresult) hlength
  | error cause =>
      obtain ⟨middle, left, pulls, failure⟩ := reads.exists_failure hresult
      exact .failure pulls failure (fails_of_next failure)

/-- In a text that is small enough, every error can be told where it is. -/
theorem ne_tooLong_of_fits (fits : settings.Fits source) :
    tokenize settings source ≠ .error (.decimal .tooLong) := by
  intro hcause
  have outcome := hcause ▸ isOutcome_tokenize settings source
  cases outcome with
  | failure pulls failure fails =>
      have consistent := ((consistent_start settings source).of_calls pulls.calls).of_next_error
        failure
      cases fails with
      | unwritable unwritable => exact unwritable (consistent.isWritable_of_fits fits)

/-- Every count of tokens that is large enough for some text of that length will do. -/
theorem outcome_drainWithin_start (settings : Settings) (source : Source) {limit : ℕ}
    (hlimit : 2 * source.text.length + 1 ≤ limit) :
    outcome (drainWithin limit) (start settings source) = tokenize settings source := by
  have reads := reads_start settings source
  rw [tokenize_eq_whole reads]
  apply outcome_drainWithin reads rfl Levels.increasing_initial
  rwa [tokenLimit_start]

/-! ## A tab and a character -/

/-- The tab opens a block, in which the lexer stands in front of the character. -/
theorem exists_next_behindTab (settings : Settings) (name : String) {c : Char}
    (content : IsContent [c]) :
    ∃ token left, next (start settings (behindTab name c)) = .ok token left ∧
      token.isEof = false ∧ left.ending = none ∧ left.mode = .inLine ∧
      left.cursor.rest = [c] ∧ left.here = ⟨1, settings.tabWidth + 1, name⟩ := by
  have hrest : (start settings (behindTab name c)).cursor.rest = ['\t'] ++ [c] := by
    simp [start, Cursor.start, behindTab]
  have indented := @indented_of_isContent ['\t'] [c] (by simp [CharClass.has]) content
  rw [← hrest] at indented
  have reaches : (start settings (behindTab name c)).Reaches ['\t'] (settings.tabWidth + 1) := by
    simp [Reaches, start, Indentation.column, Indentation.widened, settings.tabWidth_ne_zero]
  have deeper : (1 : Int) < settings.tabWidth + 1 := by
    have positive := settings.tabWidth_pos
    omega
  have opens := Transition.indent rfl indented content reaches deeper
  refine ⟨_, _, next_of_token rfl opens, rfl, rfl, rfl, rest_ahead_of_split hrest, ?_⟩
  have hposition := position_ahead_of_split hrest
  show Location.ofPosition name ((start settings (behindTab name c)).ahead 1).position = _
  rw [show 1 = ['\t'].length from rfl, hposition]
  simp [start, Cursor.start, position, Position.start, Position.moved, Motion.ofChar,
    Location.ofPosition]
  omega

/-! ## All outcomes -/

/-- Pulls come to an end, and so does the reading of a text, with the tokens of the text or with an
error that its lexer stands at.  In a text that is small enough, no place is too far to be
written. -/
theorem outcomes_of_text (settings : Settings) (source : Source) :
    (∀ tokens lexer, Calls (start settings source) tokens lexer →
      (lexer.ending = none →
        ∃ limit, ∀ larger, limit ≤ larger → searchWithin larger lexer = next lexer) ∧
      ∀ cause left, next lexer = .error cause left →
        Fails left cause ∧ (settings.Fits source → cause ≠ .decimal .tooLong)) ∧
      (∀ limit, 2 * source.text.length + 1 ≤ limit →
        outcome (drainWithin limit) (start settings source) = tokenize settings source) ∧
      IsOutcome settings source (tokenize settings source) := by
  refine ⟨fun tokens lexer calls => ⟨fun running => ?_, fun cause left failure => ?_⟩,
    fun limit hlimit => outcome_drainWithin_start settings source hlimit,
    isOutcome_tokenize settings source⟩
  · refine ⟨lexer.idleness + 1, fun larger hlarger => ?_⟩
    exact (next_eq_searchWithin running hlarger).symm
  · have fails := fails_of_next failure
    refine ⟨fails, fun fits hcause => ?_⟩
    subst hcause
    have consistent := ((consistent_start settings source).of_calls calls).of_next_error failure
    cases fails with
    | unwritable unwritable => exact unwritable (consistent.isWritable_of_fits fits)

theorem outcomes_of_tab_and_character :
    (∃ limit, ∀ larger, limit ≤ larger →
      searchWithin larger (start .standard (behindTab "a" '?')) =
        next (start .standard (behindTab "a" '?'))) ∧
      tokenize .standard (behindTab "a" '?') =
        .error (.lexical ⟨.unexpected '?', some ⟨1, 9, "a"⟩⟩) ∧
      outcome (drainWithin 5) (start .standard (behindTab "a" '?')) =
        .error (.lexical ⟨.unexpected '?', some ⟨1, 9, "a"⟩⟩) ∧
      ∃ tokens middle left, Pulls (start .standard (behindTab "a" '?')) tokens middle ∧
        next middle = .error (.lexical ⟨.unexpected '?', some ⟨1, 9, "a"⟩⟩) left ∧
        Fails left (.lexical ⟨.unexpected '?', some ⟨1, 9, "a"⟩⟩) := by
  obtain ⟨hpulls, hlimit, houtcome⟩ := outcomes_of_text .standard (behindTab "a" '?')
  have content : IsContent ['?'] := ⟨'?', [], rfl, by decide, by decide, by decide⟩
  have writable : (⟨1, 9, "a"⟩ : Location).isWritable := by decide +kernel
  have failed : tokenize .standard (behindTab "a" '?') =
      .error (.lexical ⟨.unexpected '?', some ⟨1, 9, "a"⟩⟩) := by
    rw [tokenize_eq_reported, Reading.whole_reported,
      read_behindTab .standard "a" content (by decide)]
    exact congrArg Except.error (Error.at_of_isWritable writable _)
  rw [failed] at houtcome
  cases houtcome with
  | @failure tokens middle left cause pulls failure fails =>
      exact ⟨(hpulls _ _ (.nil _)).1 rfl, failed, (hlimit 5 (by decide)).trans failed,
        tokens, middle, left, pulls, failure, fails⟩

/-! ## Places that cannot be written -/

/-- A tab may be so wide that the place behind it cannot be written.  An error there is not
reported. -/
theorem exists_failure_behindTab (name : String) {c : Char} (content : IsContent [c])
    (found : longest? [c] = none) (wide : ¬ Decimal.fits (settings.tabWidth + 1)) :
    ∃ token middle left, next (start settings (behindTab name c)) = .ok token middle ∧
      token.isEof = false ∧ middle.mode = .inLine ∧ middle.cursor.rest = [c] ∧
      next middle = .error (.decimal .tooLong) left := by
  obtain ⟨token, middle, first, eof, running, mode, hrest, hhere⟩ :=
    exists_next_behindTab settings name content
  have fails := Transition.unexpected mode hrest (hrest ▸ content) (hrest ▸ found)
  have unwritable : ¬ middle.here.isWritable := by
    rw [hhere]
    simp [Location.isWritable, Location.position, Position.isWritable, wide]
  rw [Error.at_of_not_isWritable unwritable] at fails
  exact ⟨token, middle, _, first, eof, mode, hrest, next_of_error running fails⟩

end Lexer

/-- The unexpected character behind such a tab is not what the error is about. -/
theorem Lexer.tokenize_wide_tab :
    Lexer.tokenize .wide (Lexer.behindTab Location.unnamed '?') = .error (.decimal .tooLong) := by
  have content : Lines.IsContent ['?'] := ⟨'?', [], rfl, by decide, by decide, by decide⟩
  exact Lexer.tokenize_behindTab Location.unnamed content (by decide) Settings.not_fits_wide

end Offside
