import Offside.Proofs.Stream.Blocks
import Offside.Proofs.Stream.Locations

/-!
# The states of a lexer

What holds of every lexer that pulls can lead to, whether they gave tokens or failed (`IsSound`).
The cursor is inside the text, and the position is that of the next character.  The open blocks
increase from the base on.  Between two lines the cursor is at the beginning of one, and where
blocks are being closed, that line has a lexeme, so that neither the end of the text nor a line
without lexemes is met there.  Once the stream has ended, the whole text is read, no block is open,
and pulls change nothing.

## Strategy

`Calls.preserves` carries any property from steps to calls.  `AtWork` is the property that is
carried: it adds to `Consistent` what that does not say, and speaks of what is read and unread.
`IsSound` says the same of offsets in the text, and follows from it.
-/

namespace Offside

open Lines Lexer

/-- Whether a line begins behind `text`, perhaps with the carriage return that belongs to the line
break in front of it. -/
def BeginsLine (text : List Char) : Prop :=
  text = [] ∨ (∃ lines, text = lines ++ ['\n']) ∨ ∃ lines, text = lines ++ ['\n', '\r']

/-- What holds of every lexer for a text that can be reached. -/
structure IsSound (settings : Settings) (source : Source) (lexer : Lexer) : Prop where
  inside : lexer.cursor.offset ≤ source.text.toList.length
  unread : lexer.cursor.rest = source.text.toList.drop lexer.cursor.offset
  position : lexer.position =
    positionAt settings.tabWidth source.text.toList lexer.cursor.offset
  base : lexer.levels.toList.head? = some Levels.base
  increasing : lexer.levels.toList.Pairwise (· < ·)
  /-- Between two lines, and while blocks are closed, the lexer is at the beginning of a line. -/
  begins : lexer.mode = .dedent ∨
      lexer.mode = .lineStart ∧ lexer.cursor.offset < source.text.toList.length →
    lexer.position.column = 1 ∧ BeginsLine (source.text.toList.take lexer.cursor.offset)
  /-- Blocks are only closed in front of a line with a lexeme. -/
  closes : lexer.mode = .dedent → ∃ run tail,
    Indented (source.text.toList.drop lexer.cursor.offset) run tail ∧ IsContent tail

namespace Lexer

variable {settings : Settings} {source : Source} {lexer left : Lexer} {token : Token}
  {tokens : List Token} {text : List Char}

/-! ## From steps to calls -/

/-- What steps keep, be they successful or not, calls keep as well. -/
theorem Calls.preserves {P : Lexer → Prop} (calls : Calls lexer tokens left)
    (step : ∀ {lexer left found}, P lexer → lexer.ending = none →
      Transition lexer (.ok found left) → P left)
    (failure : ∀ {lexer left cause}, P lexer → lexer.ending = none →
      Transition lexer (.error cause left) → P left)
    (h : P lexer) : P left := by
  induction calls with
  | nil lexer => exact h
  | @token lexer middle left token tokens first more ih =>
      apply ih
      cases running : lexer.ending with
      | none =>
          obtain ⟨inner, skipped, way, last⟩ := exists_idles_of_next running first
          exact step (way.preserves running step h) (way.running running) last
      | some ending =>
          -- The stream has ended, so the lexer stays as it is.
          obtain ⟨-, rfl⟩ := eq_of_next_of_ended running first
          exact h
  | @failed lexer middle left cause tokens first more ih =>
      apply ih
      obtain ⟨inner, skipped, running, way, last⟩ := exists_idles_of_next_error first
      exact failure (way.preserves running step h) (way.running running) last

/-- What steps keep of a lexer and the tokens that it has given, pulls keep up to the end of the
stream. -/
theorem Pulls.gathers {P : List Token → Lexer → Prop} (pulls : Pulls lexer tokens left)
    (running : lexer.ending = none) (once : ∀ token ∈ tokens.dropLast, token.isEof = false)
    (step : ∀ {given lexer left found}, P given lexer → lexer.ending = none →
      Transition lexer (.ok found left) → P (given ++ found.toList) left)
    {given : List Token} (h : P given lexer) : P (given ++ tokens) left := by
  induction pulls generalizing given with
  | nil lexer => simpa using h
  | @cons lexer middle left token tokens first more ih =>
      have pull := first ▸ pull_next running
      obtain ⟨inner, skipped, way, last⟩ := pull.exists_idles
      have hinner : P given inner := by
        refine way.preserves running (fun h running first => ?_) h
        simpa using step h running first
      have hgiven := step hinner (way.running running) last
      cases more with
      | nil => exact hgiven
      | cons second others =>
          -- Another token follows, so this one does not end the stream.
          rw [List.dropLast_cons_cons] at once
          obtain ⟨eof, once⟩ := List.forall_mem_cons.mp once
          rw [List.append_cons]
          exact ih (pull.running running eof) once hgiven

/-! ## The beginning of a line -/

theorem beginsLine_of_feed (lines more : List Char) :
    BeginsLine (lines ++ '\n' :: leadingReturn more) := by
  unfold leadingReturn
  split
  · exact Or.inr (Or.inr ⟨lines, rfl⟩)
  · exact Or.inr (Or.inl ⟨lines, rfl⟩)

/-- Lines begin in the first column. -/
theorem column_of_beginsLine {width : Int} (h : BeginsLine text) :
    (Position.start.after width text).column = 1 := by
  rcases h with rfl | ⟨lines, rfl⟩ | ⟨lines, rfl⟩
  · rfl
  · rw [Position.after_append]
    rfl
  · rw [Position.after_append]
    rfl

/-- A lexer that is not inside a line has come to the beginning of one, or stayed there. -/
theorem beginsLine_of_restarts (passes : Passes lexer left text)
    (restarts : Restarts lexer left text) (mode : left.mode ≠ .inLine)
    (nonempty : left.cursor.rest ≠ [])
    (h : lexer.mode ≠ .inLine → lexer.cursor.rest ≠ [] → BeginsLine lexer.cursor.before.reverse) :
    BeginsLine left.cursor.before.reverse := by
  rw [passes.before]
  rcases restarts mode with ended | ⟨rfl, hlexer⟩ | ⟨line, more, -, rfl⟩
  · exact absurd ended nonempty
  · have hsame : lexer.cursor.rest = left.cursor.rest := passes.rest
    rw [List.append_nil]
    exact h hlexer (hsame ▸ nonempty)
  · rw [← List.append_assoc]
    exact beginsLine_of_feed _ more

/-! ## The invariant -/

/-- A lexer at work on a text, with increasing blocks, and all of them closed in the end. -/
structure AtWork (settings : Settings) (source : Source) (lexer : Lexer) : Prop
    extends Consistent settings source lexer where
  increasing : lexer.levels.Increasing
  begins : lexer.mode ≠ .inLine → lexer.cursor.rest ≠ [] →
    BeginsLine lexer.cursor.before.reverse
  closed : lexer.ending ≠ none → lexer.levels.opened = []

theorem atWork_start (settings : Settings) (source : Source) :
    AtWork settings source (start settings source) where
  toConsistent := consistent_start settings source
  increasing := Levels.increasing_initial
  begins _ _ := Or.inl rfl
  closed _ := rfl

namespace AtWork

/-- Steps keep the invariant. -/
theorem of_transition {found : Option Token} (h : AtWork settings source lexer)
    (running : lexer.ending = none) (transition : Transition lexer (.ok found left)) :
    AtWork settings source left where
  toConsistent := h.toConsistent.of_transition running transition
  increasing := increasing_of_transition h.increasing transition
  begins mode nonempty := by
    cases found with
    | none =>
        obtain ⟨text, skips⟩ := exists_skips transition
        exact beginsLine_of_restarts skips.passes skips.restarts mode nonempty h.begins
    | some token =>
        obtain ⟨lead, gives⟩ := exists_gives transition h.closes
        exact beginsLine_of_restarts gives.passes gives.restarts mode nonempty h.begins
  closed ended := by
    cases transition with
    | finish mode ended' opened => exact opened
    | _ => exact absurd running ended

/-- Steps that fail keep it as well. -/
theorem of_failure {cause : Error} (h : AtWork settings source lexer)
    (running : lexer.ending = none) (transition : Transition lexer (.error cause left)) :
    AtWork settings source left where
  toConsistent := h.toConsistent.of_failure running transition
  increasing := by
    rw [levels_of_failure transition]
    exact h.increasing
  begins := by
    cases transition with
    | refused mode => exact absurd mode
    | _ => exact h.begins
  closed := by
    rw [levels_of_failure transition]
    intro ended
    cases transition <;> exact absurd running ended

theorem of_calls (h : AtWork settings source lexer) (calls : Calls lexer tokens left) :
    AtWork settings source left :=
  calls.preserves of_transition of_failure h

/-- The invariant, in terms of offsets in the text. -/
theorem isSound (h : AtWork settings source lexer) : IsSound settings source lexer where
  inside := h.offset_eq ▸ Nat.le_add_right _ _
  unread := h.drop_eq.symm
  position := by
    rw [positionAt, h.take_eq, h.toConsistent.position, h.toConsistent.settings]
  base := rfl
  increasing := h.increasing
  begins mode := by
    have hmode : lexer.mode ≠ .inLine := by
      rintro hinLine
      simp [hinLine] at mode
    have nonempty : lexer.cursor.rest ≠ [] := by
      rcases mode with mode | ⟨-, hlt⟩
      · obtain ⟨run, tail, indented, content⟩ := h.closes mode
        exact indented.ne_nil content
      · have hlength := h.offset_eq
        exact List.ne_nil_of_length_pos (by omega)
    have begins := h.begins hmode nonempty
    rw [h.take_eq, h.toConsistent.position]
    exact ⟨column_of_beginsLine begins, begins⟩
  closes mode := by
    rw [h.drop_eq]
    exact h.closes mode

end AtWork

/-- What steps of a lexer at work keep, calls keep. -/
theorem Calls.preserves_atWork {P : Lexer → Prop}
    (calls : Calls (start settings source) tokens left)
    (step : ∀ {lexer left found}, AtWork settings source lexer → P lexer → lexer.ending = none →
      Transition lexer (.ok found left) → P left)
    (failure : ∀ {lexer left cause}, AtWork settings source lexer → P lexer →
      lexer.ending = none → Transition lexer (.error cause left) → P left)
    (h : P (start settings source)) : P left := by
  have both := calls.preserves (P := fun lexer => AtWork settings source lexer ∧ P lexer) ?_ ?_
    ⟨atWork_start settings source, h⟩
  · exact both.2
  · intro lexer left found h running transition
    exact ⟨h.1.of_transition running transition, step h.1 h.2 running transition⟩
  · intro lexer left cause h running transition
    exact ⟨h.1.of_failure running transition, failure h.1 h.2 running transition⟩

/-- What steps of a lexer at work keep of it and of the tokens that it has given, pulls keep up to
the end of the stream. -/
theorem Pulls.gathers_atWork {P : List Token → Lexer → Prop}
    (pulls : Pulls (start settings source) tokens left)
    (once : ∀ token ∈ tokens.dropLast, token.isEof = false)
    (step : ∀ {given lexer left found}, AtWork settings source lexer → P given lexer →
      Transition lexer (.ok found left) → P (given ++ found.toList) left)
    (h : P [] (start settings source)) : P tokens left := by
  have both := pulls.gathers (P := fun given lexer => AtWork settings source lexer ∧ P given lexer)
    rfl once ?_ ⟨atWork_start settings source, h⟩
  · exact both.2
  · intro given lexer left found h running transition
    exact ⟨h.1.of_transition running transition, step h.1 h.2 transition⟩

/-! ## The end of the stream -/

/-- The last token of the stream is kept, whatever is called for after it. -/
theorem ending_of_mem (calls : Calls lexer tokens left) (hmem : token ∈ tokens)
    (eof : token.isEof) : left.ending = some token := by
  induction calls with
  | nil lexer => simp at hmem
  | @token lexer middle left first tokens pull more ih =>
      rcases List.mem_cons.mp hmem with rfl | hmore
      · have ended : middle.ending = some token := by
          cases running : lexer.ending with
          | none => exact (pull ▸ pull_next running).ended eof
          | some ending =>
              obtain ⟨rfl, rfl⟩ := eq_of_next_of_ended running pull
              exact running
        exact more.eq_of_ended ended ▸ ended
      · exact ih hmore
  | failed pull more ih => exact ih hmem

/-- As long as the stream is open, none of its tokens ends it. -/
theorem Calls.running_of_mem (calls : Calls lexer tokens left) (running : left.ending = none) :
    ∀ token ∈ tokens, token.isEof = false := by
  intro token hmem
  by_contra eof
  have ended := ending_of_mem calls hmem (by simpa using eof)
  simp [running] at ended

/-- Every lexer that calls lead to is sound, and nothing changes any more once one of them has given
the token that ends the stream. -/
theorem isSound_of_calls (calls : Calls (start settings source) tokens lexer) :
    IsSound settings source lexer ∧
      ∀ token ∈ tokens, token.isEof →
        lexer.cursor.offset = source.text.toList.length ∧
          lexer.levels.toList = [Levels.base] ∧
          ∀ more left, Calls lexer more left → left = lexer := by
  have atWork := (atWork_start settings source).of_calls calls
  refine ⟨atWork.isSound, ?_⟩
  intro token hmem eof
  have ended := ending_of_mem calls hmem eof
  refine ⟨?_, ?_, fun more left calls' => calls'.eq_of_ended ended⟩
  · have hlength := atWork.offset_eq
    rw [(atWork.ended token ended).2] at hlength
    exact hlength.symm
  · have opened := atWork.closed (by simp [ended])
    simp [Levels.toList, opened]

/-- Behind the mark for a block that closes, the lexer is in front of the line that closes it. -/
theorem isSound_of_dedent :
    ∃ tokens lexer, Calls (start .standard ⟨"\tx\n y", "a"⟩) tokens lexer ∧
      tokens.map (·.kind) = [.layout .indent, .name, .layout .newline, .layout .dedent] ∧
      lexer.mode = .dedent ∧ IsSound .standard ⟨"\tx\n y", "a"⟩ lexer := by
  have given : outcome (take 4) (start .standard ⟨"\tx\n y", "a"⟩) =
      .ok [⟨.layout .indent, none, "", ⟨1, 1, "a"⟩⟩,
        ⟨.name, some (.text "x"), "x", ⟨1, 9, "a"⟩⟩,
        ⟨.layout .newline, none, "\n", ⟨1, 10, "a"⟩⟩,
        ⟨.layout .dedent, none, "", ⟨2, 1, "a"⟩⟩] := by
    cbv
  have mode : (leftBy (take 4) (start .standard ⟨"\tx\n y", "a"⟩)).mode = .dedent := by cbv
  obtain ⟨lexer, pulls, hlexer⟩ := exists_pulls_of_outcome given
  rw [hlexer] at mode
  exact ⟨_, lexer, pulls.calls, rfl, mode, (isSound_of_calls pulls.calls).1⟩

end Lexer

end Offside
