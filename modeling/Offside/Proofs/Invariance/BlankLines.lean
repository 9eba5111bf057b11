import Offside.Proofs.Invariance.LineBreaks
import Offside.Proofs.Stream.Outcomes

/-!
# Lines without lexemes

A line of blanks and perhaps a comment can be put in front of any line of a text.  The text then
has the same tokens as before, or the same error, except that whatever stood below stands one line
further down (`tokenize_insert_blank`).  The blanks may be any number of columns wide: such a line
never opens or closes a block.

## Strategy

The lines above are read as before.  The line itself is read to nothing, whatever blocks are open,
and the lines below are the same lines with numbers that are larger by one.  That positions stay
where they are above and move down below is a relation of positions that reading in a line keeps
(`isSteady_lowered`).
-/

namespace Offside

open Lines

/-- The position after another line was put below the first `above` lines. -/
def Position.lowered (above : ℕ) (position : Position) : Position :=
  if above < position.line then ⟨position.line + 1, position.column⟩ else position

/-- The location after another line was put below the first `above` lines. -/
def Location.lowered (above : ℕ) (location : Location) : Location :=
  .ofPosition location.file (location.position.lowered above)

/-- The gist of a token, and where it stands after another line was put below the first `above`
lines. -/
def Token.lowered (above : ℕ) (token : Token) : Gist × Location :=
  (token.gist, token.location.lowered above)

/-- The error after another line was put below the first `above` lines.  It is reported where it is
then. -/
def Lexer.Error.lowered (above : ℕ) : Lexer.Error → Lexer.Error
  | .lexical ⟨cause, some location⟩ => .at cause (location.lowered above)
  | error => error

/-! ## Moving down -/

namespace Position

variable {above : ℕ} {position : Position}

theorem lowered_of_lt (h : above < position.line) :
    position.lowered above = ⟨position.line + 1, position.column⟩ := if_pos h

theorem lowered_of_le (h : position.line ≤ above) : position.lowered above = position :=
  if_neg (Int.not_lt.mpr h)

/-- How far a character moves does not depend on the line. -/
theorem moved_lowered (width : Int) {c : Char} (hc : c ≠ '\n') :
    (position.lowered above).moved width (.ofChar c) =
      (position.moved width (.ofChar c)).lowered above := by
  have hline := position.line_moved width hc
  unfold lowered
  rw [hline]
  split
  · unfold Motion.ofChar
    rw [if_neg hc]
    split_ifs <;> rfl
  · rfl

/-- A position that cannot be written cannot be written further down either. -/
theorem not_isWritable_lowered (positive : 1 ≤ position.line) (h : ¬ position.isWritable) :
    ¬ (position.lowered above).isWritable := by
  unfold lowered
  split
  · intro writable
    apply h
    unfold isWritable at writable ⊢
    rw [Bool.and_eq_true] at writable ⊢
    exact ⟨Decimal.fits_of_le writable.1 positive (Int.le_of_lt (Int.lt_succ _)), writable.2⟩
  · exact h

theorem isWritable_lowered (h : position.isWritable)
    (fits : Decimal.fits (position.lowered above).line) : (position.lowered above).isWritable := by
  have hcolumn : (position.lowered above).column = position.column := by
    unfold lowered
    split <;> rfl
  unfold isWritable at h ⊢
  rw [Bool.and_eq_true] at h ⊢
  exact ⟨fits, hcolumn ▸ h.2⟩

end Position

/-- The position is in a line, and the other one is where it has moved to. -/
def IsLowered (above : ℕ) (position position' : Position) : Prop :=
  1 ≤ position.line ∧ position' = position.lowered above

theorem isSteady_lowered (width : Int) (above : ℕ) : IsSteady width width (IsLowered above) := by
  rintro position _ c hc ⟨positive, rfl⟩
  refine ⟨?_, Position.moved_lowered width hc⟩
  rwa [position.line_moved width hc]

theorem Token.Agrees.lowered_eq {above : ℕ} {token token' : Token}
    (h : Token.Agrees (IsLowered above) token token') : token'.placed = token.lowered above := by
  have hlocation : token'.location = token.location.lowered above := by
    show Location.ofPosition token'.location.file token'.location.position =
      Location.ofPosition token.location.file (token.location.position.lowered above)
    rw [h.file, h.near.2]
  rw [Token.placed, Token.lowered, h.gist, hlocation]

theorem Lexer.Error.Agrees.lowered_eq {above : ℕ} {cause cause' : Lexer.Error}
    (h : Lexer.Error.Agrees (IsLowered above) cause cause') : cause' = cause.lowered above := by
  cases h with
  | decoding cause => rfl
  | @located cause file position position' h =>
      obtain ⟨positive, rfl⟩ := h
      by_cases writable : (Location.ofPosition file position).isWritable
      · rw [Lexer.Error.at_of_isWritable writable]
        rfl
      · have unwritable := @Position.not_isWritable_lowered above position positive writable
        rw [Lexer.Error.at_of_not_isWritable writable]
        exact @Lexer.Error.at_of_not_isWritable (.ofPosition file _) unwritable cause

/-- A lexical error stays one if its new line has a number that can be written. -/
theorem Lexer.Error.Agrees.eq_lexical {above : ℕ} {cause : LexError.Cause} {location : Location}
    {cause' : Lexer.Error} (fits : Decimal.fits (location.lowered above).line)
    (h : Lexer.Error.Agrees (IsLowered above) (.lexical ⟨cause, some location⟩) cause') :
    cause' = .lexical ⟨cause, some (location.lowered above)⟩ := by
  generalize hgiven : Lexer.Error.lexical ⟨cause, some location⟩ = given at h
  cases h with
  | decoding cause => simp at hgiven
  | @located cause' file position position' h =>
      obtain ⟨-, rfl⟩ := h
      obtain ⟨rfl, hlocation⟩ := LexError.mk.inj (Lexer.Error.eq_of_at hgiven.symm)
      obtain rfl := Option.some.inj hlocation
      have writable : position.isWritable := by
        by_contra unwritable
        rw [@Lexer.Error.at_of_not_isWritable (.ofPosition file position) unwritable] at hgiven
        simp at hgiven
      have lowered := @Position.isWritable_lowered above position writable fits
      exact @Lexer.Error.at_of_isWritable (.ofPosition file _) lowered cause

/-! ## The lines below -/

namespace Lines

variable {settings : Settings} {name : String} {number : Int} {levels : Levels}

/-- A line without lexemes only counts. -/
theorem readLines_of_isBlank {line : List Char} (blank : IsBlank line) {lines : List (List Char)}
    (nonempty : lines ≠ []) :
    readLines settings name number levels (line :: lines) =
      readLines settings name (number + 1) levels lines := by
  obtain ⟨following, more, rfl⟩ := List.exists_cons_of_ne_nil nonempty
  rw [readLines, readLine_of_isBlank blank, Reading.pure_bind]

/-- Line by line, a text agrees with itself with another line in it. -/
theorem agrees_insert_blank {above : List (List Char)} (habove : ∀ line ∈ above, '\n' ∉ line)
    {line : List Char} (blank : IsBlank line) (rest : List Char) :
    Reading.Agrees (IsLowered above.length) Eq
      (readLines settings name 1 levels ((ended above ++ rest).splitOn '\n'))
      (readLines settings name 1 levels
        ((ended above ++ (line ++ '\n' :: rest)).splitOn '\n')) := by
  have steady := isSteady_lowered settings.tabWidth above.length
  have hbelow : '\n' ∉ ended [] := by simp
  rw [splitOn_ended_append habove, splitOn_ended_append habove,
    List.splitOn_append_cons_self_of_not_mem blank.not_mem]
  apply agrees_append steady habove
  · intro index hindex
    have hpositive : (1 : Int) ≤ 1 + index := by omega
    have hle : (1 : Int) + index ≤ above.length := by omega
    exact ⟨hpositive, (Position.lowered_of_le hle).symm⟩
  · simp [List.splitOn_ne_nil]
  · intro levels
    rw [readLines_of_isBlank blank (List.splitOn_ne_nil _ _)]
    apply agrees_readLines steady fun _ => not_mem_of_mem_splitOn
    intro index
    have hpositive : (1 : Int) ≤ 1 + above.length + index := by omega
    have hlt : (above.length : Int) < 1 + above.length + index := by omega
    refine ⟨hpositive, ?_⟩
    rw [Position.lowered_of_lt hlt, Int.add_right_comm]

end Lines

namespace Lexer

/-- A line without lexemes that is put in front of a line of a text only moves down what is below.
Where an error was reported that is now in a line whose number can be written, it is reported
there. -/
theorem tokenize_insert_blank (settings : Settings) (name : String) {front line : List Char}
    (rest : List Char) (ends : front = [] ∨ front.getLast? = some '\n') (blank : IsBlank line) :
    (tokenize settings ⟨String.ofList (front ++ (line ++ '\n' :: rest)), name⟩).map
        (List.map Token.placed) =
      ((tokenize settings ⟨String.ofList (front ++ rest), name⟩).map
        (List.map (Token.lowered (front.count '\n')))).mapError
          (Error.lowered (front.count '\n')) ∧
      ∀ cause location,
        tokenize settings ⟨String.ofList (front ++ rest), name⟩ =
          .error (.lexical ⟨cause, some location⟩) →
        Decimal.fits (location.lowered (front.count '\n')).line →
        tokenize settings ⟨String.ofList (front ++ (line ++ '\n' :: rest)), name⟩ =
          .error (.lexical ⟨cause, some (location.lowered (front.count '\n'))⟩) := by
  obtain ⟨above, last, rfl, habove, hlast⟩ := exists_ended front
  obtain rfl := eq_nil_of_getLast? hlast ends
  have agrees : Reading.Agrees (IsLowered above.length) Eq
      (Lines.read settings ⟨String.ofList (ended above ++ rest), name⟩)
      (Lines.read settings ⟨String.ofList (ended above ++ (line ++ '\n' :: rest)), name⟩) := by
    unfold Lines.read
    rw [String.toList_ofList, String.toList_ofList]
    exact agrees_insert_blank habove blank rest
  rw [List.append_nil, count_ended habove, tokenize_eq_reported, tokenize_eq_reported]
  refine ⟨agrees.map_whole (fun _ _ => Token.Agrees.lowered_eq) fun _ _ => Error.Agrees.lowered_eq,
    fun cause location failure fits => ?_⟩
  obtain ⟨cause', failure', hcause⟩ := agrees.exists_of_whole_error failure
  rw [failure', hcause.eq_lexical fits]

/-- A comment in front of a line that has an error, under a line that has a lexeme. -/
theorem tokenize_insert_comment :
    tokenize .standard ⟨String.ofList (['x', '\n'] ++ (['\t', '#', '"'] ++ '\n' :: ['?'])), "a"⟩ =
      .error (.lexical ⟨.unexpected '?', some ⟨3, 1, "a"⟩⟩) := by
  have ends : ['x', '\n'] = [] ∨ ['x', '\n'].getLast? = some '\n' := Or.inr rfl
  have blank : IsBlank ['\t', '#', '"'] :=
    ⟨['\t'], ['#', '"'], rfl, by simp [CharClass.has], Or.inr ⟨['"'], rfl, by simp⟩⟩
  have failure : tokenize .standard ⟨String.ofList (['x', '\n'] ++ ['?']), "a"⟩ =
      .error (.lexical ⟨.unexpected '?', some ⟨2, 1, "a"⟩⟩) := by decide +kernel
  exact (tokenize_insert_blank .standard "a" ['?'] ends blank).2 _ _ failure (by decide +kernel)

end Lexer

end Offside
