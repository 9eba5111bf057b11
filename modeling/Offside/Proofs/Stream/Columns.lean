import Offside.Proofs.Stream.States

/-!
# Where lines begin

The column of a line is computed twice.  Measuring its blanks gives a level, which is compared with
the open blocks; reading them moves the position, by which tokens are located.  Both lead to the
same column (`column_eq_foldlM`), however spaces, tabs and carriage returns are mixed.

So the first lexeme of a line stands in the column of the innermost block
(`column_eq_top_of_next`).

## Strategy

The inside of a line is entered in three ways: the line goes on in the same block, opens one, or has
closed enough of them.  In each the blanks are read from the first column, and the level that they
were measured to is the innermost one afterwards (`IsAligned.of_transition`).  From then on, either
the lexer still stands there, or it has given a lexeme of this line.
-/

namespace Offside

/-- A position moves over a text character by character; tabs need a width for that. -/
theorem Position.foldlM_advance {width : Int} (nonzero : width ≠ 0) (text : List Char)
    (position : Position) :
    text.foldlM (fun reached c => reached.advance width (.ofChar c)) position =
      .ok (position.after width text) := by
  induction text generalizing position with
  | nil => rfl
  | cons c text ih =>
      rw [List.foldlM_cons, Position.advance_of_ne_zero nonzero, Position.after_cons]
      exact ih _

/-- Measuring blanks and reading them from the first column lead to the same column. -/
theorem Indentation.column_eq_foldlM {width : Int} (nonzero : width ≠ 0) (line : Int)
    {run : List Char} (hrun : ∀ c ∈ run, CharClass.blank.has c) :
    ∃ level, Indentation.column width run = .ok level ∧
      run.foldlM (fun reached c => reached.advance width (.ofChar c)) (⟨line, 1⟩ : Position) =
        .ok ⟨line, level⟩ := by
  refine ⟨_, column_eq_after nonzero line hrun, ?_⟩
  have hline : (Position.after width run ⟨line, 1⟩).line = line :=
    Position.line_after_of_not_mem (Lines.not_mem_of_blank hrun) _
  rw [Position.foldlM_advance nonzero]
  exact congrArg (fun l => Except.ok (Position.mk l _)) hline

namespace Lexer

open Lines Lexeme

variable {settings : Settings} {source : Source} {lexer left : Lexer} {token : Token}
  {tokens : List Token} {run tail : List Char} {level : Int}

/-- A token that does not belong to the layout and begins in the line of the lexer. -/
def HasBegun (tokens : List Token) (lexer : Lexer) : Prop :=
  ∃ token ∈ tokens, token.kind.isLayout = false ∧ token.location.line = lexer.position.line

/-- Inside a line, the lexer has given a lexeme of that line, or stands in front of the first one,
in the column of the innermost block. -/
def IsAligned (tokens : List Token) (lexer : Lexer) : Prop :=
  lexer.mode = .inLine →
    IsContent lexer.cursor.rest ∧ lexer.position.column = lexer.levels.top ∨ HasBegun tokens lexer

theorem HasBegun.append (h : HasBegun tokens lexer) (more : List Token)
    (line : left.position.line = lexer.position.line) : HasBegun (tokens ++ more) left := by
  obtain ⟨token, hmem, content, hline⟩ := h
  exact ⟨token, List.mem_append_left more hmem, content, hline.trans line.symm⟩

/-! ## Entering a line -/

/-- A lexer that has not begun a line stands in its first column. -/
theorem AtWork.column_eq_one (h : AtWork settings source lexer) (mode : lexer.mode ≠ .inLine)
    (nonempty : lexer.cursor.rest ≠ []) : lexer.position.column = 1 := by
  rw [h.position]
  exact column_of_beginsLine (h.begins mode nonempty)

/-- Behind its blanks, a line is at its first lexeme, in the column that they were measured to. -/
theorem AtWork.begins_ahead (h : AtWork settings source lexer) (mode : lexer.mode ≠ .inLine)
    (indented : Indented lexer.cursor.rest run tail) (content : IsContent tail)
    (reaches : lexer.Reaches run level) :
    IsContent (lexer.ahead run.length).cursor.rest ∧
      (lexer.ahead run.length).position.column = level := by
  have hfirst : lexer.position = ⟨lexer.position.line, 1⟩ :=
    congrArg (Position.mk lexer.position.line) (h.column_eq_one mode (indented.ne_nil content))
  refine ⟨(rest_ahead_of_split indented.split).symm ▸ content, ?_⟩
  rw [position_ahead_of_split indented.split, hfirst]
  rw [Reaches, Indentation.column_eq_after lexer.settings.tabWidth_ne_zero lexer.position.line
    indented.blank] at reaches
  exact Except.ok.inj reaches

/-! ## Steps -/

/-- Inside a line, what is skipped does not lead out of it. -/
theorem line_of_idle (h : Transition lexer (.ok none left)) (mode : lexer.mode = .inLine) :
    left.position.line = lexer.position.line := by
  obtain ⟨text, skips⟩ := exists_skips h
  rw [skips.passes.position]
  apply Position.line_after_of_not_mem
  intro hfeed
  exact absurd ((skips.feed hfeed).1.symm.trans mode) (by decide)

/-- What is skipped inside a line does not stand in front of a lexeme that begins it. -/
theorem mode_of_isContent (h : Transition lexer (.ok none left))
    (content : IsContent lexer.cursor.rest) : lexer.mode ≠ .inLine := by
  cases h with
  | blanks mode kept nonempty =>
      exact absurd ((keptRun_of_isContent content).symm.trans kept).symm nonempty
  | openComment mode split closed =>
      obtain ⟨c, rest, hrest, -, -, hmark⟩ := content
      exact absurd (List.cons.inj (hrest.symm.trans split)).1 hmark
  | blankLine mode | lastBlankLine mode | sameLevel mode | pend mode | resolved mode => simp [mode]

theorem IsAligned.of_idle (h : IsAligned tokens lexer) (atWork : AtWork settings source lexer)
    (idle : Transition lexer (.ok none left)) : IsAligned tokens left := by
  intro inLine
  by_cases mode : lexer.mode = .inLine
  · rcases h mode with ⟨content, -⟩ | begun
    · exact absurd mode (mode_of_isContent idle content)
    · exact Or.inr (List.append_nil tokens ▸ begun.append [] (line_of_idle idle mode))
  · left
    cases idle with
    | sameLevel mode' indented content reaches =>
        exact atWork.begins_ahead mode indented content reaches
    | resolved mode' indented reaches =>
        have content := atWork.closes.isContent mode' indented
        exact atWork.begins_ahead mode indented content reaches
    | pend => exact absurd inLine (by simp [entering])
    | _ => exact absurd inLine mode

theorem IsAligned.of_token (h : IsAligned tokens lexer) (atWork : AtWork settings source lexer)
    (last : Transition lexer (.ok (some token) left)) : IsAligned (tokens ++ [token]) left := by
  cases last with
  | closeAtEnd mode ended opened | finish mode ended opened =>
      -- At the end of the text there is no lexeme to stand in front of.
      intro inLine
      rcases h inLine with ⟨⟨c, rest, hrest, -⟩, -⟩ | begun
      · exact absurd (ended.symm.trans hrest) (by simp)
      · exact Or.inr (begun.append _ rfl)
  | indent mode indented content reaches deeper =>
      exact fun _ => Or.inl (atWork.begins_ahead (by simp [mode]) indented content reaches)
  | dedent mode => exact fun inLine => absurd (mode.symm.trans inLine) (by decide)
  | newline => exact fun inLine => absurd inLine (by simp [entering])
  | @lexeme shape _ mode content found read =>
      intro _
      right
      refine ⟨token, List.mem_append_right _ (List.mem_singleton_self _),
        Shape.isLayout_of_read read, ?_⟩
      have passes := passes_of_shape (isLongest_of_longest? found).prefixed
      rw [Shape.location_of_read read, passes.position]
      exact (Position.line_after_of_not_mem
        (Shape.not_mem_text (isLongest_of_longest? found).valid) _).symm

theorem IsAligned.of_transition {found : Option Token} (h : IsAligned tokens lexer)
    (atWork : AtWork settings source lexer) (transition : Transition lexer (.ok found left)) :
    IsAligned (tokens ++ found.toList) left := by
  cases found with
  | none => simpa using h.of_idle atWork transition
  | some token => exact h.of_token atWork transition

/-! ## Lexemes that begin lines -/

theorem isAligned_of_pulls (pulls : Pulls (start settings source) tokens lexer)
    (running : lexer.ending = none) : IsAligned tokens lexer := by
  have once : ∀ token ∈ tokens.dropLast, token.isEof = false :=
    fun token hmem => pulls.calls.running_of_mem running token (List.mem_of_mem_dropLast hmem)
  have hstart : IsAligned [] (start settings source) := fun inLine => by simp [start] at inLine
  exact pulls.gathers_atWork once (fun atWork h transition => h.of_transition atWork transition)
    hstart

/-- A lexeme before which its line had none stands in the column of the innermost block. -/
theorem column_eq_top_of_next (pulls : Pulls (start settings source) tokens lexer)
    (pull : next lexer = .ok token left) (content : token.kind.isLayout = false)
    (first : ∀ earlier ∈ tokens, earlier.kind.isLayout = false →
      earlier.location.line ≠ token.location.line) :
    token.location.column = left.levels.top := by
  have atWork := (atWork_start settings source).of_calls pulls.calls
  have inside : token.kind ≠ .layout .eof := fun h => by simp [h, Kind.isLayout] at content
  have running := atWork.running_of_next pull inside
  obtain ⟨inner, skipped, way, last⟩ := exists_idles_of_next running pull
  have aligned : AtWork settings source inner ∧ IsAligned tokens inner :=
    way.preserves (P := fun lexer => AtWork settings source lexer ∧ IsAligned tokens lexer) running
      (fun h running idle => ⟨h.1.of_transition running idle, h.2.of_idle h.1 idle⟩)
      ⟨atWork, isAligned_of_pulls pulls running⟩
  cases last with
  | lexeme mode begins found read =>
      have hlocation := Shape.location_of_read read
      rcases aligned.2 mode with ⟨-, hcolumn⟩ | ⟨earlier, hmem, hlexeme, hline⟩
      · rw [hlocation]
        exact hcolumn
      · refine absurd (hline.trans ?_) (first earlier hmem hlexeme)
        rw [hlocation]
        rfl
  | _ => exact absurd content (by simp [mark, Kind.isLayout])

/-- Measuring the blanks of a line and reading them lead to the same column, at any tab width that
has stops.  The first lexeme of a line stands in the column of the innermost block. -/
theorem columns_of_lines :
    (∀ (width line : Int) (run : List Char), width ≠ 0 → (∀ c ∈ run, CharClass.blank.has c) →
      ∃ level, Indentation.column width run = .ok level ∧
        run.foldlM (fun reached c => reached.advance width (.ofChar c)) (⟨line, 1⟩ : Position) =
          .ok ⟨line, level⟩) ∧
      ∀ (settings : Settings) (source : Source) (tokens : List Token) (lexer : Lexer)
        (token : Token) (left : Lexer), Pulls (start settings source) tokens lexer →
        next lexer = .ok token left → token.kind.isLayout = false →
        (∀ earlier ∈ tokens, earlier.kind.isLayout = false →
          earlier.location.line ≠ token.location.line) →
        token.location.column = left.levels.top :=
  ⟨fun _ line _ nonzero blank => Indentation.column_eq_foldlM nonzero line blank,
    fun _ _ _ _ _ _ pulls pull content first => column_eq_top_of_next pulls pull content first⟩

/-- A tab of negative width, and a line with a carriage return, a space and a tab in front. -/
theorem columns_of_return_and_tab :
    (∃ level, Indentation.column (-3) [' ', '\r', '\t'] = .ok level ∧
      [' ', '\r', '\t'].foldlM (fun reached c => reached.advance (-3) (.ofChar c))
        (⟨2, 1⟩ : Position) = .ok ⟨2, level⟩) ∧
      ∃ tokens lexer left, Pulls (start .standard ⟨"x\n\r \ty", "a"⟩) tokens lexer ∧
        tokens.map (·.kind) = [.name, .layout .newline, .layout .indent] ∧
        next lexer = .ok ⟨.name, some (.text "y"), "y", ⟨2, 9, "a"⟩⟩ left ∧
        9 = left.levels.top := by
  refine ⟨columns_of_lines.1 (-3) 2 [' ', '\r', '\t'] (by decide) (by simp [CharClass.has]), ?_⟩
  have given : outcome (take 3) (start .standard ⟨"x\n\r \ty", "a"⟩) =
      .ok [⟨.name, some (.text "x"), "x", ⟨1, 1, "a"⟩⟩,
        ⟨.layout .newline, none, "\n\r", ⟨1, 2, "a"⟩⟩,
        ⟨.layout .indent, none, "", ⟨2, 1, "a"⟩⟩] := by
    cbv
  have second : outcome next (leftBy (take 3) (start .standard ⟨"x\n\r \ty", "a"⟩)) =
      .ok ⟨.name, some (.text "y"), "y", ⟨2, 9, "a"⟩⟩ := by
    cbv
  obtain ⟨lexer, pulls, hlexer⟩ := exists_pulls_of_outcome given
  rw [hlexer] at second
  obtain ⟨left, pull⟩ := exists_of_outcome second
  exact ⟨_, lexer, left, pulls, rfl, pull,
    columns_of_lines.2 _ _ _ _ _ _ pulls pull rfl (by decide)⟩

end Lexer

end Offside
