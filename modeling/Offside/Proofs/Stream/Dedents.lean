import Offside.Proofs.Stream.Columns
import Offside.Proofs.Stream.Outcomes

/-!
# Lines that close blocks

A line that is not as deep as the innermost block closes the blocks that are deeper than itself, one
for each call, and stays unread meanwhile.  When all of them are closed, the line either is in the
block that is the innermost one then, and its first lexeme follows, or it lies between two blocks,
which is an error.  The base is never closed, as no line is less deep than that.

## Strategy

The blocks that are deeper than the line are the inner ones, since the levels increase.  So closing
any number of them is induction on a list of inner levels (`exists_pulls_of_dedent`), and the step
after the last one finds the innermost level to be the greatest of those up to the line's.
-/

namespace Offside.Lexer

open Lines Lexeme

variable {settings : Settings} {source : Source} {lexer middle left : Lexer} {token : Token}
  {tokens : List Token} {skipped run tail : List Char} {level : Int}

/-- `left` stands where `lexer` stands, with blocks at `levels` open, and is about to close more. -/
structure Waits (lexer left : Lexer) (levels : List Int) : Prop where
  mode : left.mode = .dedent
  levels : left.levels.toList = levels
  unmoved : left.cursor = lexer.cursor

/-- The result of a pull at a lexeme: its token, or a failure over it, inside the line and in the
same blocks. -/
def IsOfLexeme (lexer : Lexer) : EStateM.Result Error Lexer Token → Prop
  | .ok token left =>
      token.kind.isLayout = false ∧ token.location = lexer.here ∧
        left.mode = .inLine ∧ left.levels = lexer.levels
  | .error cause left =>
      Fails left cause ∧ (∀ location, cause ≠ .lexical ⟨.badIndentation, location⟩) ∧
        left.mode = .inLine ∧ left.levels = lexer.levels

/-- What comes of a line when all blocks are closed that are deeper: `left` is in front of it, with
blocks at `levels` open, and the line is at `level`. -/
inductive Resolves (lexer left : Lexer) (run : List Char) (level : Int) (levels : List Int) : Prop
  /-- The line is in the innermost block, and its first lexeme comes next. -/
  | proceeds {ready : Lexer} (inside : levels.getLast? = some level) (same : next left = next ready)
      (mode : ready.mode = .inLine) (open_ : ready.levels.toList = levels)
      (cursor : ready.cursor = (lexer.ahead run.length).cursor)
      (result : IsOfLexeme ready (next ready))
  /-- The line lies between two blocks, which is an error, now and on. -/
  | mismatch {final : Lexer} (outside : levels.getLast? ≠ some level)
      (failure : next left = .error (.at .badIndentation lexer.here) final)
      (waits : Waits lexer final levels)

/-! ## Pulls at a lexeme -/

/-- What is reported of a lexeme is not its indentation. -/
theorem at_ne_badIndentation {cause : LexError.Cause} (h : cause ≠ .badIndentation)
    (place : Location) (location : Option Location) :
    Error.at cause place ≠ .lexical ⟨.badIndentation, location⟩ := by
  intro hat
  have herror := Error.eq_of_at hat
  exact h (LexError.mk.inj herror).1.symm

/-- In front of a lexeme, a pull is a single step. -/
theorem isOfLexeme_next (running : lexer.ending = none) (mode : lexer.mode = .inLine)
    (content : IsContent lexer.cursor.rest) : IsOfLexeme lexer (next lexer) := by
  obtain ⟨result, transition⟩ := exists_transition lexer
  cases transition with
  | lexeme mode' content' found read =>
      rw [next_of_token running (.lexeme mode' content' found read)]
      exact ⟨Shape.isLayout_of_read read, Shape.location_of_read read, mode, rfl⟩
  | refused mode' content' found fits refusal =>
      have failure := Transition.refused mode' content' found fits refusal
      rw [next_of_error running failure]
      exact ⟨fails_of_transition failure, by simp, mode, rfl⟩
  | tooLarge mode' content' found large =>
      have failure := Transition.tooLarge mode' content' found large
      rw [next_of_error running failure]
      exact ⟨fails_of_transition failure, at_ne_badIndentation (by simp) _, mode, rfl⟩
  | unexpected mode' split content' found =>
      have failure := Transition.unexpected mode' split content' found
      rw [next_of_error running failure]
      exact ⟨fails_of_transition failure, at_ne_badIndentation (by simp) _, mode, rfl⟩
  | closeAtEnd mode' ended | finish mode' ended =>
      obtain ⟨c, rest, hrest, -⟩ := content
      exact absurd (ended.symm.trans hrest) (by simp)
  | newline mode' ends => exact absurd content ends.not_isContent
  | blanks mode' kept nonempty =>
      exact absurd mode (mode_of_isContent (.blanks mode' kept nonempty) content)
  | openComment mode' split closed =>
      exact absurd mode (mode_of_isContent (.openComment mode' split closed) content)
  | blankLine mode' | lastBlankLine mode' | sameLevel mode' | indent mode' | pend mode'
  | dedent mode' | resolved mode' | mismatch mode' =>
      exact absurd (mode'.symm.trans mode) (by decide)

/-! ## Closing blocks -/

/-- Blocks that are deeper than the line are closed one by one. -/
theorem exists_pulls_of_dedent (running : lexer.ending = none) (mode : lexer.mode = .dedent)
    (indented : Indented lexer.cursor.rest run tail) (reaches : lexer.Reaches run level)
    {inner outer : List Int} (opened : lexer.levels.opened = inner ++ outer)
    (deeper : ∀ other ∈ inner, level < other) :
    ∃ journal, Pulls lexer (List.replicate inner.length (lexer.mark .dedent))
      { lexer with levels := ⟨outer⟩, journal } := by
  induction inner generalizing lexer with
  | nil =>
      refine ⟨lexer.journal, ?_⟩
      have hsame : { lexer with levels := ⟨outer⟩, journal := lexer.journal } = lexer := by
        rw [← show lexer.levels = ⟨outer⟩ from congrArg Levels.mk opened]
      rw [hsame]
      exact .nil lexer
  | cons top inner ih =>
      obtain ⟨htop, hinner⟩ := List.forall_mem_cons.mp deeper
      have first := next_of_token running (.dedent mode indented reaches opened htop)
      obtain ⟨journal, more⟩ := @ih ((lexer.within (inner ++ outer)).noting
        (.dedent top lexer.position.line)) running mode indented reaches rfl hinner
      exact ⟨journal, .cons first more⟩

/-- The first pull from a lexer decides about the others. -/
theorem Pulls.of_next_eq {other : Lexer} (h : next lexer = next other)
    (pulls : Pulls other tokens left) (nonempty : tokens ≠ []) : Pulls lexer tokens left := by
  cases pulls with
  | nil => exact absurd rfl nonempty
  | cons first more => exact .cons (h.trans first) more

theorem next_of_idles (idles : Idles lexer left skipped) (running : lexer.ending = none) :
    next lexer = next left :=
  idles.preserves (P := fun left => next lexer = next left) running
    (fun same running idle => same.trans (next_of_idle running idle)) rfl

/-- Any number of the blocks that are deeper than a line are closed by as many pulls in front of
it. -/
theorem exists_pulls_of_pend (running : lexer.ending = none) (mode : lexer.mode = .lineStart)
    (indented : Indented lexer.cursor.rest run tail) (content : IsContent tail)
    (reaches : lexer.Reaches run level) (shallower : level < lexer.levels.top)
    {high outer : List Int} (opened : lexer.levels.opened = high.reverse ++ outer)
    (deeper : ∀ other ∈ high, level < other) {count : ℕ} (positive : 0 < count)
    (hcount : count ≤ high.length) :
    ∃ journal, Pulls lexer (List.replicate count (lexer.mark .dedent))
      { lexer with mode := .dedent, levels := ⟨high.reverse.drop count ++ outer⟩, journal } := by
  have pending := next_of_idle running (.pend mode indented content reaches shallower)
  have running' : (lexer.entering .dedent).ending = none := running
  have opened' : (lexer.entering .dedent).levels.opened =
      high.reverse.take count ++ (high.reverse.drop count ++ outer) := by
    rw [← List.append_assoc, List.take_append_drop]
    exact opened
  have deeper' : ∀ other ∈ high.reverse.take count, level < other :=
    fun other hmem => deeper other (List.mem_reverse.mp (List.mem_of_mem_take hmem))
  have hlength : (high.reverse.take count).length = count := by simpa using hcount
  obtain ⟨journal, pulls⟩ := exists_pulls_of_dedent running' rfl indented reaches opened' deeper'
  rw [hlength] at pulls
  have marks : List.replicate count (lexer.mark .dedent) ≠ [] := by
    simpa using Nat.ne_of_gt positive
  exact ⟨journal, pulls.of_next_eq pending marks⟩

/-! ## The line behind its blocks -/

/-- In the first column, every error can be reported whose line can be written. -/
theorem at_of_column_eq_one {place : Location} (column : place.column = 1)
    (fits : Decimal.fits place.line) (cause : LexError.Cause) :
    Error.at cause place = .lexical ⟨cause, some place⟩ := by
  have hone : Decimal.fits 1 = true := by decide +kernel
  apply Error.at_of_isWritable
  simp [Location.isWritable, Location.position, Position.isWritable, fits, column, hone]

/-- The place where a line begins. -/
theorem AtWork.here_of_begins (h : AtWork settings source lexer)
    (begins : BeginsLine lexer.cursor.before.reverse) :
    lexer.here =
      ⟨1 + (source.text.toList.take lexer.cursor.offset).count '\n', 1, source.name⟩ := by
  have hline : lexer.position.line =
      1 + (source.text.toList.take lexer.cursor.offset).count '\n' := by
    rw [h.position, h.take_eq, Position.line_after]
    rfl
  have hcolumn : lexer.position.column = 1 := by
    rw [h.position]
    exact column_of_beginsLine begins
  rw [here, locate, Location.ofPosition, hline, hcolumn, h.name]

/-- When the blocks that are deeper are closed, the line is in the innermost one or in none. -/
theorem resolves_of_closed (running : lexer.ending = none)
    (indented : Indented lexer.cursor.rest run tail) (content : IsContent tail)
    (reaches : lexer.Reaches run level) {outer : List Int} (journal : List Journal.Event)
    (enough : Levels.top ⟨outer⟩ ≤ level) :
    Resolves lexer { lexer with mode := .dedent, levels := ⟨outer⟩, journal } run level
      (Levels.toList ⟨outer⟩) := by
  set left := { lexer with mode := .dedent, levels := ⟨outer⟩, journal }
  have htop : (Levels.toList ⟨outer⟩).getLast? = some left.levels.top := Levels.getLast?_toList _
  rcases Int.lt_or_eq_of_le enough with deeper | rfl
  · have mismatch : Transition left (.error (.at .badIndentation lexer.here) _) :=
      .mismatch rfl indented reaches deeper
    refine .mismatch ?_ (next_of_error running mismatch) ⟨rfl, rfl, rfl⟩
    rw [htop, Ne, Option.some_inj]
    exact Int.ne_of_lt deeper
  · have resolved : Transition left (.ok none ((left.ahead run.length).entering .inLine)) :=
      .resolved rfl indented reaches
    refine .proceeds htop (next_of_idle running resolved) rfl rfl rfl ?_
    exact isOfLexeme_next running rfl ((rest_ahead_of_split indented.split).symm ▸ content)

/-- A line that is less deep than the innermost block closes the blocks that are deeper than itself,
one for each call, without being read.  Behind that its first lexeme comes next if the line is in
one of the blocks, and otherwise an error at its beginning. -/
theorem dedents_of_line {before : Lexer} (calls : Calls (start settings source) tokens before)
    (idles : Idles before lexer skipped) (mode : lexer.mode = .lineStart)
    (indented : Indented lexer.cursor.rest run tail) (content : IsContent tail)
    (reaches : lexer.Reaches run level) (shallower : level < lexer.levels.top) :
    let low := lexer.levels.toList.filter (· ≤ level)
    let high := lexer.levels.toList.filter (level < ·)
    lexer.levels.toList = low ++ high ∧ high ≠ [] ∧
      (low.getLast? = some level ↔ level ∈ lexer.levels.toList) ∧
      BeginsLine (source.text.toList.take lexer.cursor.offset) ∧
      lexer.here =
        ⟨1 + (source.text.toList.take lexer.cursor.offset).count '\n', 1, source.name⟩ ∧
      (Decimal.fits lexer.here.line → Error.at .badIndentation lexer.here =
        .lexical ⟨.badIndentation, some lexer.here⟩) ∧
      next before = next lexer ∧
      ∀ count, 0 < count → count ≤ high.length →
        ∃ left, Pulls lexer (List.replicate count (lexer.mark .dedent)) left ∧
          Waits lexer left (low ++ high.take (high.length - count)) ∧
          (count = high.length → Resolves lexer left run level low) := by
  intro low high
  have nonempty := indented.ne_nil content
  have hbefore := (atWork_start settings source).of_calls calls
  have open_ : before.ending = none :=
    hbefore.running_of_ne_nil (idles.passes.rest ▸ List.append_ne_nil_of_right_ne_nil _ nonempty)
  have atWork := idles.preserves (P := AtWork settings source) open_ AtWork.of_transition hbefore
  have running := idles.running open_
  have begins := atWork.begins (by simp [mode]) nonempty
  have hhere := atWork.here_of_begins begins
  rw [← atWork.take_eq] at begins
  obtain ⟨outer, opened, hlow⟩ :=
    atWork.increasing.exists_outer (one_le_of_reaches indented.blank reaches)
  have deeper : ∀ other ∈ high, level < other := by
    intro other hmem
    simpa using (List.mem_filter.mp hmem).2
  refine ⟨(Levels.filter_append_filter atWork.increasing level).symm, ?_,
    atWork.increasing.getLast?_eq_iff level, begins, hhere,
    fun fits => at_of_column_eq_one (congrArg Location.column hhere) fits _,
    next_of_idles idles open_, ?_⟩
  · have htop := List.mem_of_getLast? lexer.levels.getLast?_toList
    exact List.ne_nil_of_mem (List.mem_filter.mpr ⟨htop, by simpa using shallower⟩)
  · intro count positive hcount
    obtain ⟨journal, pulls⟩ := exists_pulls_of_pend running mode indented content reaches shallower
      opened deeper positive hcount
    refine ⟨_, pulls, ⟨rfl, ?_, rfl⟩, ?_⟩
    · rw [Levels.toList_append, List.drop_reverse, List.reverse_reverse]
      exact congrArg (· ++ _) hlow
    · intro hall
      have hnone : high.reverse.drop count = [] := by simp [hall]
      have enough : Levels.top ⟨outer⟩ ≤ level := by
        have hmem := List.mem_of_getLast? (Levels.getLast?_toList ⟨outer⟩)
        rw [hlow] at hmem
        simpa using (List.mem_filter.mp hmem).2
      rw [hnone, List.nil_append, ← show _ = low from hlow]
      exact resolves_of_closed running indented content reaches journal enough

/-- A line that closes two blocks and is deeper than the base. -/
theorem dedents_of_line_between :
    ∃ tokens lexer left final, Calls (start .standard ⟨"\tx\n\t\ty\n  z", "a"⟩) tokens lexer ∧
      lexer.mode = .lineStart ∧ lexer.levels.toList = [1, 9, 17] ∧
      Pulls lexer (List.replicate 2 ⟨.layout .dedent, none, "", ⟨3, 1, "a"⟩⟩) left ∧
      left.levels.toList = [1] ∧
      next left = .error (.lexical ⟨.badIndentation, some ⟨3, 1, "a"⟩⟩) final ∧
      Waits lexer final [1] := by
  have given : outcome (take 6) (start .standard ⟨"\tx\n\t\ty\n  z", "a"⟩) =
      .ok [⟨.layout .indent, none, "", ⟨1, 1, "a"⟩⟩,
        ⟨.name, some (.text "x"), "x", ⟨1, 9, "a"⟩⟩,
        ⟨.layout .newline, none, "\n", ⟨1, 10, "a"⟩⟩,
        ⟨.layout .indent, none, "", ⟨2, 1, "a"⟩⟩,
        ⟨.name, some (.text "y"), "y", ⟨2, 17, "a"⟩⟩,
        ⟨.layout .newline, none, "\n", ⟨2, 18, "a"⟩⟩] := by
    cbv
  obtain ⟨lexer, before, hlexer⟩ := exists_pulls_of_outcome given
  have facts : (lexer.mode, lexer.cursor.rest, lexer.levels.toList, lexer.here,
      lexer.settings.tabWidth) = (.lineStart, [' ', ' '] ++ ['z'], [1, 9, 17], ⟨3, 1, "a"⟩, 8) := by
    rw [← hlexer]
    cbv
  simp only [Prod.mk.injEq] at facts
  obtain ⟨mode, hrest, hlevels, hhere, hwidth⟩ := facts
  have content : IsContent ['z'] := ⟨'z', [], rfl, by decide, by decide, by decide⟩
  have indented : Indented lexer.cursor.rest [' ', ' '] ['z'] :=
    hrest ▸ indented_of_isContent (by simp [CharClass.has]) content
  have reaches : lexer.Reaches [' ', ' '] 3 := by
    rw [Reaches, hwidth]
    rfl
  have top : lexer.levels.top = 17 := by
    have hlast := lexer.levels.getLast?_toList
    rw [hlevels] at hlast
    exact (Option.some.inj hlast).symm
  obtain ⟨-, -, hinside, -, -, hat, -, closes⟩ :=
    dedents_of_line before.calls (.nil lexer) mode indented content reaches (top ▸ by decide)
  rw [hlevels] at hinside closes
  obtain ⟨left, pulls, waits, resolves⟩ := closes 2 (by decide) (by decide)
  rw [mark, hhere] at pulls
  cases resolves rfl with
  | proceeds inside => exact absurd inside (by decide)
  | @mismatch final outside failure waits' =>
      rw [hat (hhere ▸ by decide +kernel), hhere] at failure
      exact ⟨_, lexer, left, final, before.calls, mode, hlevels, pulls, waits.levels, failure,
        waits'⟩

end Offside.Lexer
