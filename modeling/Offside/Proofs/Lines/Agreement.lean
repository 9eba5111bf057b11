import Offside.Proofs.Lexer.Stream
import Offside.Proofs.Lines.Reading

/-!
# The lexer reads line by line

`tokenize_by_lines` says that the tokens of a text, or the error in it, are those of the reading of
its lines, except that an error is not told if its location cannot be written.

## Strategy

Reading and lexer are compared from a line start on, by induction on the unread text.  Within a line
the comparison is in three parts, each of which says what the lexer gives from some lexer on,
provided that a given reading `K` is what it gives from the end of that part on:

* the marks for the indentation (`follows_arrange`), where the lexer goes through its third mode;
* the lexemes (`follows_contents`), by induction on the rest of the line;
* the end of the line, where the lexer and the lines part company.  A carriage return right behind
  a line feed belongs to the line break for the lexer, and to the next line for the reading.  It has
  no width, so the next line means the same with it and without it (`readLines_return`).
-/

namespace Offside

namespace Lexer

open Lexeme Lines

variable {lexer : Lexer} {K : Reading Fault Unit}

/-- The account of the lexer is a reading, as it is reported. -/
def Follows (lexer : Lexer) (reading : Reading Fault Unit) : Prop := Reads lexer reading.reported

namespace Follows

variable {left : Lexer} {token : Token}

theorem of_idle (running : lexer.ending = none) (h : Transition lexer (.ok none left))
    (more : Follows left K) : Follows lexer K :=
  Reads.of_idle running h more

theorem of_token (running : lexer.ending = none) (h : Transition lexer (.ok (some token) left))
    (eof : token.isEof = false) (more : Follows left K) : Follows lexer (K.preceded [token]) :=
  Reads.of_token running h eof more

theorem of_eof (running : lexer.ending = none) (h : Transition lexer (.ok (some token) left))
    (eof : token.isEof = true) : Follows lexer (.emit [token]) :=
  Reads.of_eof running h eof

theorem of_fault {fault : Fault} (running : lexer.ending = none)
    (h : Transition lexer (.error fault.reported left)) : Follows lexer (.stop fault) :=
  Reads.of_error running h

end Follows

/-! ## The end of the text -/

/-- Behind the last character, the open blocks are closed and the stream ends. -/
theorem follows_closing (mode : lexer.mode ≠ .dedent) (running : lexer.ending = none)
    (ended : lexer.cursor.rest = []) :
    Follows lexer (.emit (closing lexer.name lexer.position lexer.levels)) := by
  obtain ⟨opened, hopened⟩ : ∃ opened, lexer.levels.opened = opened := ⟨_, rfl⟩
  induction opened generalizing lexer with
  | nil =>
      have last := Follows.of_eof running (.finish mode ended hopened) rfl
      rw [closing, hopened]
      exact last
  | cons level outer ih =>
      have more := @ih ((lexer.within outer).noting (.dedentAtEnd level)) mode running ended rfl
      have first := Follows.of_token running (.closeAtEnd mode ended hopened) rfl more
      rw [closing, hopened]
      exact first

/-! ## Marks for the indentation -/

/-- The lexer in front of the lexemes of a line, behind its run of blanks. -/
def inside (lexer : Lexer) (run : List Char) (levels : Levels) (journal : List Journal.Event) :
    Lexer :=
  { lexer.ahead run.length with mode := .inLine, levels, journal }

/-- Once no more blocks are to be closed, the line is in the innermost one or in none. -/
theorem follows_resolved {run tail : List Char} {level : Int} (mode : lexer.mode = .dedent)
    (running : lexer.ending = none) (indented : Indented lexer.cursor.rest run tail)
    (reaches : lexer.Reaches run level) (stays : ¬ level < lexer.levels.top)
    (more : lexer.levels.top = level →
      ∀ journal, Follows (lexer.inside run lexer.levels journal) K) :
    Follows lexer
      (if lexer.levels.top ≠ level then .stop (.lexical .badIndentation lexer.here) else K) := by
  by_cases hlevel : lexer.levels.top = level
  · rw [if_neg (not_not_intro hlevel)]
    exact .of_idle running (.resolved mode indented (hlevel ▸ reaches)) (more hlevel _)
  · rw [if_pos hlevel]
    exact .of_fault running (.mismatch mode indented reaches (by omega))

/-- Blocks are closed until the line is in the innermost one, or in none. -/
theorem follows_dedent {run tail : List Char} {level : Int} {opened : List Int}
    (mode : lexer.mode = .dedent) (running : lexer.ending = none)
    (indented : Indented lexer.cursor.rest run tail) (reaches : lexer.Reaches run level)
    (levels : lexer.levels = ⟨opened⟩)
    (more : Levels.top ⟨opened.dropWhile (level < ·)⟩ = level →
      ∀ journal, Follows (lexer.inside run ⟨opened.dropWhile (level < ·)⟩ journal) K) :
    Follows lexer
      ((if Levels.top ⟨opened.dropWhile (level < ·)⟩ ≠ level then
        .stop (.lexical .badIndentation lexer.here)
      else K).preceded ((opened.takeWhile (level < ·)).map fun _ => lexer.mark .dedent)) := by
  induction opened generalizing lexer with
  | nil =>
      have hone := one_le_of_reaches indented.blank reaches
      have stays : ¬ level < lexer.levels.top := by
        rw [levels]
        exact not_lt.mpr hone
      rw [List.dropWhile_nil, ← levels] at more ⊢
      exact follows_resolved mode running indented reaches stays more
  | cons top outer ih =>
      by_cases shallower : level < top
      · have hdrop : (top :: outer).dropWhile (level < ·) = outer.dropWhile (level < ·) :=
          List.dropWhile_cons_of_pos (by simpa using shallower)
        have htake : (top :: outer).takeWhile (level < ·) = top :: outer.takeWhile (level < ·) :=
          List.takeWhile_cons_of_pos (by simpa using shallower)
        have first := Transition.dedent mode indented reaches (by rw [levels]) shallower
        rw [hdrop] at more ⊢
        rw [htake, List.map_cons, ← List.singleton_append, Reading.preceded_append]
        exact .of_token running first rfl (ih mode running indented reaches rfl more)
      · have hdrop : (top :: outer).dropWhile (level < ·) = top :: outer :=
          List.dropWhile_cons_of_neg (by simpa using shallower)
        have htake : (top :: outer).takeWhile (level < ·) = [] :=
          List.takeWhile_cons_of_neg (by simpa using shallower)
        have stays : ¬ level < lexer.levels.top := by
          rw [levels]
          exact shallower
        rw [hdrop, ← levels] at more ⊢
        rw [htake]
        exact follows_resolved mode running indented reaches stays more

/-- A line with lexemes first opens a block, or closes some. -/
theorem follows_arrange {run tail : List Char} {level : Int} {marks : List Layout}
    {reached : Levels} (mode : lexer.mode = .lineStart) (running : lexer.ending = none)
    (indented : Indented lexer.cursor.rest run tail) (content : IsContent tail)
    (reaches : lexer.Reaches run level) (arranged : arrange lexer.levels level = (marks, reached))
    (more : reached.top = level → ∀ journal, Follows (lexer.inside run reached journal) K) :
    Follows lexer
      ((if reached.top ≠ level then .stop (.lexical .badIndentation lexer.here) else K).preceded
        (marks.map lexer.mark)) := by
  rcases lt_trichotomy lexer.levels.top level with deeper | rfl | shallower
  · have first := Transition.indent mode indented content reaches deeper
    obtain ⟨rfl, rfl⟩ := Prod.mk.inj ((arrange_of_deeper deeper).symm.trans arranged)
    rw [if_neg (not_not_intro (Levels.top_cons level _))]
    exact .of_token running first rfl (more rfl _)
  · have first := Transition.sameLevel mode indented content reaches
    obtain ⟨rfl, rfl⟩ := Prod.mk.inj ((arrange_top lexer.levels).symm.trans arranged)
    rw [if_neg (not_not_intro rfl)]
    exact .of_idle running first (more rfl _)
  · have first := Transition.pend mode indented content reaches shallower
    obtain ⟨rfl, rfl⟩ := Prod.mk.inj ((arrange_of_shallower shallower).symm.trans arranged)
    rw [List.map_map]
    exact .of_idle running first (follows_dedent rfl running indented reaches rfl more)

/-! ## Lexemes -/

/-- `left` stands where the lexemes of a line end, `front` behind `cursor`: in front of a comment or
of the line break, or at the end of the text. -/
structure IsStop (width : Int) (cursor left : Cursor) (front stop tail : List Char) : Prop where
  rest : left.rest = stop ++ tail
  ends : stop = [] ∨ stop.head? = some commentMark ∨ stop = ['\r'] ∧ tail ≠ []
  position : left.position = cursor.position.after width front
  /-- A carriage return that belongs to the line break is still to be read. -/
  unread : stop = [] → tail ≠ [] → front.getLast? ≠ some '\r'

theorem IsStop.of_passed {width : Int} {cursor middle left : Cursor}
    {passed front stop tail : List Char} (h : IsStop width middle left front stop tail)
    (hposition : middle.position = cursor.position.after width passed)
    (hpassed : front ++ stop = [] → tail ≠ [] → passed.getLast? ≠ some '\r') :
    IsStop width cursor left (passed ++ front) stop tail where
  rest := h.rest
  ends := h.ends
  position := by rw [h.position, hposition, Position.after_append]
  unread hstop htail := by
    cases hfront : front with
    | nil =>
        rw [List.append_nil]
        exact hpassed (by rw [hfront, hstop]; rfl) htail
    | cons c more =>
        have hunread := h.unread hstop htail
        rwa [List.getLast?_append_of_ne_nil _ (by simp), ← hfront]

/-- A line that has lexemes ends in a carriage return if the part behind them does. -/
theorem IsStop.isReturn_iff {width : Int} {cursor left : Cursor}
    {run front stop tail : List Char} (h : IsStop width cursor left front stop tail)
    (hbody : front ++ stop ≠ []) (htail : tail ≠ []) :
    (run ++ (front ++ stop)).getLast? = some '\r' ↔ stop.getLast? = some '\r' := by
  rw [List.getLast?_append_of_ne_nil _ hbody]
  cases hstop : stop with
  | nil =>
      rw [List.append_nil]
      simpa using h.unread hstop htail
  | cons c more => rw [List.getLast?_append_of_ne_nil _ (List.cons_ne_nil c more)]

/-- A lexeme that makes no token makes an error. -/
theorem exists_of_read_error {shape : Shape} {fault : Fault} (mode : lexer.mode = .inLine)
    (content : IsContent lexer.cursor.rest) (found : longest? lexer.cursor.rest = some shape)
    (failure : shape.read lexer.settings lexer.here = .error fault) :
    ∃ left, Transition lexer (.error fault.reported left) := by
  rw [Shape.read] at failure
  by_cases large : shape.IsTooLarge lexer.settings
  · rw [if_pos large] at failure
    obtain rfl := Except.error.inj failure
    exact ⟨_, .tooLarge mode content found large⟩
  · rw [if_neg large] at failure
    cases hvalue : shape.value lexer.settings with
    | ok value => simp [hvalue] at failure
    | error refusal =>
        rw [hvalue] at failure
        obtain rfl := Except.error.inj failure
        exact ⟨_, .refused mode content found large hvalue⟩

/-- The lexer behind blanks that it skips inside a line. -/
def behindBlanks (lexer : Lexer) (run : List Char) : Lexer :=
  { lexer with cursor := (lexer.cursor.ahead lexer.settings.tabWidth run.length).settled }

/-- The lexer behind a lexeme. -/
def behind (lexer : Lexer) (shape : Shape) : Lexer :=
  { lexer with cursor := shape.pass lexer.settings.tabWidth lexer.cursor }

theorem position_behindBlanks {run rest : List Char} (split : lexer.cursor.rest = run ++ rest) :
    (lexer.behindBlanks run).position = lexer.position.after lexer.settings.tabWidth run := by
  simp [behindBlanks, position, Cursor.position_ahead, split]

theorem position_behind {shape : Shape} {rest : List Char}
    (split : lexer.cursor.rest = shape.text ++ rest) :
    (lexer.behind shape).position = lexer.position.after lexer.settings.tabWidth shape.text := by
  simp [behind, position, split]

theorem follows_blanks {run rest tail : List Char} {K : Position → Reading Fault Unit}
    (mode : lexer.mode = .inLine) (running : lexer.ending = none)
    (split : lexer.cursor.rest = run ++ (rest ++ tail)) (nonempty : run ≠ [])
    (kept : Cursor.keptRun isInnerBlank (run ++ (rest ++ tail)) = run)
    (more : Follows (lexer.behindBlanks run)
      (contents lexer.settings lexer.name (lexer.behindBlanks run).position rest >>= K)) :
    Follows lexer (contents lexer.settings lexer.name lexer.position (run ++ rest) >>= K) := by
  have first := Transition.blanks mode (split ▸ kept) nonempty
  rw [contents_blanks _ (blank_of_keptRun kept).1, ← position_behindBlanks split]
  exact .of_idle running first more

theorem follows_lexeme {shape : Shape} {rest tail : List Char} {K : Position → Reading Fault Unit}
    (mode : lexer.mode = .inLine) (running : lexer.ending = none)
    (split : lexer.cursor.rest = shape.text ++ (rest ++ tail))
    (content : IsContent (shape.text ++ rest)) (htail : IsLineTail tail)
    (found : longest? (shape.text ++ rest) = some shape)
    (more : Follows (lexer.behind shape)
      (contents lexer.settings lexer.name (lexer.behind shape).position rest >>= K)) :
    Follows lexer
      (contents lexer.settings lexer.name lexer.position (shape.text ++ rest) >>= K) := by
  have hcontent : IsContent lexer.cursor.rest := by
    rw [split, ← List.append_assoc]
    exact content.append tail
  have hfound : longest? lexer.cursor.rest = some shape := by
    rw [split, ← List.append_assoc, longest?_append htail, found]
  rw [contents_lexeme _ content found, List.drop_left]
  cases read : shape.read lexer.settings (.ofPosition lexer.name lexer.position) with
  | error cause =>
      obtain ⟨left, failure⟩ := exists_of_read_error mode hcontent hfound read
      exact .of_fault running failure
  | ok token =>
      have first := Transition.lexeme mode hcontent hfound read
      rw [Reading.ofExcept_ok, Reading.pure_bind, Reading.emit_bind, Reading.preceded_bind,
        ← position_behind split]
      exact .of_token running first (Shape.isEof_of_read read) more

/-- Inside a line the lexer gives the lexemes up to the end of the line. -/
theorem follows_contents {body tail : List Char} {K : Position → Reading Fault Unit}
    (mode : lexer.mode = .inLine) (running : lexer.ending = none)
    (split : lexer.cursor.rest = body ++ tail) (hbody : '\n' ∉ body) (htail : IsLineTail tail)
    (more : ∀ left front stop, body = front ++ stop →
      IsStop lexer.settings.tabWidth lexer.cursor left front stop tail →
        Follows { lexer with cursor := left } (K left.position)) :
    Follows lexer (contents lexer.settings lexer.name lexer.position body >>= K) := by
  induction hlength : body.length using Nat.strong_induction_on generalizing lexer body with
  | h length ih =>
      rcases rest_cases hbody htail with ends | content | ⟨run, rest, rfl, nonempty, kept⟩
      · have hcontents : contents lexer.settings lexer.name lexer.position body =
            pure lexer.position := by
          rcases ends with rfl | hmark | ⟨rfl, -⟩
          · exact contents_nil _
          · obtain ⟨comment, rfl⟩ := List.head?_eq_some_iff.mp hmark
            exact contents_comment _ comment
          · rw [contents_blank _ (by decide), contents_nil, Position.moved_return]
        rw [hcontents, Reading.pure_bind]
        exact more lexer.cursor [] body rfl ⟨split, ends, rfl, by simp⟩
      · cases found : longest? body with
        | none =>
            obtain ⟨c, rest, rfl, -⟩ := id content
            rw [contents_unexpected _ content found]
            exact .of_fault running
              (.unexpected mode split (split ▸ content.append tail)
                (by rw [split, longest?_append htail, found]))
        | some shape =>
            have longest := isLongest_of_longest? found
            have hpositive := List.length_pos_iff.mpr (Shape.text_ne_nil longest.valid)
            obtain ⟨rest, rfl⟩ := longest.prefixed
            rw [List.append_assoc] at split
            rw [List.length_append] at hlength
            refine follows_lexeme mode running split content htail found ?_
            refine @ih rest.length (by omega) (lexer.behind shape) rest mode running
              (by simp [behind, split]) (fun h => hbody (List.mem_append_right _ h)) ?_ rfl
            intro left front stop hsplit hstop
            refine more left (shape.text ++ front) stop (by rw [hsplit, List.append_assoc])
              (hstop.of_passed (position_behind split) fun _ _ hlast => ?_)
            exact absurd (Shape.not_stop_of_mem longest.valid (List.mem_of_getLast? hlast))
              (by decide)
      · have hpositive := List.length_pos_iff.mpr nonempty
        rw [List.append_assoc] at split kept
        rw [List.length_append] at hlength
        refine follows_blanks mode running split nonempty kept ?_
        refine @ih rest.length (by omega) (lexer.behindBlanks run) rest mode running
          (by simp [behindBlanks, split, Cursor.rest_ahead])
          (fun h => hbody (List.mem_append_right _ h)) ?_ rfl
        intro left front stop hsplit hstop
        refine more left (run ++ front) stop (by rw [hsplit, List.append_assoc])
          (hstop.of_passed (position_behindBlanks split) fun hrest hne => ?_)
        obtain ⟨following, rfl⟩ := htail.resolve_left hne
        exact (blank_of_keptRun kept).2 (by rw [hsplit, hrest]; rfl)

/-! ## Ends of lines -/

/-- At the end of the last line the lexer closes the open blocks. -/
theorem follows_lastStop {stop : List Char} (mode : lexer.mode = .inLine)
    (running : lexer.ending = none) (split : lexer.cursor.rest = stop)
    (ends : stop = [] ∨ stop.head? = some commentMark) (hstop : '\n' ∉ stop) :
    Follows lexer (.emit (closing lexer.name (lexer.position.after lexer.settings.tabWidth stop)
      lexer.levels)) := by
  rcases ends with rfl | hmark
  · exact follows_closing (by simp [mode]) running split
  · obtain ⟨comment, rfl⟩ := List.head?_eq_some_iff.mp hmark
    have first := Transition.openComment mode split fun h => hstop (List.mem_cons_of_mem _ h)
    have hposition : (lexer.ahead lexer.cursor.rest.length).position =
        lexer.position.after lexer.settings.tabWidth (commentMark :: comment) := by
      simp [ahead, position, Cursor.position_ahead, split]
    rw [← hposition]
    exact .of_idle running first
      (@follows_closing (lexer.ahead lexer.cursor.rest.length) (by simp [mode]) running (by simp))

/-- At the end of any other line the lexer gives the mark for it. -/
theorem follows_stop {stop more : List Char} (mode : lexer.mode = .inLine)
    (running : lexer.ending = none) (split : lexer.cursor.rest = stop ++ '\n' :: more)
    (ends : stop = [] ∨ stop.head? = some commentMark ∨ stop = ['\r']) (hstop : '\n' ∉ stop)
    (next : Follows
      ((lexer.ahead (stop ++ '\n' :: leadingReturn more).length).entering .lineStart) K) :
    Follows lexer (K.preceded [newline lexer.name lexer.position stop more]) := by
  obtain ⟨comment, before, isEnd⟩ := @exists_isEnd stop more hstop ends
  obtain ⟨hsplit, hbefore⟩ := isEnd.eq_of_split
  have first := Transition.newline mode (split ▸ isEnd)
  have hlength : comment.length + (before ++ '\n' :: leadingReturn more).length =
      (stop ++ '\n' :: leadingReturn more).length := by
    simp [hsplit]
  rw [hlength, hbefore] at first
  exact .of_token running first rfl next

/-! ## Lines -/

variable {number : Int}

/-- A line break leads to the start of the next line. -/
theorem position_lineBreak (width : Int) {stop : List Char} (hstop : '\n' ∉ stop)
    (more : List Char) (position : Position) :
    position.after width (stop ++ '\n' :: leadingReturn more) = ⟨position.line + 1, 1⟩ := by
  have hline := Position.line_after width stop position
  rw [List.count_eq_zero.mpr hstop, Int.natCast_zero, Int.add_zero] at hline
  rw [Position.after_append, Position.after_cons, Position.moved_feed, hline]
  unfold leadingReturn
  split <;> rfl

/-- A last line without lexemes is passed over. -/
theorem follows_lastBlankLine (mode : lexer.mode = .lineStart) (running : lexer.ending = none)
    (blank : IsBlank lexer.cursor.rest) :
    Follows lexer (.emit (closing lexer.name
      (lexer.position.after lexer.settings.tabWidth lexer.cursor.rest) lexer.levels)) := by
  by_cases ended : lexer.cursor.rest = []
  · rw [ended]
    exact follows_closing (by simp [mode]) running ended
  · have first := Transition.lastBlankLine mode ended blank
    rw [← position_ahead_of_split (List.append_nil lexer.cursor.rest).symm]
    exact .of_idle running first
      (@follows_closing (lexer.ahead lexer.cursor.rest.length) (by simp [mode]) running (by simp))

/-- The last line. -/
theorem follows_lastLine (mode : lexer.mode = .lineStart) (running : lexer.ending = none)
    (hposition : lexer.position = ⟨number, 1⟩) (hlast : '\n' ∉ lexer.cursor.rest) :
    Follows lexer
      (readLines lexer.settings lexer.name number lexer.levels [lexer.cursor.rest]) := by
  rw [readLines, ← hposition]
  rcases line_cases hlast with blank | ⟨run, body, indented, content, hbody⟩
  · rw [readLine_of_isBlank blank, Reading.pure_bind]
    exact follows_lastBlankLine mode running blank
  · obtain ⟨level, marks, reached, reaches, arranged⟩ :=
      exists_arrange lexer.settings lexer.levels run
    have hinside := position_ahead_of_split indented.split
    rw [readLine_bind indented content reaches arranged, ← hposition, ← hinside]
    refine follows_arrange mode running indented content reaches arranged fun _ journal => ?_
    refine @follows_contents (lexer.inside run reached journal) body [] _ rfl running
      (by rw [List.append_nil]; exact rest_ahead_of_split indented.split) hbody (Or.inl rfl) ?_
    intro left front stop hsplit hstop
    have hclosing : lexer.position.after lexer.settings.tabWidth lexer.cursor.rest =
        left.position.after lexer.settings.tabWidth stop := by
      rw [hstop.position, indented.split, hsplit, Position.after_append, Position.after_append,
        ← hinside]
      rfl
    have ends := hstop.ends.imp_right fun h => h.resolve_right fun hreturn => hreturn.2 rfl
    rw [hclosing]
    exact @follows_lastStop { lexer.inside run reached journal with cursor := left } stop rfl
      running (by rw [← List.append_nil stop]; exact hstop.rest) ends
      fun h => hbody (by simp [hsplit, h])

/-- `left` is the lexer at the start of a later line, in front of `rest`. -/
structure IsAtLine (lexer left : Lexer) (number : Int) (rest : List Char) : Prop where
  settings : left.settings = lexer.settings
  name : left.name = lexer.name
  mode : left.mode = .lineStart
  running : left.ending = none
  position : left.position = ⟨number, 1⟩
  rest : left.cursor.rest = rest

/-- The lexer behind a line break. -/
theorem isAtLine_ahead {left : Lexer} {stop more : List Char}
    (settings : left.settings = lexer.settings) (name : left.name = lexer.name)
    (running : left.ending = none)
    (hline : left.position.line = number) (split : left.cursor.rest = stop ++ '\n' :: more)
    (hstop : '\n' ∉ stop) :
    IsAtLine lexer
      ((left.ahead (stop ++ '\n' :: leadingReturn more).length).entering .lineStart)
      (number + 1) (more.drop (leadingReturn more).length) := by
  have hsplit := split.trans (append_feed_eq stop more)
  refine ⟨settings, name, rfl, running, ?_, rest_ahead_of_split hsplit⟩
  have hposition := position_ahead_of_split hsplit
  rw [position_lineBreak _ hstop, hline] at hposition
  exact hposition

/-! Below, `K` is what the lexer gives from the next line on, for the blocks that are open there. -/

/-- A line without lexemes is passed over with its line feed. -/
theorem follows_blankLine {line more : List Char} {K : Levels → Reading Fault Unit}
    (mode : lexer.mode = .lineStart) (running : lexer.ending = none)
    (hposition : lexer.position = ⟨number, 1⟩)
    (split : lexer.cursor.rest = line ++ '\n' :: more) (hline : '\n' ∉ line) (blank : IsBlank line)
    (next : ∀ left, IsAtLine lexer left (number + 1) (more.drop (leadingReturn more).length) →
      Follows left (K left.levels)) :
    Follows lexer (K lexer.levels) := by
  have hnumber : lexer.position.line = number := congrArg Position.line hposition
  have first := Transition.blankLine mode split blank
  have hleft := @isAtLine_ahead lexer number lexer line more rfl rfl running hnumber split hline
  have hentering : (lexer.ahead (line.length + 1 + (leadingReturn more).length)).entering
      .lineStart = lexer.ahead (line.length + 1 + (leadingReturn more).length) := by
    rw [entering, ← mode]
    rfl
  rw [length_lineBreak, hentering] at hleft
  exact .of_idle running first (next _ hleft)

/-- A line with lexemes gives its marks, its lexemes and the mark for its line feed. -/
theorem follows_contentLine {line run body more following : List Char}
    {K : Levels → Reading Fault Unit} (mode : lexer.mode = .lineStart)
    (running : lexer.ending = none) (hposition : lexer.position = ⟨number, 1⟩)
    (split : lexer.cursor.rest = line ++ '\n' :: more)
    (indented : Indented line run body) (content : IsContent body) (hbody : '\n' ∉ body)
    (hfollowing : leadingReturn following = leadingReturn more)
    (next : ∀ left, IsAtLine lexer left (number + 1) (more.drop (leadingReturn more).length) →
      Follows left (K left.levels)) :
    Follows lexer (readLine lexer.settings lexer.name number lexer.levels line (some following) >>=
      K) := by
  obtain ⟨level, marks, reached, reaches, arranged⟩ :=
    exists_arrange lexer.settings lexer.levels run
  have hindented : Indented lexer.cursor.rest run (body ++ '\n' :: more) := by
    rw [split, indented.split, List.append_assoc]
    exact indented_of_isContent indented.blank (content.append _)
  have hinside := position_ahead_of_split hindented.split
  rw [readLine_bind indented content reaches arranged, ← hposition, ← hinside]
  refine follows_arrange mode running hindented (content.append _) reaches arranged
    fun _ journal => ?_
  refine @follows_contents (lexer.inside run reached journal) body ('\n' :: more) _ rfl running
    (rest_ahead_of_split hindented.split) hbody (Or.inr ⟨more, rfl⟩) ?_
  intro left front stop hsplit hstop
  obtain ⟨hfront, hfeed⟩ := not_or.mp (mt List.mem_append.mpr (hsplit ▸ hbody))
  have hleft : left.position.line = number := by
    calc left.position.line
        = (lexer.ahead run.length).position.line := by
          rw [hstop.position]
          exact Position.line_after_of_not_mem hfront _
      _ = lexer.position.line := by
          rw [hinside, Position.line_after_of_not_mem (not_mem_of_blank indented.blank)]
      _ = number := congrArg Position.line hposition
  have hreturn : line.getLast? = some '\r' ↔ stop.getLast? = some '\r' := by
    have hne : front ++ stop ≠ [] := by
      obtain ⟨c, rest, hc, -⟩ := content
      simp [← hsplit, hc]
    rw [indented.split, hsplit]
    exact hstop.isReturn_iff hne (List.cons_ne_nil _ _)
  show Follows _ (Reading.preceded [newline lexer.name left.position line following] _)
  rw [newline_congr hreturn hfollowing]
  exact @follows_stop { lexer.inside run reached journal with cursor := left } _ stop more rfl
    running hstop.rest (hstop.ends.imp_right (Or.imp_right And.left)) hfeed
    (next _ (isAtLine_ahead rfl rfl running hleft hstop.rest hfeed))

/-- A line and its line feed, if the lexer agrees with the reading from the next line on. -/
theorem follows_line {line more following : List Char} {others : List (List Char)}
    (mode : lexer.mode = .lineStart) (running : lexer.ending = none)
    (hposition : lexer.position = ⟨number, 1⟩)
    (split : lexer.cursor.rest = line ++ '\n' :: more) (hline : '\n' ∉ line)
    (hfollowing : leadingReturn following = leadingReturn more)
    (next : ∀ left, IsAtLine lexer left (number + 1) (more.drop (leadingReturn more).length) →
      Follows left
        (readLines lexer.settings lexer.name (number + 1) left.levels (following :: others))) :
    Follows lexer (readLines lexer.settings lexer.name number lexer.levels
      (line :: following :: others)) := by
  rw [readLines]
  rcases line_cases hline with blank | ⟨run, body, indented, content, hbody⟩
  · rw [readLine_of_isBlank blank, Reading.pure_bind]
    exact follows_blankLine
      (K := fun levels =>
        readLines lexer.settings lexer.name (number + 1) levels (following :: others))
      mode running hposition split hline blank next
  · exact follows_contentLine mode running hposition split indented content hbody hfollowing next

/-- From the start of a line on, the lexer reads line by line. -/
theorem follows_readLines (mode : lexer.mode = .lineStart) (running : lexer.ending = none)
    (hposition : lexer.position = ⟨number, 1⟩) :
    Follows lexer (readLines lexer.settings lexer.name number lexer.levels
      (lexer.cursor.rest.splitOn '\n')) := by
  induction hlength : lexer.cursor.rest.length using Nat.strong_induction_on
    generalizing lexer number with
  | h length ih =>
      rcases exists_lineFeed lexer.cursor.rest with hlast | ⟨line, more, split, hline⟩
      · rw [List.splitOn_eq_singleton hlast]
        exact follows_lastLine mode running hposition hlast
      · obtain ⟨following, others, hmore, hfollowing, hreturn⟩ := exists_splitOn more
        have hlines : lexer.cursor.rest.splitOn '\n' = line :: following :: others := by
          rw [split, List.splitOn_append_cons_self_of_not_mem hline, hmore]
        have hshorter : (more.drop (leadingReturn more).length).length < length := by
          rw [← hlength, split]
          simp
          omega
        rw [hlines]
        refine follows_line mode running hposition split hline hfollowing fun left hleft => ?_
        have next := ih _ hshorter hleft.mode hleft.running hleft.position (congrArg _ hleft.rest)
        rwa [hleft.settings, hleft.name, hleft.rest, hreturn] at next

/-- The account of a text is the reading of its lines, as it is reported. -/
theorem reads_start (settings : Settings) (source : Source) :
    Reads (start settings source) (Lines.read settings source).reported :=
  @follows_readLines (start settings source) 1 rfl rfl rfl

theorem tokenize_eq_reported (settings : Settings) (source : Source) :
    tokenize settings source = (Lines.read settings source).reported.whole :=
  tokenize_eq_whole (reads_start settings source)

/-- If a text has tokens, they are the reading of its lines. -/
theorem read_of_tokenize {settings : Settings} {source : Source} {tokens : List Token}
    (h : tokenize settings source = .ok tokens) :
    Lines.read settings source = ⟨tokens, .ok ()⟩ :=
  Reading.eq_of_reported (Reading.eq_of_whole ((tokenize_eq_reported settings source).symm.trans h))

/-- The account of a text that has tokens. -/
theorem reads_of_tokenize {settings : Settings} {source : Source} {tokens : List Token}
    (h : tokenize settings source = .ok tokens) :
    Reads (start settings source) ⟨tokens, .ok ()⟩ :=
  Reading.eq_of_whole ((tokenize_eq_reported settings source).symm.trans h) ▸
    reads_start settings source

/-- The account of a text that has an error. -/
theorem exists_reads_of_tokenize_error {settings : Settings} {source : Source} {cause : Error}
    (h : tokenize settings source = .error cause) :
    ∃ tokens, Reads (start settings source) ⟨tokens, .error cause⟩ := by
  obtain ⟨tokens, hreported⟩ :=
    Reading.exists_eq_of_whole_error ((tokenize_eq_reported settings source).symm.trans h)
  exact ⟨tokens, hreported ▸ reads_start settings source⟩

/-- The tokens of a text are those of its lines, and the error in it is that of its lines, unless
the location of the error cannot be written. -/
theorem tokenize_by_lines (settings : Settings) (source : Source) :
    tokenize settings source =
      match (Lines.read settings source).whole with
      | .ok tokens => .ok tokens
      | .error (.lexical cause location) =>
        if location.isWritable then .error (.lexical ⟨cause, some location⟩)
        else .error (.decimal .tooLong)
      | .error (.decoding cause) => .error (.decoding cause) := by
  rw [tokenize_eq_reported, Reading.whole_reported]
  cases (Lines.read settings source).whole with
  | ok tokens => rfl
  | error fault =>
      cases fault with
      | decoding cause => rfl
      | lexical cause location =>
          show Except.error (Error.at cause location) = _
          by_cases writable : location.isWritable
          · rw [Error.at_of_isWritable writable]
            exact (if_pos writable).symm
          · rw [Error.at_of_not_isWritable writable]
            exact (if_neg writable).symm

/-! ## A tab and a character -/

/-- A tab, and a character behind it. -/
def behindTab (name : String) (c : Char) : Source := ⟨String.ofList ['\t', c], name⟩

/-- If no lexeme begins with the character, the error is at the column that the tab leads to. -/
theorem read_behindTab (settings : Settings) (name : String) {c : Char} (content : IsContent [c])
    (found : longest? [c] = none) :
    Lines.read settings (behindTab name c) = ⟨[Lines.mark name ⟨1, 1⟩ .indent],
      .error (.lexical (.unexpected c) ⟨1, settings.tabWidth + 1, name⟩)⟩ := by
  have hfeed : '\n' ∉ ['\t', c] := by
    obtain ⟨d, more, heq, -, hne, -⟩ := content
    obtain ⟨rfl, -⟩ := List.cons.inj heq
    simp [hne.symm]
  have indented : Indented ['\t', c] ['\t'] [c] :=
    @indented_of_isContent ['\t'] [c] (by simp [CharClass.has]) content
  have reaches : Indentation.column settings.tabWidth ['\t'] = .ok (settings.tabWidth + 1) := by
    simp [Indentation.column, Indentation.widened, settings.tabWidth_ne_zero]
  have deeper : Levels.initial.top < settings.tabWidth + 1 := by
    have positive := settings.tabWidth_pos
    change (1 : Int) < settings.tabWidth + 1
    omega
  have column : (⟨1, 1⟩ : Position).after settings.tabWidth ['\t'] =
      ⟨1, settings.tabWidth + 1⟩ := by
    simp [Position.moved, Motion.ofChar]
    omega
  rw [Lines.read, behindTab, String.toList_ofList, List.splitOn_eq_singleton hfeed, readLines,
    readLine_bind indented content reaches (arrange_of_deeper deeper),
    if_neg (not_not_intro (Levels.top_cons _ _)), column, contents_unexpected _ content found]
  rfl

/-- The tab may be so wide that this column cannot be written, and the error is not told. -/
theorem tokenize_behindTab {settings : Settings} (name : String) {c : Char}
    (content : IsContent [c]) (found : longest? [c] = none)
    (wide : ¬ Decimal.fits (settings.tabWidth + 1)) :
    tokenize settings (behindTab name c) = .error (.decimal .tooLong) := by
  have unwritable : ¬ (⟨1, settings.tabWidth + 1, name⟩ : Location).isWritable := by
    simp [Location.isWritable, Location.position, Position.isWritable, wide]
  rw [tokenize_eq_reported, Reading.whole_reported, read_behindTab settings name content found]
  exact congrArg Except.error (Error.at_of_not_isWritable unwritable _)

end Lexer

/-- The greatest number that can be written. -/
def Decimal.greatest : Int := Nat.pow 10 digitLimit - 1

theorem Decimal.one_le_greatest : 1 ≤ Decimal.greatest := by decide +kernel

/-- Settings with the greatest tab width that can be written. -/
def Settings.wide : Settings :=
  { Settings.standard with
    tabWidth := Decimal.greatest
    tabWidth_pos := Decimal.one_le_greatest }

theorem Settings.not_fits_wide : ¬ Decimal.fits (Settings.wide.tabWidth + 1) := by decide +kernel

/-- Behind such a tab the lines tell of an unexpected character, and the lexer does not. -/
theorem Lexer.tokenize_by_lines_wide :
    (Lines.read .wide (Lexer.behindTab Location.unnamed '?')).whole =
        .error (.lexical (.unexpected '?')
          ⟨1, Settings.wide.tabWidth + 1, Location.unnamed⟩) ∧
      Lexer.tokenize .wide (Lexer.behindTab Location.unnamed '?') =
        .error (.decimal .tooLong) := by
  have content : Lines.IsContent ['?'] := ⟨'?', [], rfl, by decide, by decide, by decide⟩
  constructor
  · rw [Lexer.read_behindTab .wide Location.unnamed content (by decide)]
    rfl
  · exact Lexer.tokenize_behindTab Location.unnamed content (by decide) Settings.not_fits_wide

end Offside
