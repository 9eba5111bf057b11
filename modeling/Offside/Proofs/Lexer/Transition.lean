import Offside.Lexer.Step
import Offside.Proofs.Indentation.Column
import Offside.Proofs.Lexer.Matcher
import Offside.Proofs.Lines.Text

/-!
# The transitions of the lexer

`Transition lexer result` lists what one step of a lexer can do, one constructor for each way
through the three modes: under which conditions on the unread text and the open blocks it applies,
what it gives, and which lexer it leaves.  `step_eq_of_transition` says that a step does what its
transition says, and `transition_step` that every step is a transition.  Nothing after this file
opens the definition of a step.
-/

namespace Offside.Lexer

open Offside.Action Lexeme Lines

/-- A token of the layout at the next character. -/
def mark (lexer : Lexer) (layout : Layout) : Token := ⟨.layout layout, none, "", lexer.here⟩

/-- The lexer in another mode. -/
def entering (lexer : Lexer) (mode : Mode) : Lexer := { lexer with mode }

/-- The lexer with other blocks open. -/
def within (lexer : Lexer) (opened : List Int) : Lexer := { lexer with levels := ⟨opened⟩ }

/-- The column that a run of blanks reaches at the tab width of a lexer. -/
def Reaches (lexer : Lexer) (run : List Char) (level : Int) : Prop :=
  Indentation.column lexer.settings.tabWidth run = .ok level

/-- What one step of a lexer does. -/
inductive Transition (lexer : Lexer) : EStateM.Result Error Lexer (Option Token) → Prop
  /-- At the end of the text a block is closed. -/
  | closeAtEnd {level : Int} {outer : List Int} (mode : lexer.mode ≠ .dedent)
      (ended : lexer.cursor.rest = []) (opened : lexer.levels.opened = level :: outer) :
      Transition lexer
        (.ok (some (lexer.mark .dedent)) ((lexer.within outer).noting (.dedentAtEnd level)))
  /-- At the end of the text, with no block open, the stream ends. -/
  | finish (mode : lexer.mode ≠ .dedent) (ended : lexer.cursor.rest = [])
      (opened : lexer.levels.opened = []) :
      Transition lexer (.ok (some (lexer.mark .eof))
        ({ lexer with ending := some (lexer.mark .eof) }.noting (.eof lexer.here)))
  /-- A line without lexemes is skipped, with a carriage return behind its line feed. -/
  | blankLine {line more : List Char} (mode : lexer.mode = .lineStart)
      (split : lexer.cursor.rest = line ++ '\n' :: more) (blank : IsBlank line) :
      Transition lexer (.ok none (lexer.ahead (line.length + 1 + (leadingReturn more).length)))
  /-- The last line is skipped if it has no lexemes. -/
  | lastBlankLine (mode : lexer.mode = .lineStart) (nonempty : lexer.cursor.rest ≠ [])
      (blank : IsBlank lexer.cursor.rest) :
      Transition lexer (.ok none (lexer.ahead lexer.cursor.rest.length))
  /-- A line goes on in the innermost block. -/
  | sameLevel {run tail : List Char} (mode : lexer.mode = .lineStart)
      (indented : Indented lexer.cursor.rest run tail) (content : IsContent tail)
      (level : lexer.Reaches run lexer.levels.top) :
      Transition lexer (.ok none ((lexer.ahead run.length).entering .inLine))
  /-- A line opens a block. -/
  | indent {run tail : List Char} {level : Int} (mode : lexer.mode = .lineStart)
      (indented : Indented lexer.cursor.rest run tail) (content : IsContent tail)
      (reaches : lexer.Reaches run level) (deeper : lexer.levels.top < level) :
      Transition lexer (.ok (some (lexer.mark .indent))
        ((((lexer.ahead run.length).within (level :: lexer.levels.opened)).entering .inLine).noting
          (.indent level lexer.position.line)))
  /-- A line that closes blocks is left unread. -/
  | pend {run tail : List Char} {level : Int} (mode : lexer.mode = .lineStart)
      (indented : Indented lexer.cursor.rest run tail) (content : IsContent tail)
      (reaches : lexer.Reaches run level) (shallower : level < lexer.levels.top) :
      Transition lexer (.ok none (lexer.entering .dedent))
  /-- A block that the line is not in is closed. -/
  | dedent {run tail : List Char} {level top : Int} {outer : List Int}
      (mode : lexer.mode = .dedent) (indented : Indented lexer.cursor.rest run tail)
      (reaches : lexer.Reaches run level) (opened : lexer.levels.opened = top :: outer)
      (shallower : level < top) :
      Transition lexer (.ok (some (lexer.mark .dedent))
        ((lexer.within outer).noting (.dedent top lexer.position.line)))
  /-- The line goes on in the block that is now the innermost one. -/
  | resolved {run tail : List Char} (mode : lexer.mode = .dedent)
      (indented : Indented lexer.cursor.rest run tail)
      (level : lexer.Reaches run lexer.levels.top) :
      Transition lexer (.ok none ((lexer.ahead run.length).entering .inLine))
  /-- The line is deeper than the block that is now the innermost one. -/
  | mismatch {run tail : List Char} {level : Int} (mode : lexer.mode = .dedent)
      (indented : Indented lexer.cursor.rest run tail) (reaches : lexer.Reaches run level)
      (deeper : lexer.levels.top < level) :
      Transition lexer (.error (.at .badIndentation lexer.here) (lexer.failing .badIndentation))
  /-- Blanks inside a line are skipped. -/
  | blanks {run : List Char} (mode : lexer.mode = .inLine)
      (kept : Cursor.keptRun isInnerBlank lexer.cursor.rest = run) (nonempty : run ≠ []) :
      Transition lexer (.ok none
        { lexer with
          cursor := (lexer.cursor.ahead lexer.settings.tabWidth run.length).settled })
  /-- A comment that runs to the end of the text is skipped. -/
  | openComment {body : List Char} (mode : lexer.mode = .inLine)
      (split : lexer.cursor.rest = commentMark :: body) (closed : '\n' ∉ body) :
      Transition lexer (.ok none (lexer.ahead lexer.cursor.rest.length))
  /-- The line ends. -/
  | newline {comment before more : List Char} (mode : lexer.mode = .inLine)
      (ends : IsEnd lexer.cursor.rest comment before more) :
      Transition lexer (.ok
        (some { lexer.mark .newline with
          text := String.ofList (before ++ '\n' :: leadingReturn more) })
        ((lexer.ahead (comment.length + (before ++ '\n' :: leadingReturn more).length)).entering
          .lineStart))
  /-- A lexeme makes a token. -/
  | lexeme {shape : Shape} {token : Token} (mode : lexer.mode = .inLine)
      (content : IsContent lexer.cursor.rest) (found : longest? lexer.cursor.rest = some shape)
      (read : shape.read lexer.settings lexer.here = .ok token) :
      Transition lexer (.ok (some token)
        { lexer with cursor := shape.pass lexer.settings.tabWidth lexer.cursor })
  /-- The decoder refuses the body of a string literal, which has been read. -/
  | refused {shape : Shape} {cause : DecodeError} (mode : lexer.mode = .inLine)
      (content : IsContent lexer.cursor.rest) (found : longest? lexer.cursor.rest = some shape)
      (fits : ¬ shape.IsTooLarge lexer.settings)
      (refusal : shape.value lexer.settings = .error cause) :
      Transition lexer (.error (.decoding cause)
        { lexer with cursor := shape.pass lexer.settings.tabWidth lexer.cursor })
  /-- An integer literal is too large. -/
  | tooLarge {shape : Shape} (mode : lexer.mode = .inLine)
      (content : IsContent lexer.cursor.rest) (found : longest? lexer.cursor.rest = some shape)
      (large : shape.IsTooLarge lexer.settings) :
      Transition lexer (.error (.at (.outOfRange (String.ofList shape.text)) lexer.here)
        (lexer.failing (.outOfRange (String.ofList shape.text))))
  /-- No lexeme begins with the next character. -/
  | unexpected {c : Char} {more : List Char} (mode : lexer.mode = .inLine)
      (split : lexer.cursor.rest = c :: more) (content : IsContent lexer.cursor.rest)
      (found : longest? lexer.cursor.rest = none) :
      Transition lexer (.error (.at (.unexpected c) lexer.here) (lexer.failing (.unexpected c)))

/-! ## What the parts of a step do -/

theorem step_of_lineStart {lexer : Lexer} (mode : lexer.mode = .lineStart) :
    step lexer = stepLineStart lexer := by
  rw [step, bind_get, mode]

theorem step_of_dedent {lexer : Lexer} (mode : lexer.mode = .dedent) :
    step lexer = stepDedent lexer := by
  rw [step, bind_get, mode]

theorem step_of_inLine {lexer : Lexer} (mode : lexer.mode = .inLine) :
    step lexer = stepInLine lexer := by
  rw [step, bind_get, mode]

@[simp] theorem rest_ahead (lexer : Lexer) (count : ℕ) :
    (lexer.ahead count).cursor.rest = lexer.cursor.rest.drop count :=
  Cursor.rest_ahead _ _ _

@[simp] theorem ahead_zero (lexer : Lexer) : lexer.ahead 0 = lexer := rfl

theorem ahead_add (lexer : Lexer) (count more : ℕ) :
    lexer.ahead (count + more) = (lexer.ahead count).ahead more := by
  simp [ahead, Cursor.ahead_add]

theorem rest_ahead_of_split {lexer : Lexer} {text rest : List Char}
    (split : lexer.cursor.rest = text ++ rest) : (lexer.ahead text.length).cursor.rest = rest := by
  rw [rest_ahead, split, List.drop_left]

theorem position_ahead_of_split {lexer : Lexer} {text rest : List Char}
    (split : lexer.cursor.rest = text ++ rest) :
    (lexer.ahead text.length).position =
      lexer.position.after lexer.settings.tabWidth text := by
  simp [ahead, position, Cursor.position_ahead, split]

theorem absorbReturn_eq (lexer : Lexer) :
    absorbReturn lexer = .ok (leadingReturn lexer.cursor.rest)
      (lexer.ahead (leadingReturn lexer.cursor.rest).length) := by
  rw [absorbReturn, bind_get]
  by_cases hpeek : lexer.cursor.peek 0 = some '\r'
  · rw [Cursor.peek, ← List.head?_eq_getElem?] at hpeek
    obtain ⟨more, hmore⟩ := List.head?_eq_some_iff.mp hpeek
    rw [if_pos (by simp [Cursor.peek, hmore]), reading_advanceBy (by simp [hmore]), hmore]
    rfl
  · have hnone : leadingReturn lexer.cursor.rest = [] :=
      leadingReturn_eq_nil (List.head?_eq_getElem? ▸ hpeek)
    rw [if_neg hpeek, hnone]
    rfl

theorem skipLine_of_feed {lexer : Lexer} {line more : List Char}
    (split : lexer.cursor.rest = line ++ '\n' :: more) (hline : '\n' ∉ line) :
    skipLine lexer = .ok () (lexer.ahead (line.length + 1 + (leadingReturn more).length)) := by
  have hrest : (lexer.ahead (line.length + 1)).cursor.rest = more := by
    simp [split, List.drop_append]
  have inside : line.length + 1 ≤ lexer.cursor.rest.length := by simp [split]
  rw [skipLine, bind_get]
  simp only [split, lineFeed?_append hline]
  rw [bind_ok (reading_advanceBy inside), bind_ok (absorbReturn_eq _), hrest, ← ahead_add]
  rfl

theorem skipLine_of_last {lexer : Lexer} (h : '\n' ∉ lexer.cursor.rest) :
    skipLine lexer = .ok () (lexer.ahead lexer.cursor.rest.length) := by
  rw [skipLine, bind_get]
  simp only [lineFeed?_eq_none h]
  rw [bind_ok (reading_advanceBy le_rfl)]
  rfl

theorem atEndOfText_of_opened {lexer : Lexer} {level : Int} {outer : List Int}
    (opened : lexer.levels.opened = level :: outer) :
    atEndOfText lexer =
      .ok (lexer.mark .dedent) ((lexer.within outer).noting (.dedentAtEnd level)) := by
  have hclose : closeBlock lexer = .ok level (lexer.within outer) := by
    simp [closeBlock, Levels.pop, opened, within]
  have hdepth : lexer.levels.depth ≠ 0 := by simp [Levels.depth, opened]
  rw [atEndOfText, bind_get, if_pos hdepth, bind_ok hclose]
  rfl

theorem atEndOfText_of_none {lexer : Lexer} (opened : lexer.levels.opened = []) :
    atEndOfText lexer = .ok (lexer.mark .eof)
      ({ lexer with ending := some (lexer.mark .eof) }.noting (.eof lexer.here)) := by
  have hdepth : ¬ lexer.levels.depth ≠ 0 := by simp [Levels.depth, opened]
  rw [atEndOfText, bind_get, if_neg hdepth]
  rfl

theorem measure_eq {lexer : Lexer} {run : List Char} {level : Int}
    (reaches : lexer.Reaches run level) : measure run lexer = .ok level lexer := by
  rw [Reaches] at reaches
  simp [measure, reaches]

/-! ## Steps at the start of a line -/

theorem stepLineStart_of_ended {lexer : Lexer} (ended : lexer.cursor.rest = []) :
    stepLineStart lexer = (do return some (← atEndOfText)) lexer := by
  have hend : lexer.cursor.atEnd = true := by simp [Cursor.atEnd, ended]
  rw [stepLineStart, bind_get, if_pos hend]

theorem atEnd_eq_false {lexer : Lexer} (h : lexer.cursor.rest ≠ []) :
    lexer.cursor.atEnd = false := by
  simpa [Cursor.atEnd] using h

/-- What follows the blanks of a line without lexemes. -/
theorem following_of_isBlank {text line : List Char} (blank : IsBlank line)
    (htext : text = line ∨ ∃ more, text = line ++ '\n' :: more) :
    ∃ run tail, Indented text run tail ∧
      (tail.head? = none ∨ tail.head? = some '\n' ∨ tail.head? = some commentMark) := by
  obtain ⟨run, comment, rfl, hrun, hcomment⟩ := blank
  have hstop : ∀ more, text = run ++ (comment ++ more) →
      (more = [] ∨ ∃ rest, more = '\n' :: rest) → ∃ run tail, Indented text run tail ∧
        (tail.head? = none ∨ tail.head? = some '\n' ∨ tail.head? = some commentMark) := by
    intro more hsplit hmore
    refine ⟨run, comment ++ more, ⟨hsplit, hrun, ?_⟩, ?_⟩
    · intro c rest hhead
      rcases hcomment with rfl | ⟨body, rfl, -⟩
      · rcases hmore with rfl | ⟨rest', rfl⟩
        · simp at hhead
        · rw [← (List.cons.inj hhead).1]
          decide
      · rw [← (List.cons.inj hhead).1]
        decide
    · rcases hcomment with rfl | ⟨body, rfl, -⟩
      · rcases hmore with rfl | ⟨rest', rfl⟩ <;> simp
      · simp
  rcases htext with rfl | ⟨more, rfl⟩
  · exact hstop [] (by simp) (Or.inl rfl)
  · exact hstop ('\n' :: more) (by simp) (Or.inr ⟨more, rfl⟩)

theorem stepLineStart_of_blank {lexer : Lexer} {line : List Char} (blank : IsBlank line)
    (nonempty : lexer.cursor.rest ≠ [])
    (hrest : lexer.cursor.rest = line ∨ ∃ more, lexer.cursor.rest = line ++ '\n' :: more) :
    stepLineStart lexer = (do skipLine; return none) lexer := by
  obtain ⟨run, tail, indented, hfollowing⟩ := following_of_isBlank blank hrest
  have hpeek : lexer.cursor.peek run.length = tail.head? := indented.getElem?_eq
  rw [stepLineStart, bind_get, atEnd_eq_false nonempty, if_neg Bool.false_ne_true]
  simp only [indented.takeWhile_eq, hpeek]
  rw [if_pos hfollowing]

/-- Before a lexeme the indentation of the line is compared with the innermost block. -/
theorem stepLineStart_of_content {lexer : Lexer} {run tail : List Char} {level : Int}
    (indented : Indented lexer.cursor.rest run tail) (content : IsContent tail)
    (reaches : lexer.Reaches run level) :
    stepLineStart lexer =
      if level = lexer.levels.top then
        .ok none ((lexer.ahead run.length).entering .inLine)
      else if lexer.levels.top < level then
        .ok (some (lexer.mark .indent))
          ((((lexer.ahead run.length).within (level :: lexer.levels.opened)).entering
            .inLine).noting (.indent level lexer.position.line))
      else .ok none (lexer.entering .dedent) := by
  obtain ⟨c, rest, rfl, hblank, hfeed, hmark⟩ := content
  have nonempty : lexer.cursor.rest ≠ [] := by simp [indented.split]
  have hpeek : lexer.cursor.peek run.length = some c := indented.getElem?_eq
  have hfollowing : ¬ (some c = none ∨ some c = some '\n' ∨ some c = some commentMark) := by
    simp [hfeed, hmark]
  rw [stepLineStart, bind_get, atEnd_eq_false nonempty, if_neg Bool.false_ne_true]
  simp only [indented.takeWhile_eq, hpeek]
  rw [if_neg hfollowing, bind_ok (measure_eq reaches)]
  by_cases hsame : level = lexer.levels.top
  · rw [if_pos hsame, if_pos hsame, bind_ok (reading_front indented.prefixed)]
    rfl
  · rw [if_neg hsame, if_neg hsame]
    by_cases hdeeper : lexer.levels.top < level
    · have hopen : openBlock level (lexer.ahead run.length) =
          .ok () ((lexer.ahead run.length).within (level :: lexer.levels.opened)) := by
        have hnot : ¬ level ≤ lexer.levels.top := by omega
        simp [openBlock, Levels.push, ahead, within, hnot]
      rw [if_pos (by exact hdeeper), if_pos hdeeper,
        bind_ok (reading_front indented.prefixed), bind_ok hopen]
      rfl
    · rw [if_neg (by exact hdeeper), if_neg hdeeper]
      rfl

/-! ## Steps that close blocks -/

theorem stepDedent_eq {lexer : Lexer} {run tail : List Char} {level : Int}
    (indented : Indented lexer.cursor.rest run tail) (reaches : lexer.Reaches run level) :
    stepDedent lexer =
      if lexer.levels.top < level then
        .error (.at .badIndentation lexer.here) (lexer.failing .badIndentation)
      else if level < lexer.levels.top then
        (do
          let _ ← closeBlock
          note (.dedent lexer.levels.top lexer.position.line)
          return some (← token (.layout .dedent) none [] lexer.position)) lexer
      else .ok none ((lexer.ahead run.length).entering .inLine) := by
  rw [stepDedent, bind_get]
  simp only [indented.takeWhile_eq]
  rw [bind_ok (measure_eq reaches)]
  by_cases hdeeper : lexer.levels.top < level
  · rw [if_pos hdeeper, if_pos hdeeper, fail_eq]
  · rw [if_neg hdeeper, if_neg hdeeper]
    by_cases hshallower : level < lexer.levels.top
    · rw [if_pos (by exact hshallower), if_pos hshallower]
    · rw [if_neg (by exact hshallower), if_neg hshallower,
        bind_ok (reading_front indented.prefixed)]
      rfl

/-! ## Steps inside a line -/

theorem skipComment_of_last {lexer : Lexer} (h : '\n' ∉ lexer.cursor.rest) :
    skipComment lexer = .ok false (lexer.ahead lexer.cursor.rest.length) := by
  rw [skipComment, bind_get]
  simp only [lineFeed?_eq_none h]
  rw [bind_ok (reading_advanceBy le_rfl)]
  rfl

theorem skipComment_of_feed {lexer : Lexer} {line more : List Char}
    (split : lexer.cursor.rest = line ++ '\n' :: more) (hline : '\n' ∉ line) :
    skipComment lexer = .ok true
      (lexer.ahead (if line.getLast? = some '\r' then line.length - 1 else line.length)) := by
  have inside : (if line.getLast? = some '\r' then line.length - 1 else line.length) ≤
      lexer.cursor.rest.length := by
    rw [split, List.length_append]
    split_ifs <;> omega
  rw [skipComment, bind_get]
  simp only [split, lineFeed?_append hline, List.take_left]
  rw [bind_ok (reading_advanceBy inside)]
  rfl

theorem lineBreak_eq {lexer : Lexer} {before more : List Char}
    (split : lexer.cursor.rest = before ++ '\n' :: more) (hbefore : before = [] ∨ before = ['\r']) :
    lineBreak lexer = .ok (before ++ '\n' :: leadingReturn more)
      (lexer.ahead (before ++ '\n' :: leadingReturn more).length) := by
  have hreturn : leadingReturn lexer.cursor.rest = before := by
    rcases hbefore with rfl | rfl <;> simp [split, leadingReturn]
  have hfeed : (lexer.ahead before.length).cursor.rest = '\n' :: more := by simp [split]
  have hmore : ((lexer.ahead before.length).ahead 1).cursor.rest = more := by
    rw [rest_ahead, hfeed]
    rfl
  have habsorb := absorbReturn_eq lexer
  rw [hreturn] at habsorb
  have inside : 1 ≤ (lexer.ahead before.length).cursor.rest.length := by
    rw [hfeed]
    exact Nat.succ_pos _
  rw [lineBreak, bind_ok habsorb, bind_ok (reading_advanceBy inside), bind_ok (absorbReturn_eq _),
    hmore, hfeed, length_lineBreak, ahead_add, ahead_add]
  simp

theorem endLine_of_openComment {lexer : Lexer} {body : List Char}
    (split : lexer.cursor.rest = commentMark :: body) (closed : '\n' ∉ body) :
    endLine lexer = .ok none (lexer.ahead lexer.cursor.rest.length) := by
  have hpeek : lexer.cursor.peek 0 = some commentMark := by simp [Cursor.peek, split]
  have hmem : '\n' ∉ lexer.cursor.rest := by
    rw [split]
    simpa [commentMark] using closed
  rw [endLine, bind_get, if_pos hpeek, bind_ok (skipComment_of_last hmem)]
  rfl

theorem endLine_eq {lexer : Lexer} {comment before more : List Char}
    (ends : IsEnd lexer.cursor.rest comment before more) :
    endLine lexer = .ok
      (some { lexer.mark .newline with
        text := String.ofList (before ++ '\n' :: leadingReturn more) })
      ((lexer.ahead (comment.length + (before ++ '\n' :: leadingReturn more).length)).entering
        .lineStart) := by
  have hbefore : before = [] ∨ before = ['\r'] := ends.isReturn.imp (·.1) id
  have hrest : (lexer.ahead comment.length).cursor.rest = before ++ '\n' :: more := by
    simp [ends.split]
  have hbreak := lineBreak_eq hrest hbefore
  rw [← ahead_add] at hbreak
  rw [endLine, bind_get]
  rcases ends.isComment with rfl | ⟨body, rfl, hbody⟩
  · have hpeek : ¬ lexer.cursor.peek 0 = some commentMark := by
      rcases hbefore with rfl | rfl <;> simp [Cursor.peek, ends.split, commentMark]
    rw [if_neg hpeek]
    simp only [List.length_nil, Nat.zero_add, ahead_zero] at hbreak ⊢
    rw [bind_ok hbreak]
    rfl
  · have hpeek : lexer.cursor.peek 0 = some commentMark := by simp [Cursor.peek, ends.split]
    have hkept : (if (commentMark :: body ++ before).getLast? = some '\r' then
        (commentMark :: body ++ before).length - 1 else (commentMark :: body ++ before).length) =
        (commentMark :: body).length := by
      rcases ends.isReturn with ⟨rfl, hlast⟩ | rfl
      · simpa using hlast
      · rw [if_pos List.getLast?_concat]
        simp
    have hskip := skipComment_of_feed ends.split ends.not_mem
    rw [hkept] at hskip
    rw [if_pos hpeek, bind_ok hskip, if_pos rfl]
    simp only
    rw [bind_ok hbreak]
    rfl

theorem skipBlanks_eq (lexer : Lexer) :
    skipBlanks lexer = .ok ()
      { lexer with
        cursor := (lexer.cursor.ahead lexer.settings.tabWidth
          (Cursor.keptRun isInnerBlank lexer.cursor.rest).length).settled } := by
  rw [skipBlanks, bind_ok (reading_readWhile lexer _)]
  rfl

theorem atLineBreak_eq_false {c : Char} {rest : List Char} (hblank : CharClass.blank.has c = false)
    (hfeed : c ≠ '\n') : Lexeme.atLineBreak (c :: rest) = false := by
  unfold Lexeme.atLineBreak
  split
  · next h => exact absurd (List.cons.inj h).1 hfeed
  · next h =>
      rw [(List.cons.inj h).1] at hblank
      exact absurd hblank (by decide)
  · rfl

/-- In front of a lexeme the matchers decide. -/
theorem stepInLine_of_content {lexer : Lexer} {c : Char} {more : List Char}
    (split : lexer.cursor.rest = c :: more) (content : IsContent lexer.cursor.rest) :
    stepInLine lexer =
      match longest? lexer.cursor.rest with
      | none => .error (.at (.unexpected c) lexer.here) (lexer.failing (.unexpected c))
      | some shape => lexer.matched shape := by
  have hpeek : lexer.cursor.peek 0 = some c := by simp [Cursor.peek, split]
  have hc : CharClass.blank.has c = false ∧ c ≠ '\n' ∧ c ≠ commentMark := by
    obtain ⟨d, rest, hrest, hd⟩ := content
    rw [split] at hrest
    exact (List.cons.inj hrest).1 ▸ hd
  have hnot : ¬ (c = commentMark ∨ Lexeme.atLineBreak lexer.cursor.rest = true) := by
    rw [split, atLineBreak_eq_false hc.1 hc.2.1]
    simpa using hc.2.2
  have hfinds := lexeme?_finds lexer
  rw [stepInLine, bind_get]
  simp only [hpeek]
  rw [if_neg hnot, hc.1, if_neg Bool.false_ne_true]
  cases hfound : longest? lexer.cursor.rest with
  | none =>
      simp only [hfound] at hfinds
      rw [bind_ok hfinds]
      exact fail_eq lexer (.unexpected c)
  | some shape =>
      simp only [hfound] at hfinds
      cases hmatched : lexer.matched shape with
      | ok found left =>
          rw [bind_ok (hfinds.trans hmatched)]
          cases found with
          | none => exact absurd hmatched (matched_ne_none lexer left shape)
          | some token => exact hmatched.symm
      | error cause left =>
          rw [bind_error (hfinds.trans hmatched)]
          exact hmatched.symm

theorem stepInLine_of_ended {lexer : Lexer} (ended : lexer.cursor.rest = []) :
    stepInLine lexer = (do return some (← atEndOfText)) lexer := by
  have hpeek : lexer.cursor.peek 0 = none := by simp [Cursor.peek, ended]
  rw [stepInLine, bind_get, hpeek]

theorem stepInLine_of_end {lexer : Lexer}
    (h : (∃ body, lexer.cursor.rest = commentMark :: body) ∨
      Lexeme.atLineBreak lexer.cursor.rest) : stepInLine lexer = endLine lexer := by
  rw [stepInLine, bind_get]
  cases hrest : lexer.cursor.rest with
  | nil => simp [hrest, Lexeme.atLineBreak] at h
  | cons c more =>
      have hpeek : lexer.cursor.peek 0 = some c := by simp [Cursor.peek, hrest]
      have hend : c = commentMark ∨ Lexeme.atLineBreak (c :: more) = true := by
        rw [hrest] at h
        rcases h with ⟨body, hbody⟩ | hbreak
        · exact Or.inl (List.cons.inj hbody).1
        · exact Or.inr hbreak
      simp only [hpeek]
      rw [if_pos hend]

theorem stepInLine_of_blank {lexer : Lexer}
    (h : Cursor.keptRun isInnerBlank lexer.cursor.rest ≠ []) :
    stepInLine lexer = (do skipBlanks; return none) lexer := by
  rw [stepInLine, bind_get]
  cases hrest : lexer.cursor.rest with
  | nil => simp [hrest, Cursor.keptRun] at h
  | cons c more =>
      have hinner : isInnerBlank c more.head? = true := by
        by_contra hinner
        exact h (hrest ▸ Cursor.keptRun_cons_of_not_keep (by simpa using hinner))
      obtain ⟨hblank, hbreak⟩ := Bool.and_eq_true_iff.mp hinner
      have hpeek : lexer.cursor.peek 0 = some c := by simp [Cursor.peek, hrest]
      have hnot : ¬ (c = commentMark ∨ Lexeme.atLineBreak (c :: more) = true) := by
        rintro (rfl | hfeed)
        · exact absurd hblank (by decide)
        · unfold Lexeme.atLineBreak at hfeed
          split at hfeed
          · next heq =>
              rw [(List.cons.inj heq).1] at hblank
              exact absurd hblank (by decide)
          · next heq =>
              obtain ⟨rfl, rfl⟩ := List.cons.inj heq
              simp at hbreak
          · exact Bool.false_ne_true hfeed
      simp only [hpeek]
      rw [if_neg hnot, if_pos hblank]

theorem step_of_ended {lexer : Lexer} (mode : lexer.mode ≠ .dedent)
    (ended : lexer.cursor.rest = []) : step lexer = (do return some (← atEndOfText)) lexer := by
  cases hmode : lexer.mode with
  | lineStart => rw [step_of_lineStart hmode, stepLineStart_of_ended ended]
  | inLine => rw [step_of_inLine hmode, stepInLine_of_ended ended]
  | dedent => exact absurd hmode mode

theorem matched_of_read {lexer : Lexer} {shape : Shape} {token : Token}
    (read : shape.read lexer.settings lexer.here = .ok token) :
    lexer.matched shape = .ok (some token)
      { lexer with cursor := shape.pass lexer.settings.tabWidth lexer.cursor } := by
  obtain ⟨hfits, value, hvalue, rfl⟩ := Shape.exists_of_read read
  simp only [matched, if_neg hfits, hvalue]

/-! ## Every lexer has a transition -/

theorem exists_reaches (lexer : Lexer) (run : List Char) : ∃ level, lexer.Reaches run level :=
  Indentation.exists_column lexer.settings.tabWidth_ne_zero run

theorem one_le_of_reaches {lexer : Lexer} {run : List Char} {level : Int}
    (hrun : ∀ c ∈ run, CharClass.blank.has c) (reaches : lexer.Reaches run level) : 1 ≤ level :=
  Indentation.one_le_of_column (Int.lt_of_lt_of_le Int.zero_lt_one lexer.settings.tabWidth_pos)
    hrun reaches

theorem exists_transition_of_ended {lexer : Lexer} (mode : lexer.mode ≠ .dedent)
    (ended : lexer.cursor.rest = []) : ∃ result, Transition lexer result := by
  cases opened : lexer.levels.opened with
  | nil => exact ⟨_, .finish mode ended opened⟩
  | cons level outer => exact ⟨_, .closeAtEnd mode ended opened⟩

theorem exists_transition_of_lineStart {lexer : Lexer} (mode : lexer.mode = .lineStart) :
    ∃ result, Transition lexer result := by
  by_cases nonempty : lexer.cursor.rest = []
  · exact exists_transition_of_ended (by simp [mode]) nonempty
  rcases text_cases lexer.cursor.rest with
    hlast | ⟨line, more, split, blank⟩ | ⟨run, tail, indented, content⟩
  · exact ⟨_, .lastBlankLine mode nonempty hlast⟩
  · exact ⟨_, .blankLine mode split blank⟩
  · obtain ⟨level, reaches⟩ := exists_reaches lexer run
    rcases Int.lt_trichotomy level lexer.levels.top with shallower | rfl | deeper
    · exact ⟨_, .pend mode indented content reaches shallower⟩
    · exact ⟨_, .sameLevel mode indented content reaches⟩
    · exact ⟨_, .indent mode indented content reaches deeper⟩

theorem exists_transition_of_dedent {lexer : Lexer} (mode : lexer.mode = .dedent) :
    ∃ result, Transition lexer result := by
  have indented := indented_takeWhile lexer.cursor.rest
  obtain ⟨level, reaches⟩ := exists_reaches lexer (lexer.cursor.rest.takeWhile _)
  rcases Int.lt_trichotomy level lexer.levels.top with shallower | rfl | deeper
  · cases opened : lexer.levels.opened with
    | nil =>
        have hone := one_le_of_reaches indented.blank reaches
        simp only [Levels.top, opened, List.headD_nil, Levels.base] at shallower
        omega
    | cons top outer =>
        have htop : lexer.levels.top = top := by simp [Levels.top, opened]
        exact ⟨_, .dedent mode indented reaches opened (htop ▸ shallower)⟩
  · exact ⟨_, .resolved mode indented reaches⟩
  · exact ⟨_, .mismatch mode indented reaches deeper⟩

theorem exists_transition_of_inLine {lexer : Lexer} (mode : lexer.mode = .inLine) :
    ∃ result, Transition lexer result := by
  rcases front_cases lexer.cursor.rest with ended | content | hblank | hmark | hbreak
  · exact exists_transition_of_ended (by simp [mode]) ended
  · cases found : longest? lexer.cursor.rest with
    | none =>
        obtain ⟨c, more, split, -⟩ := id content
        exact ⟨_, .unexpected mode split content found⟩
    | some shape =>
        by_cases large : shape.IsTooLarge lexer.settings
        · exact ⟨_, .tooLarge mode content found large⟩
        · cases hvalue : shape.value lexer.settings with
          | ok value => exact ⟨_, .lexeme mode content found (Shape.read_of_value _ large hvalue)⟩
          | error cause => exact ⟨_, .refused mode content found large hvalue⟩
  · exact ⟨_, .blanks mode rfl hblank⟩
  · obtain ⟨body, split⟩ := hmark
    rcases exists_lineFeed lexer.cursor.rest with closed | ⟨line, more, hline, hmem⟩
    · exact ⟨_, .openComment mode split fun h => closed (split ▸ List.mem_cons_of_mem _ h)⟩
    · have hmark : line.head? = some commentMark := by
        cases line with
        | nil => simp [hline, commentMark] at split
        | cons c line =>
            rw [hline] at split
            exact congrArg some (List.cons.inj split).1
      obtain ⟨comment, before, ends, -⟩ := @isEnd_of_comment line more hmem hmark
      exact ⟨_, .newline mode (hline ▸ ends)⟩
  · obtain ⟨before, more, ends⟩ := isEnd_of_atLineBreak hbreak
    exact ⟨_, .newline mode ends⟩

/-! ## Steps are transitions -/

/-- A step does what its transition says. -/
theorem step_eq_of_transition {lexer : Lexer} {result : EStateM.Result Error Lexer (Option Token)}
    (h : Transition lexer result) : step lexer = result := by
  cases h with
  | closeAtEnd mode ended opened =>
      rw [step_of_ended mode ended, bind_ok (atEndOfText_of_opened opened)]
      rfl
  | finish mode ended opened =>
      rw [step_of_ended mode ended, bind_ok (atEndOfText_of_none opened)]
      rfl
  | @blankLine line more mode split blank =>
      rw [step_of_lineStart mode, stepLineStart_of_blank blank (by simp [split])
        (Or.inr ⟨more, split⟩), bind_ok (skipLine_of_feed split blank.not_mem)]
      rfl
  | lastBlankLine mode nonempty blank =>
      rw [step_of_lineStart mode, stepLineStart_of_blank blank nonempty (Or.inl rfl),
        bind_ok (skipLine_of_last blank.not_mem)]
      rfl
  | sameLevel mode indented content level =>
      rw [step_of_lineStart mode, stepLineStart_of_content indented content level, if_pos rfl]
  | indent mode indented content reaches deeper =>
      rw [step_of_lineStart mode, stepLineStart_of_content indented content reaches,
        if_neg (Int.ne_of_gt deeper), if_pos deeper]
  | pend mode indented content reaches shallower =>
      rw [step_of_lineStart mode, stepLineStart_of_content indented content reaches,
        if_neg (Int.ne_of_lt shallower), if_neg (Int.lt_asymm shallower)]
  | @dedent run tail level top outer mode indented reaches opened shallower =>
      have htop : lexer.levels.top = top := by simp [Levels.top, opened]
      have hclose : closeBlock lexer = .ok top (lexer.within outer) := by
        simp [closeBlock, Levels.pop, opened, within]
      rw [step_of_dedent mode, stepDedent_eq indented reaches, htop,
        if_neg (Int.lt_asymm shallower), if_pos shallower, bind_ok hclose]
      rfl
  | resolved mode indented level =>
      rw [step_of_dedent mode, stepDedent_eq indented level, if_neg (Int.lt_irrefl _),
        if_neg (Int.lt_irrefl _)]
  | mismatch mode indented reaches deeper =>
      rw [step_of_dedent mode, stepDedent_eq indented reaches, if_pos deeper]
  | blanks mode kept nonempty =>
      rw [step_of_inLine mode, stepInLine_of_blank (kept ▸ nonempty), bind_ok (skipBlanks_eq lexer),
        kept]
      rfl
  | openComment mode split closed =>
      rw [step_of_inLine mode, stepInLine_of_end (Or.inl ⟨_, split⟩),
        endLine_of_openComment split closed]
  | newline mode ends =>
      rw [step_of_inLine mode, stepInLine_of_end ends.begins, endLine_eq ends]
  | lexeme mode content found read =>
      obtain ⟨c, more, split, -⟩ := id content
      rw [step_of_inLine mode, stepInLine_of_content split content, found]
      exact matched_of_read read
  | refused mode content found fits refusal =>
      obtain ⟨c, more, split, -⟩ := id content
      rw [step_of_inLine mode, stepInLine_of_content split content, found]
      simp only [matched, if_neg fits, refusal]
  | tooLarge mode content found large =>
      obtain ⟨c, more, split, -⟩ := id content
      rw [step_of_inLine mode, stepInLine_of_content split content, found]
      simp only [matched, if_pos large]
  | unexpected mode split content found =>
      rw [step_of_inLine mode, stepInLine_of_content split content, found]

/-- Every lexer has a transition. -/
theorem exists_transition (lexer : Lexer) : ∃ result, Transition lexer result := by
  cases mode : lexer.mode with
  | lineStart => exact exists_transition_of_lineStart mode
  | inLine => exact exists_transition_of_inLine mode
  | dedent => exact exists_transition_of_dedent mode

/-- Every step is a transition. -/
theorem transition_step (lexer : Lexer) : Transition lexer (step lexer) := by
  obtain ⟨result, h⟩ := exists_transition lexer
  exact (step_eq_of_transition h).symm ▸ h

end Offside.Lexer
