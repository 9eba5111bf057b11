import Offside.Proofs.Indentation.Levels
import Offside.Proofs.Lexer.Matcher
import Offside.Proofs.Lines.Text
import Offside.Proofs.Position.Order

/-!
# Reading line by line

What a text means, said without a lexer.  The text is cut at its line feeds.  Lines without lexemes
are passed over; every other line first settles which blocks are open, by its indentation alone, and
then gives its lexemes one after another, each the longest that the rest of the line begins with.
A line that a line feed ends gives a mark for that, and the end of the text closes the blocks that
are still open.

A `Reading` is what such an account gives: tokens, and then a value or the error that no token comes
after.  `Lines.read` is the reading of a text.  What goes wrong in it is a `Fault`, with its cause
and its location; how much of that a lexer tells is another matter, and `Reading.reported` is the
reading as it would tell it.
-/

namespace Offside

/-- Tokens in order, and then a value or an error. -/
structure Reading (ε α : Type) where
  tokens : List Token
  result : Except ε α

namespace Reading

variable {ε α β : Type}

/-- The reading with more tokens in front. -/
def preceded (tokens : List Token) (reading : Reading ε α) : Reading ε α :=
  ⟨tokens ++ reading.tokens, reading.result⟩

instance : Monad (Reading ε) where
  pure a := ⟨[], .ok a⟩
  bind reading f :=
    match reading.result with
    | .ok a => (f a).preceded reading.tokens
    | .error cause => ⟨reading.tokens, .error cause⟩

/-- Gives tokens. -/
def emit (tokens : List Token) : Reading ε Unit := ⟨tokens, .ok ()⟩

/-- Fails. -/
def stop (cause : ε) : Reading ε α := ⟨[], .error cause⟩

/-- A value or an error, without tokens. -/
def ofExcept : Except ε α → Reading ε α
  | .ok a => pure a
  | .error cause => stop cause

/-- All tokens, if there is no error. -/
def whole (reading : Reading ε Unit) : Except ε (List Token) :=
  match reading.result with
  | .ok _ => .ok reading.tokens
  | .error cause => .error cause

/-- The reading with what the lexer makes of the fault in it. -/
def reported (reading : Reading Fault α) : Reading Lexer.Error α :=
  ⟨reading.tokens, reading.result.mapError Fault.reported⟩

theorem preceded_append (tokens more : List Token) (reading : Reading ε α) :
    reading.preceded (tokens ++ more) = (reading.preceded more).preceded tokens := by
  simp [preceded, List.append_assoc]

@[simp] theorem ofExcept_ok (a : α) : ofExcept (.ok a) = (pure a : Reading ε α) := rfl

@[simp] theorem ofExcept_error (cause : ε) :
    ofExcept (.error cause) = (stop cause : Reading ε α) := rfl

@[simp] theorem pure_bind (a : α) (f : α → Reading ε β) : (pure a >>= f) = f a := rfl

@[simp] theorem emit_bind (tokens : List Token) (f : Unit → Reading ε β) :
    (emit tokens >>= f) = (f ()).preceded tokens := rfl

theorem bind_of_ok {reading : Reading ε α} {a : α} (h : reading.result = .ok a)
    (f : α → Reading ε β) : (reading >>= f) = (f a).preceded reading.tokens := by
  simp only [bind, h]

theorem bind_of_error {reading : Reading ε α} {cause : ε}
    (h : reading.result = .error cause) (f : α → Reading ε β) :
    (reading >>= f) = ⟨reading.tokens, .error cause⟩ := by
  simp only [bind, h]

theorem preceded_bind (tokens : List Token) (reading : Reading ε α) (f : α → Reading ε β) :
    (reading.preceded tokens >>= f) = (reading >>= f).preceded tokens := by
  cases h : reading.result with
  | ok a =>
      have hpreceded : (reading.preceded tokens).result = .ok a := h
      rw [bind_of_ok hpreceded, bind_of_ok h, ← preceded_append]
      rfl
  | error cause =>
      have hpreceded : (reading.preceded tokens).result = .error cause := h
      rw [bind_of_error hpreceded, bind_of_error h]
      rfl

theorem bind_assoc {γ : Type} (reading : Reading ε α) (f : α → Reading ε β)
    (g : β → Reading ε γ) : (reading >>= f >>= g) = (reading >>= fun a => f a >>= g) := by
  cases h : reading.result with
  | ok a => rw [bind_of_ok h, bind_of_ok h, preceded_bind]
  | error cause => rw [bind_of_error h, bind_of_error h, bind_of_error rfl]

theorem bind_pure (reading : Reading ε α) : (reading >>= pure) = reading := by
  obtain ⟨tokens, result⟩ := reading
  cases result with
  | ok a => exact congrArg (Reading.mk · (.ok a)) (List.append_nil tokens)
  | error cause => rfl

/-- What a composed reading gives, one of its parts gives. -/
theorem mem_bind {reading : Reading ε α} {f : α → Reading ε β} {token : Token}
    (h : token ∈ (reading >>= f).tokens) :
    token ∈ reading.tokens ∨ ∃ a, reading.result = .ok a ∧ token ∈ (f a).tokens := by
  cases hresult : reading.result with
  | ok a =>
      rw [bind_of_ok hresult] at h
      exact (List.mem_append.mp h).imp_right fun hmem => ⟨a, rfl, hmem⟩
  | error cause =>
      rw [bind_of_error hresult] at h
      exact Or.inl h

/-- A composed reading succeeds only if its parts do. -/
theorem exists_of_bind_ok {reading : Reading ε α} {f : α → Reading ε β} {b : β}
    (h : (reading >>= f).result = .ok b) :
    ∃ a, reading.result = .ok a ∧ (f a).result = .ok b := by
  cases hresult : reading.result with
  | ok a =>
      rw [bind_of_ok hresult] at h
      exact ⟨a, rfl, h⟩
  | error cause =>
      rw [bind_of_error hresult] at h
      cases h

/-- If there are all tokens, there is no error. -/
theorem eq_of_whole {reading : Reading ε Unit} {tokens : List Token}
    (h : reading.whole = .ok tokens) : reading = ⟨tokens, .ok ()⟩ := by
  obtain ⟨given, result⟩ := reading
  cases result with
  | ok value =>
      obtain rfl := Except.ok.inj h
      rfl
  | error cause => simp [whole] at h

/-- If there is an error, it comes behind some tokens. -/
theorem exists_eq_of_whole_error {reading : Reading ε Unit} {cause : ε}
    (h : reading.whole = .error cause) : ∃ tokens, reading = ⟨tokens, .error cause⟩ := by
  obtain ⟨given, result⟩ := reading
  cases result with
  | ok value => simp [whole] at h
  | error other =>
      obtain rfl := Except.error.inj h
      exact ⟨given, rfl⟩

theorem whole_preceded (tokens : List Token) (reading : Reading ε Unit) :
    (reading.preceded tokens).whole = reading.whole.map (tokens ++ ·) := by
  unfold whole preceded
  cases reading.result <;> rfl

/-! ## Readings as they are reported -/

@[simp] theorem tokens_reported (reading : Reading Fault α) :
    reading.reported.tokens = reading.tokens := rfl

theorem whole_reported (reading : Reading Fault Unit) :
    reading.reported.whole = reading.whole.mapError Fault.reported := by
  unfold whole reported
  cases reading.result <;> rfl

/-- A reading that is reported to succeed succeeds. -/
theorem eq_of_reported {reading : Reading Fault α} {tokens : List Token} {a : α}
    (h : reading.reported = ⟨tokens, .ok a⟩) : reading = ⟨tokens, .ok a⟩ := by
  obtain ⟨given, result⟩ := reading
  obtain ⟨rfl, hresult⟩ := Reading.mk.inj h
  cases result with
  | ok value => rw [Except.ok.inj hresult]
  | error fault => simp [Except.mapError] at hresult

/-- A reading that is reported to fail fails, with a fault of which that is reported. -/
theorem exists_of_reported_error {reading : Reading Fault α} {tokens : List Token}
    {cause : Lexer.Error} (h : reading.reported = ⟨tokens, .error cause⟩) :
    ∃ fault, fault.reported = cause ∧ reading = ⟨tokens, .error fault⟩ := by
  obtain ⟨given, result⟩ := reading
  obtain ⟨rfl, hresult⟩ := Reading.mk.inj h
  cases result with
  | ok value => simp [Except.mapError] at hresult
  | error fault => exact ⟨fault, Except.error.inj hresult, rfl⟩

end Reading

namespace Lines

open Lexeme

variable (settings : Settings) (name : String)

/-- A token of the layout. -/
def mark (position : Position) (layout : Layout) : Token :=
  ⟨.layout layout, none, "", .ofPosition name position⟩

/-- The lexemes of a line, read from `position` on up to a comment or the end of the line.  The
value is the position where they end. -/
def contents (position : Position) (text : List Char) : Reading Fault Position :=
  match text with
  | [] => pure position
  | c :: rest =>
    if CharClass.blank.has c then
      contents (position.moved settings.tabWidth (.ofChar c)) rest
    else if c = commentMark then pure position
    else
      match _h : longest? (c :: rest) with
      | none => .stop (.lexical (.unexpected c) (.ofPosition name position))
      | some shape => do
        let token ← Reading.ofExcept (shape.read settings (.ofPosition name position))
        Reading.emit [token]
        contents (position.after settings.tabWidth shape.text)
          ((c :: rest).drop shape.text.length)
termination_by text.length
decreasing_by
  · simp
  · have longest := isLongest_of_longest? _h
    have := List.length_pos_iff.mpr (Shape.text_ne_nil longest.valid)
    simp only [List.length_drop, List.length_cons]
    omega

variable {settings name}

theorem contents_nil (position : Position) :
    contents settings name position [] = pure position := by
  rw [contents]

theorem contents_blank (position : Position) {c : Char} (hc : CharClass.blank.has c)
    (rest : List Char) : contents settings name position (c :: rest) =
      contents settings name (position.moved settings.tabWidth (.ofChar c)) rest := by
  rw [contents, if_pos hc]

theorem contents_blanks (position : Position) {run : List Char}
    (hrun : ∀ c ∈ run, CharClass.blank.has c) (text : List Char) :
    contents settings name position (run ++ text) =
      contents settings name (position.after settings.tabWidth run) text := by
  induction run generalizing position with
  | nil => rfl
  | cons c run ih =>
      rw [List.cons_append, contents_blank position (hrun c (List.mem_cons_self ..))]
      exact ih _ fun d hd => hrun d (List.mem_cons_of_mem _ hd)

theorem contents_comment (position : Position) (body : List Char) :
    contents settings name position (commentMark :: body) = pure position := by
  rw [contents, if_neg (by decide), if_pos rfl]

theorem contents_unexpected (position : Position) {c : Char} {rest : List Char}
    (content : IsContent (c :: rest)) (h : longest? (c :: rest) = none) :
    contents settings name position (c :: rest) =
      .stop (.lexical (.unexpected c) (.ofPosition name position)) := by
  obtain ⟨d, more, heq, hblank, -, hmark⟩ := content
  obtain ⟨rfl, -⟩ := List.cons.inj heq
  rw [contents, hblank, if_neg Bool.false_ne_true, if_neg hmark]
  split
  · rfl
  · next shape hshape => simp [h] at hshape

theorem contents_lexeme (position : Position) {text : List Char} (content : IsContent text)
    {shape : Shape} (h : longest? text = some shape) :
    contents settings name position text =
      (do
        let token ← Reading.ofExcept (shape.read settings (.ofPosition name position))
        Reading.emit [token]
        contents settings name (position.after settings.tabWidth shape.text)
          (text.drop shape.text.length)) := by
  obtain ⟨c, rest, rfl, hblank, -, hmark⟩ := content
  rw [contents, hblank, if_neg Bool.false_ne_true, if_neg hmark]
  split
  · next hnone => simp [h] at hnone
  · next other hother =>
      obtain rfl := Option.some.inj (hother.symm.trans h)
      rfl

variable (settings name)

/-- The blocks that are open in a line at column `level`, after opening one block or closing some,
and the marks for that. -/
def arrange (levels : Levels) (level : Int) : List Layout × Levels :=
  if levels.top < level then ([.indent], ⟨level :: levels.opened⟩)
  else
    ((levels.opened.takeWhile (level < ·)).map fun _ => .dedent,
      ⟨levels.opened.dropWhile (level < ·)⟩)

/-- The mark for the end of a line.  Its text is the line feed with the carriage returns next to
it, of which the second stands in the following line. -/
def newline (position : Position) (line following : List Char) : Token :=
  { mark name position .newline with
    text := String.ofList
      ((if line.getLast? = some '\r' then ['\r'] else []) ++ '\n' :: leadingReturn following) }

/-- Reads the line with a given number, which is followed by another unless it is the last.  The
value is the blocks that are open behind it. -/
def readLine (number : Int) (levels : Levels) (line : List Char) (following : Option (List Char)) :
    Reading Fault Levels :=
  let run := line.takeWhile CharClass.blank.has
  let body := line.dropWhile CharClass.blank.has
  let start : Position := ⟨number, 1⟩
  if body = [] ∨ body.head? = some commentMark then return levels
  else do
    let level := Indentation.level settings.tabWidth_ne_zero run
    let (marks, reached) := arrange levels level
    Reading.emit (marks.map (mark name start))
    if reached.top ≠ level then Reading.stop (.lexical .badIndentation (.ofPosition name start))
    else do
      let stop ← contents settings name (start.after settings.tabWidth run) body
      match following with
      | none => return reached
      | some following =>
        Reading.emit [newline name stop line following]
        return reached

/-- The marks at the end of the text. -/
def closing (position : Position) (levels : Levels) : List Token :=
  levels.opened.map (fun _ => mark name position .dedent) ++ [mark name position .eof]

/-- Reads lines, the first of which has a given number. -/
def readLines (number : Int) (levels : Levels) : List (List Char) → Reading Fault Unit
  | [] => return ()
  | [last] => do
    let reached ← readLine settings name number levels last none
    Reading.emit (closing name ((⟨number, 1⟩ : Position).after settings.tabWidth last) reached)
  | line :: following :: more => do
    let reached ← readLine settings name number levels line (some following)
    readLines (number + 1) reached (following :: more)

/-- Reads a text line by line. -/
def read (source : Source) : Reading Fault Unit :=
  readLines settings source.name 1 .initial (source.text.toList.splitOn '\n')

/-! ## What a line does to the open blocks -/

/-- A line in the innermost block leaves the blocks as they are. -/
theorem arrange_top (levels : Levels) : arrange levels levels.top = ([], levels) := by
  obtain ⟨opened⟩ := levels
  cases opened with
  | nil => rfl
  | cons top outer => simp [arrange, Levels.top_cons]

theorem arrange_of_deeper {levels : Levels} {level : Int} (deeper : levels.top < level) :
    arrange levels level = ([.indent], ⟨level :: levels.opened⟩) :=
  if_pos deeper

theorem arrange_of_shallower {levels : Levels} {level : Int} (shallower : level < levels.top) :
    arrange levels level =
      ((levels.opened.takeWhile (level < ·)).map fun _ => .dedent,
        ⟨levels.opened.dropWhile (level < ·)⟩) :=
  if_neg (Int.lt_asymm shallower)

/-! ## What a line gives -/

variable {settings name} {number : Int} {levels : Levels} {line : List Char}
  {following : Option (List Char)}

theorem newline_congr {position : Position} {line line' next next' : List Char}
    (hline : line.getLast? = some '\r' ↔ line'.getLast? = some '\r')
    (hnext : leadingReturn next = leadingReturn next') :
    newline name position line next = newline name position line' next' := by
  simp only [newline, hline, hnext]

/-- A line without lexemes leaves no trace. -/
theorem readLine_blank
    (h : line.dropWhile CharClass.blank.has = [] ∨
      (line.dropWhile CharClass.blank.has).head? = some commentMark) :
    readLine settings name number levels line following = pure levels := by
  simp only [readLine, if_pos h]

theorem readLine_of_isBlank (h : IsBlank line) :
    readLine settings name number levels line following = pure levels :=
  readLine_blank h.head_dropWhile

/-- Every run of blanks reaches a column, and blocks are opened or closed for it. -/
theorem exists_arrange (settings : Settings) (levels : Levels) (run : List Char) :
    ∃ level marks reached, Indentation.column settings.tabWidth run = .ok level ∧
      arrange levels level = (marks, reached) := by
  obtain ⟨level, reaches⟩ := Indentation.exists_column settings.tabWidth_ne_zero run
  exact ⟨level, _, _, reaches, rfl⟩

/-- A line with lexemes gives its marks, and, if its column is that of an open block then, its
lexemes and its end. -/
theorem readLine_bind {α : Type} {run body : List Char} {level : Int} {marks : List Layout}
    {reached : Levels} (indented : Indented line run body) (content : IsContent body)
    (reaches : Indentation.column settings.tabWidth run = .ok level)
    (arranged : arrange levels level = (marks, reached)) (f : Levels → Reading Fault α) :
    (readLine settings name number levels line following >>= f) =
      (if reached.top ≠ level then
        Reading.stop (.lexical .badIndentation (.ofPosition name ⟨number, 1⟩))
      else
        contents settings name ((⟨number, 1⟩ : Position).after settings.tabWidth run) body >>=
          fun stop =>
            match following with
            | none => f reached
            | some following =>
              (f reached).preceded [newline name stop line following]).preceded
        (marks.map (mark name ⟨number, 1⟩)) := by
  obtain ⟨c, rest, rfl, -, -, hmark⟩ := content
  have hblank : ¬ (c :: rest = [] ∨ (c :: rest).head? = some commentMark) := by
    simpa using hmark
  have hrun : line.takeWhile CharClass.blank.has = run := indented.takeWhile_eq
  have hbody : line.dropWhile CharClass.blank.has = c :: rest := indented.dropWhile_eq
  simp only [readLine, hrun, hbody, if_neg hblank, Indentation.level_eq reaches, arranged,
    Reading.emit_bind, Reading.preceded_bind]
  by_cases hlevel : reached.top ≠ level
  · rw [if_pos hlevel, if_pos hlevel]
    rfl
  · rw [if_neg hlevel, if_neg hlevel, Reading.bind_assoc]
    cases following <;> rfl

/-- A carriage return in front of a line changes nothing. -/
theorem readLine_return :
    readLine settings name number levels ('\r' :: line) following =
      readLine settings name number levels line following := by
  have hblank : CharClass.blank.has '\r' = true := by decide
  by_cases hbody : line = []
  · have hdrop : ['\r'].dropWhile CharClass.blank.has = [] := by decide
    rw [hbody, readLine_blank (Or.inl hdrop), readLine_blank (Or.inl List.dropWhile_nil)]
  · have hlevel : Indentation.level settings.tabWidth_ne_zero
        ('\r' :: line.takeWhile CharClass.blank.has) =
          Indentation.level settings.tabWidth_ne_zero (line.takeWhile CharClass.blank.has) := by
      obtain ⟨level, reaches⟩ := Indentation.exists_column settings.tabWidth_ne_zero
        (line.takeWhile CharClass.blank.has)
      rw [Indentation.level_eq reaches]
      -- A carriage return has no width.
      exact Indentation.level_eq reaches
    have hlast : ('\r' :: line).getLast? = line.getLast? := List.getLast?_cons_of_ne_nil hbody
    simp only [readLine, List.takeWhile_cons_of_pos hblank, List.dropWhile_cons_of_pos hblank,
      hlevel, Position.after_cons, Position.moved_return, newline, hlast]

/-- A carriage return in front of the lines changes nothing. -/
theorem readLines_return (lines : List (List Char)) :
    readLines settings name number levels (('\r' :: line) :: lines) =
      readLines settings name number levels (line :: lines) := by
  cases lines with
  | nil =>
      simp only [readLines, readLine_return, Position.after_cons, Position.moved_return]
  | cons following more => simp only [readLines, readLine_return]

/-- A text as its first line and the others.  The lines are read in the same way without the
carriage return that the text begins with. -/
theorem exists_splitOn (text : List Char) :
    ∃ first others, text.splitOn '\n' = first :: others ∧
      leadingReturn first = leadingReturn text ∧
      ∀ settings name number levels,
        readLines settings name number levels
            ((text.drop (leadingReturn text).length).splitOn '\n') =
          readLines settings name number levels (first :: others) := by
  cases text with
  | nil => exact ⟨[], [], rfl, rfl, fun _ _ _ _ => rfl⟩
  | cons c text =>
      by_cases hfeed : c = '\n'
      · have hsplit : (c :: text).splitOn '\n' = [] :: text.splitOn '\n' := by
          rw [List.splitOn_cons_eq_if_modifyHead, if_pos (by simpa using hfeed)]
        subst hfeed
        exact ⟨[], _, hsplit, rfl, fun _ _ _ _ => by rw [← hsplit]; rfl⟩
      · have hsplit : (c :: text).splitOn '\n' = (text.splitOn '\n').modifyHead (c :: ·) := by
          rw [List.splitOn_cons_eq_if_modifyHead, if_neg (by simpa using hfeed)]
        obtain ⟨first, others, htext⟩ := List.exists_cons_of_ne_nil (List.splitOn_ne_nil '\n' text)
        rw [htext, List.modifyHead_cons] at hsplit
        by_cases hreturn : c = '\r'
        · subst hreturn
          refine ⟨'\r' :: first, others, hsplit, rfl, fun settings name number levels => ?_⟩
          rw [readLines_return, ← htext]
          rfl
        · have hnone : ∀ more, leadingReturn (c :: more) = [] := by
            intro more
            exact leadingReturn_eq_nil fun heq => hreturn (Option.some.inj heq)
          refine ⟨c :: first, others, hsplit, by rw [hnone, hnone], fun _ _ _ _ => ?_⟩
          rw [hnone, ← hsplit]
          rfl

/-- A text of a single line that begins with a lexeme opens no block. -/
theorem read_of_contents {text : List Char} (content : IsContent text) (hfeed : '\n' ∉ text) :
    read settings ⟨String.ofList text, name⟩ =
      (contents settings name Position.start text >>= fun _ =>
        Reading.emit [mark name (Position.start.after settings.tabWidth text) .eof]) := by
  have indented : Indented text [] text := @indented_of_isContent [] text (by simp) content
  have arranged : arrange .initial 1 = ([], .initial) := arrange_top .initial
  rw [read, String.toList_ofList, List.splitOn_eq_singleton hfeed, readLines,
    readLine_bind indented content rfl arranged, if_neg (by decide)]
  rfl

end Lines

end Offside
