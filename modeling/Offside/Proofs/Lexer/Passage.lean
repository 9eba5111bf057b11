import Offside.Proofs.Lexer.Pull
import Offside.Proofs.Lines.Trivia

/-!
# What steps pass over

A step leaves the lexer further on in the same text, and what lies between is known.  A step without
a token passes over trivia (`Skips`).  A step that gives a token passes over the text of the token,
and perhaps over some trivia in front of it, which is then what lies between the place where the
token is located and its text (`Gives`).
-/

namespace Offside.Lexer

open Lexeme Lines

variable {lexer middle left : Lexer} {text more : List Char}

/-! ## Passing over text -/

/-- `left` is the lexer behind `text`, at work in the same way. -/
structure Passes (lexer left : Lexer) (text : List Char) : Prop where
  rest : lexer.cursor.rest = text ++ left.cursor.rest
  before : left.cursor.before.reverse = lexer.cursor.before.reverse ++ text
  position : left.position = lexer.position.after lexer.settings.tabWidth text
  settings : left.settings = lexer.settings
  name : left.name = lexer.name

theorem Passes.refl (lexer : Lexer) : Passes lexer lexer [] :=
  ⟨rfl, (List.append_nil _).symm, rfl, rfl, rfl⟩

theorem Passes.trans (h : Passes lexer middle text) (h' : Passes middle left more) :
    Passes lexer left (text ++ more) where
  rest := by rw [h.rest, h'.rest, List.append_assoc]
  before := by rw [h'.before, h.before, List.append_assoc]
  position := by rw [h'.position, h.position, h.settings, Position.after_append]
  settings := h'.settings.trans h.settings
  name := h'.name.trans h.name

/-- A cursor that has moved over `text` is all that matters. -/
theorem passes_of_cursor {rest : List Char} (split : lexer.cursor.rest = text ++ rest)
    (hrest : left.cursor.rest = lexer.cursor.rest.drop text.length)
    (hbefore : left.cursor.before =
      (lexer.cursor.rest.take text.length).reverse ++ lexer.cursor.before)
    (hposition : left.cursor.position =
      lexer.cursor.position.after lexer.settings.tabWidth (lexer.cursor.rest.take text.length))
    (hsettings : left.settings = lexer.settings) (hname : left.name = lexer.name) :
    Passes lexer left text := by
  rw [split, List.drop_left] at hrest
  rw [split, List.take_left] at hbefore hposition
  refine ⟨?_, ?_, hposition, hsettings, hname⟩
  · rw [hrest, split]
  · rw [hbefore, List.reverse_append, List.reverse_reverse]

theorem passes_of_ahead {rest : List Char} (split : lexer.cursor.rest = text ++ rest)
    (hcursor : left.cursor = (lexer.ahead text.length).cursor)
    (hsettings : left.settings = lexer.settings) (hname : left.name = lexer.name) :
    Passes lexer left text := by
  refine passes_of_cursor split ?_ ?_ ?_ hsettings hname
  · rw [hcursor]
    exact Cursor.rest_ahead ..
  · rw [hcursor]
    exact Cursor.before_ahead ..
  · rw [hcursor]
    exact Cursor.position_ahead ..

theorem passes_of_shape {shape : Shape} (prefixed : shape.text <+: lexer.cursor.rest) :
    Passes lexer { lexer with cursor := shape.pass lexer.settings.tabWidth lexer.cursor }
      shape.text := by
  obtain ⟨rest, split⟩ := prefixed
  refine passes_of_cursor split.symm ?_ ?_ ?_ rfl rfl
  · simp
  · simp
  · simp

theorem passes_of_blanks (kept : Cursor.keptRun isInnerBlank lexer.cursor.rest = text) :
    Passes lexer
      { lexer with
        cursor := (lexer.cursor.ahead lexer.settings.tabWidth text.length).settled } text := by
  obtain ⟨rest, split⟩ := kept ▸ Cursor.keptRun_prefix isInnerBlank lexer.cursor.rest
  refine passes_of_cursor split.symm ?_ ?_ ?_ rfl rfl
  · simp [Cursor.rest_ahead]
  · simp [Cursor.before_ahead]
  · simp [Cursor.position_ahead]

/-- How a lexer gets out of the inside of a line, or stays out of it: the text ends, or nothing was
read, or a line break was. -/
def Restarts (lexer left : Lexer) (text : List Char) : Prop :=
  left.mode ≠ .inLine → left.cursor.rest = [] ∨ text = [] ∧ lexer.mode ≠ .inLine ∨
    ∃ line more, '\n' ∉ line ∧ text = line ++ '\n' :: leadingReturn more

/-- A step without a token, over `text`. -/
structure Skips (lexer left : Lexer) (text : List Char) : Prop where
  passes : Passes lexer left text
  trivia : Trivia text left.cursor.rest
  restarts : Restarts lexer left text
  /-- Line feeds are passed over with the whole of a line without lexemes. -/
  feed : '\n' ∈ text → lexer.mode = .lineStart ∧
    ∃ line more, text = line ++ '\n' :: leadingReturn more ∧ IsBlank line
  /-- Inside a line, only blanks are passed over before the end of the text. -/
  blank : lexer.mode = .inLine → left.cursor.rest = [] ∨ ∀ c ∈ text, CharClass.blank.has c

theorem skips_of_blanks (passes : Passes lexer left text)
    (hblank : ∀ c ∈ text, CharClass.blank.has c) (restarts : Restarts lexer left text) :
    Skips lexer left text where
  passes := passes
  trivia := trivia_of_blank hblank _
  restarts := restarts
  feed h := absurd h (not_mem_of_blank hblank)
  blank _ := Or.inr hblank

/-- To the end of the text, over the rest of the last line. -/
theorem skips_of_last (passes : Passes lexer left lexer.cursor.rest)
    (blank : IsBlank lexer.cursor.rest) : Skips lexer left lexer.cursor.rest := by
  have ended : left.cursor.rest = [] := List.self_eq_append_right.mp passes.rest
  exact ⟨passes, trivia_of_isBlank blank (Or.inl ended), fun _ => Or.inl ended,
    fun h => absurd h blank.not_mem, fun _ => Or.inl ended⟩

/-- A step without a token skips trivia. -/
theorem exists_skips (h : Transition lexer (.ok none middle)) :
    ∃ text, Skips lexer middle text := by
  cases h with
  | @blankLine line more mode split blank =>
      have hsplit := split.trans (append_feed_eq line more)
      refine ⟨line ++ '\n' :: leadingReturn more,
        passes_of_ahead hsplit (by rw [length_lineBreak]) rfl rfl, ?_,
        fun _ => Or.inr (Or.inr ⟨line, more, blank.not_mem, rfl⟩),
        fun _ => ⟨mode, line, more, rfl, blank⟩,
        fun h => absurd (mode.symm.trans h) (by decide)⟩
      exact (trivia_of_isBlank blank (Or.inr rfl)).append
        (.feed (trivia_of_blank (blank_of_mem_leadingReturn more) _))
  | lastBlankLine mode nonempty blank =>
      exact ⟨_, skips_of_last (passes_of_ahead (List.append_nil _).symm rfl rfl rfl) blank⟩
  | @sameLevel run tail mode indented content level =>
      exact ⟨run, skips_of_blanks (passes_of_ahead indented.split rfl rfl rfl) indented.blank
        (absurd rfl)⟩
  | pend mode indented content reaches shallower =>
      exact ⟨[], skips_of_blanks (passes_of_ahead (List.nil_append _).symm rfl rfl rfl) (by simp)
        fun _ => Or.inr (Or.inl ⟨rfl, by simp [mode]⟩)⟩
  | @resolved run tail mode indented level =>
      exact ⟨run, skips_of_blanks (passes_of_ahead indented.split rfl rfl rfl) indented.blank
        (absurd rfl)⟩
  | @blanks run mode kept nonempty =>
      have passes := passes_of_blanks kept
      have hblank := (blank_of_keptRun (passes.rest ▸ kept)).1
      exact ⟨run, skips_of_blanks passes hblank (absurd mode)⟩
  | @openComment body mode split closed =>
      exact ⟨_, skips_of_last (passes_of_ahead (List.append_nil _).symm rfl rfl rfl)
        ⟨[], _, rfl, by simp, Or.inr ⟨body, split, closed⟩⟩⟩

/-! ## Steps that give tokens -/

/-- How a token stands to the place where it is located; `lead` is the text in between. -/
inductive Origin (lexer : Lexer) (token : Token) : List Char → Prop
  | content (kind : token.kind.isLayout = false) : Origin lexer token []
  | newline {lead : List Char} (kind : token.kind = .layout .newline)
      (mode : lexer.mode = .inLine) (nonempty : lexer.cursor.rest ≠ [])
      (ends : ¬ IsContent lexer.cursor.rest) (comment : IsComment lead) : Origin lexer token lead
  | line {lead : List Char} (kind : token.kind = .layout .indent ∨ token.kind = .layout .dedent)
      (mode : lexer.mode ≠ .inLine) (inside : lead.length < lexer.cursor.rest.length)
      (blank : ∀ c ∈ lead, CharClass.blank.has c) : Origin lexer token lead
  | ending (kind : token.kind = .layout .dedent ∨ token.kind = .layout .eof)
      (ended : lexer.cursor.rest = []) : Origin lexer token []

/-- A step that gives a token, over `lead` and the text of the token. -/
structure Gives (lexer left : Lexer) (token : Token) (lead : List Char) : Prop where
  passes : Passes lexer left (lead ++ token.text.toList)
  trivia : Trivia lead (token.text.toList ++ left.cursor.rest)
  restarts : Restarts lexer left (lead ++ token.text.toList)
  inner : '\n' ∉ lead
  /-- The text of a token is not made of carriage returns. -/
  visible : token.text.toList ≠ [] → ∃ c ∈ token.text.toList, c ≠ '\r'
  location : token.location = lexer.here
  origin : Origin lexer token lead
  /-- Only a line break leads to the start of a line. -/
  resumes : left.mode = .lineStart → token.kind = .layout .newline ∨ left.cursor.rest = []
  eof : token.isEof → left.cursor.rest = [] ∧ token.text = ""

/-- A token without a text. -/
theorem gives_of_silent {token : Token} {lead : List Char} (htext : token.text = "")
    (passes : Passes lexer left lead) (blank : ∀ c ∈ lead, CharClass.blank.has c)
    (restarts : Restarts lexer left lead) (location : token.location = lexer.here)
    (origin : Origin lexer token lead) (stays : left.mode = .lineStart → left.cursor.rest = [])
    (eof : token.isEof → left.cursor.rest = []) : Gives lexer left token lead := by
  have hnil : token.text.toList = [] := by rw [htext]; rfl
  have happend : lead ++ token.text.toList = lead := by rw [hnil, List.append_nil]
  refine ⟨happend.symm ▸ passes, trivia_of_blank blank _, happend.symm ▸ restarts,
    not_mem_of_blank blank, absurd hnil, location, origin, fun h => Or.inr (stays h),
    fun h => ⟨eof h, htext⟩⟩

/-- A token with a text, which is not the last one. -/
theorem gives_of_text {token : Token} {lead text : List Char} (htext : token.text.toList = text)
    (passes : Passes lexer left (lead ++ text)) (trivia : Trivia lead (text ++ left.cursor.rest))
    (restarts : Restarts lexer left (lead ++ text)) (inner : '\n' ∉ lead)
    (visible : text ≠ [] → ∃ c ∈ text, c ≠ '\r') (location : token.location = lexer.here)
    (origin : Origin lexer token lead)
    (resumes : left.mode = .lineStart → token.kind = .layout .newline)
    (eof : ¬ token.isEof) : Gives lexer left token lead := by
  subst htext
  exact ⟨passes, trivia, restarts, inner, visible, location, origin, fun h => Or.inl (resumes h),
    fun h => absurd h eof⟩

/-- A step that closes a block for a line is taken in front of a line with lexemes. -/
def ClosesForContent (lexer : Lexer) : Prop :=
  lexer.mode = .dedent → ∃ run tail, Indented lexer.cursor.rest run tail ∧ IsContent tail

theorem ClosesForContent.isContent {run tail : List Char} (closes : lexer.ClosesForContent)
    (mode : lexer.mode = .dedent) (indented : Indented lexer.cursor.rest run tail) :
    IsContent tail := by
  obtain ⟨run', tail', indented', content⟩ := closes mode
  rwa [← indented'.dropWhile_eq, indented.dropWhile_eq] at content

/-- A step that gives a token passes over its text. -/
theorem exists_gives {token : Token} (h : Transition lexer (.ok (some token) left))
    (closes : lexer.ClosesForContent) : ∃ lead, Gives lexer left token lead := by
  have stays : Passes lexer lexer [] := .refl lexer
  cases h with
  | closeAtEnd mode ended opened =>
      exact ⟨[], gives_of_silent rfl ⟨rfl, stays.before, rfl, rfl, rfl⟩ (by simp)
        (fun _ => Or.inl ended) rfl (.ending (Or.inl rfl) ended) (fun _ => ended) fun _ => ended⟩
  | finish mode ended opened =>
      exact ⟨[], gives_of_silent rfl ⟨rfl, stays.before, rfl, rfl, rfl⟩ (by simp)
        (fun _ => Or.inl ended) rfl (.ending (Or.inr rfl) ended) (fun _ => ended) fun _ => ended⟩
  | @indent run tail level mode indented begins reaches deeper =>
      exact ⟨run, gives_of_silent rfl (passes_of_ahead indented.split rfl rfl rfl) indented.blank
        (absurd rfl) rfl
        (.line (Or.inl rfl) (by simp [mode]) (indented.length_lt begins) indented.blank)
        (fun h => by simp [noting, entering] at h) fun h => by simp [mark, Token.isEof] at h⟩
  | dedent mode indented reaches opened shallower =>
      obtain ⟨run', tail', indented', begins⟩ := closes mode
      exact ⟨[], gives_of_silent rfl ⟨rfl, stays.before, rfl, rfl, rfl⟩ (by simp)
        (fun _ => Or.inr (Or.inl ⟨rfl, by simp [mode]⟩)) rfl
        (.line (Or.inr rfl) (by simp [mode]) (Nat.zero_lt_of_lt (indented'.length_lt begins))
          (by simp))
        (fun h => absurd (mode.symm.trans h) (by decide)) fun h => by simp [mark, Token.isEof] at h⟩
  | @newline comment before more mode ends =>
      have hsplit := ends.split_break
      have passes : Passes lexer ((lexer.ahead
          (comment.length + (before ++ '\n' :: leadingReturn more).length)).entering .lineStart)
          (comment ++ (before ++ '\n' :: leadingReturn more)) :=
        passes_of_ahead hsplit (by rw [@List.length_append _ comment]; rfl) rfl rfl
      have hends : EndsLine ((before ++ '\n' :: leadingReturn more) ++
          more.drop (leadingReturn more).length) := by
        rcases ends.isReturn with ⟨rfl, -⟩ | rfl <;> exact Or.inr rfl
      rw [← List.append_cancel_left (passes.rest.symm.trans hsplit)] at hends
      refine ⟨comment, gives_of_text String.toList_ofList passes
        (trivia_of_isComment ends.isComment hends) (fun _ => Or.inr (Or.inr ?_))
        ends.isComment.not_mem (fun _ => ⟨'\n', by simp, by simp⟩) rfl
        (.newline rfl mode (by simp [ends.split]) ends.not_isContent ends.isComment) (fun _ => rfl)
        fun h => by simp [mark, Token.isEof] at h⟩
      exact ⟨comment ++ before, more, ends.not_mem, by simp⟩
  | @lexeme shape _ mode begins found read =>
      have longest := isLongest_of_longest? found
      have htext : token.text.toList = shape.text := by
        rw [Shape.text_of_read read, String.toList_ofList]
      have passes : Passes lexer _ shape.text := passes_of_shape longest.prefixed
      exact ⟨[], gives_of_text htext passes (.nil _) (absurd mode) (by simp)
        (fun _ => Shape.exists_ne_return longest.valid) (Shape.location_of_read read)
        (.content (Shape.isLayout_of_read read))
        (fun h => absurd (mode.symm.trans h) (by decide))
        fun h => by simp [Shape.isEof_of_read read] at h⟩

end Offside.Lexer
