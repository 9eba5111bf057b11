import Mathlib.Data.List.Basic
import Offside.Lexer.Step
import Offside.Proofs.Cursor.Runs
import Offside.Proofs.Lexeme.Front

/-!
# Lines of text

The words in which the lexer's steps are described: the run of blanks that a line begins with,
comments, lines that hold nothing else, and the carriage returns around a line feed that belong to
the line break.  Everything here is about texts alone.
-/

namespace Offside.Lines

/-- The carriage return that `text` begins with, if it does. -/
def leadingReturn : List Char → List Char
  | '\r' :: _ => ['\r']
  | _ => []

/-- Nothing, or a comment that is not ended by a line feed. -/
def IsComment (text : List Char) : Prop :=
  text = [] ∨ ∃ body, text = commentMark :: body ∧ '\n' ∉ body

/-- A line of blanks and perhaps a comment, without its line feed. -/
def IsBlank (line : List Char) : Prop :=
  ∃ run comment, line = run ++ comment ∧ (∀ c ∈ run, CharClass.blank.has c) ∧ IsComment comment

/-- A text that begins with a lexeme, if with anything sensible. -/
def IsContent (text : List Char) : Prop :=
  ∃ c rest, text = c :: rest ∧ CharClass.blank.has c = false ∧ c ≠ '\n' ∧ c ≠ commentMark

/-- `run` is the whole run of blanks that `text` begins with, and `tail` is the rest. -/
structure Indented (text run tail : List Char) : Prop where
  split : text = run ++ tail
  blank : ∀ c ∈ run, CharClass.blank.has c
  stops : ∀ c rest, tail = c :: rest → CharClass.blank.has c = false

theorem Indented.prefixed {text run tail : List Char} (h : Indented text run tail) :
    run <+: text :=
  ⟨tail, h.split.symm⟩

theorem leadingReturn_append (text : List Char) :
    leadingReturn text ++ text.drop (leadingReturn text).length = text := by
  unfold leadingReturn
  split <;> rfl

/-- A line feed takes the carriage return behind it into the line break. -/
theorem append_feed_eq (line more : List Char) :
    line ++ '\n' :: more =
      (line ++ '\n' :: leadingReturn more) ++ more.drop (leadingReturn more).length := by
  rw [List.append_assoc, List.cons_append, leadingReturn_append]

theorem length_lineBreak (line more : List Char) :
    (line ++ '\n' :: leadingReturn more).length =
      line.length + 1 + (leadingReturn more).length := by
  rw [List.length_append, List.length_cons]
  omega

theorem leadingReturn_eq_nil {text : List Char} (h : text.head? ≠ some '\r') :
    leadingReturn text = [] := by
  unfold leadingReturn
  split
  · exact absurd rfl h
  · rfl

theorem eq_of_mem_leadingReturn {text : List Char} {c : Char} (h : c ∈ leadingReturn text) :
    c = '\r' := by
  unfold leadingReturn at h
  split at h
  · simpa using h
  · simp at h

theorem blank_of_mem_leadingReturn (text : List Char) :
    ∀ c ∈ leadingReturn text, CharClass.blank.has c := by
  intro c hc
  rw [eq_of_mem_leadingReturn hc]
  decide

theorem indentation_eq_blank : CharClass.indentation.has = CharClass.blank.has := rfl

theorem eq_of_blank {c : Char} (h : CharClass.blank.has c) : c = ' ' ∨ c = '\t' ∨ c = '\r' := by
  simpa [CharClass.has, or_assoc] using h

theorem ne_feed_of_blank {c : Char} (h : CharClass.blank.has c) : c ≠ '\n' := by
  rintro rfl
  exact absurd h (by decide)

theorem not_mem_of_blank {run : List Char} (h : ∀ c ∈ run, CharClass.blank.has c) :
    '\n' ∉ run := fun hmem => ne_feed_of_blank (h '\n' hmem) rfl

theorem IsComment.not_mem {comment : List Char} (h : IsComment comment) : '\n' ∉ comment := by
  rcases h with rfl | ⟨body, rfl, hbody⟩
  · simp
  · simpa [commentMark] using hbody

theorem IsBlank.not_mem {line : List Char} (h : IsBlank line) : '\n' ∉ line := by
  obtain ⟨run, comment, rfl, hrun, hcomment⟩ := h
  simpa using ⟨not_mem_of_blank hrun, hcomment.not_mem⟩

theorem IsContent.append {text : List Char} (h : IsContent text) (more : List Char) :
    IsContent (text ++ more) := by
  obtain ⟨c, rest, rfl, hc⟩ := h
  exact ⟨c, rest ++ more, rfl, hc⟩

theorem IsContent.of_append {text more : List Char} (h : IsContent (text ++ more))
    (nonempty : text ≠ []) : IsContent text := by
  obtain ⟨c, rest, rfl⟩ := List.exists_cons_of_ne_nil nonempty
  obtain ⟨d, rest', heq, hd⟩ := h
  obtain ⟨rfl, -⟩ := List.cons.inj heq
  exact ⟨c, rest, rfl, hd⟩

/-! ## Runs of blanks -/

namespace Indented

variable {text run tail : List Char}

theorem takeWhile_eq (h : Indented text run tail) :
    text.takeWhile CharClass.indentation.has = run := by
  rw [h.split, indentation_eq_blank, List.takeWhile_append_of_pos h.blank]
  cases htail : tail with
  | nil => simp
  | cons c rest => simp [h.stops c rest htail]

theorem dropWhile_eq (h : Indented text run tail) :
    text.dropWhile CharClass.indentation.has = tail := by
  have hsplit := List.takeWhile_append_dropWhile (p := CharClass.indentation.has) (l := text)
  rw [h.takeWhile_eq] at hsplit
  exact List.append_cancel_left (hsplit.trans h.split)

theorem getElem?_eq (h : Indented text run tail) : text[run.length]? = tail.head? := by
  rw [h.split, List.getElem?_append_right (Nat.le_refl _), Nat.sub_self, List.head?_eq_getElem?]

/-- The blanks that a line begins with are in front of any lexeme in it. -/
theorem prefix_of_isContent {before behind : List Char} (h : Indented (before ++ behind) run tail)
    (content : IsContent behind) : run <+: before := by
  have hrun : run <+: before ++ behind := ⟨tail, h.split.symm⟩
  rcases List.prefix_or_prefix_of_prefix hrun (List.prefix_append before behind) with
    hprefix | ⟨more, rfl⟩
  · exact hprefix
  · cases more with
    | nil => simp
    | cons c more =>
        obtain ⟨d, rest, rfl, hblank, -, -⟩ := content
        have hsplit := h.split
        rw [List.append_assoc] at hsplit
        obtain ⟨rfl, -⟩ := List.cons.inj (List.append_cancel_left hsplit)
        have hd := h.blank d (by simp)
        simp [hblank] at hd

theorem length_lt (h : Indented text run tail) (content : IsContent tail) :
    run.length < text.length := by
  obtain ⟨c, rest, rfl, -⟩ := content
  simp [h.split]

theorem ne_nil (h : Indented text run tail) (content : IsContent tail) : text ≠ [] :=
  List.ne_nil_of_length_pos (Nat.zero_lt_of_lt (h.length_lt content))

end Indented

/-- Every text begins with a run of blanks, perhaps an empty one. -/
theorem indented_takeWhile (text : List Char) :
    Indented text (text.takeWhile CharClass.indentation.has)
      (text.dropWhile CharClass.indentation.has) where
  split := List.takeWhile_append_dropWhile.symm
  blank c hc := List.all_eq_true.mp List.all_takeWhile c hc
  stops c rest h := by
    have hhead := List.head?_dropWhile_not CharClass.indentation.has text
    rw [h, indentation_eq_blank] at hhead
    simpa using hhead

theorem indented_of_isContent {run tail : List Char} (hrun : ∀ c ∈ run, CharClass.blank.has c)
    (htail : IsContent tail) : Indented (run ++ tail) run tail := by
  obtain ⟨c, rest, rfl, hc, -⟩ := htail
  refine ⟨rfl, hrun, fun d more h => ?_⟩
  rw [← (List.cons.inj h).1]
  exact hc

/-! ## Line feeds -/

theorem lineFeed?_append {line more : List Char} (h : '\n' ∉ line) :
    Lexeme.lineFeed? (line ++ '\n' :: more) = some line.length := by
  have hnone : line.findIdx? (· == '\n') = none := by
    rw [List.findIdx?_eq_none_iff]
    intro c hc
    simpa using fun heq : c = '\n' => h (heq ▸ hc)
  simp [Lexeme.lineFeed?, List.findIdx?_append, hnone, List.findIdx?_cons]

theorem lineFeed?_eq_none {text : List Char} (h : '\n' ∉ text) : Lexeme.lineFeed? text = none := by
  rw [Lexeme.lineFeed?, List.findIdx?_eq_none_iff]
  intro c hc
  simpa using fun heq : c = '\n' => h (heq ▸ hc)

/-- The only line feed of a text is where the text splits. -/
theorem eq_of_append_feed {line rest front behind : List Char} (hline : '\n' ∉ line)
    (hrest : '\n' ∉ rest) (h : line ++ '\n' :: rest = front ++ '\n' :: behind) : line = front := by
  rcases List.append_eq_append_iff.mp h with ⟨more, hfront, htail⟩ | ⟨more, hfront, htail⟩
  · cases more with
    | nil => simpa using hfront.symm
    | cons c more =>
        rw [List.cons_append] at htail
        exact absurd (by simp [(List.cons.inj htail).2]) hrest
  · cases more with
    | nil => simpa using hfront
    | cons c more =>
        obtain ⟨rfl, -⟩ := List.cons.inj htail
        exact absurd (by simp [hfront]) hline

/-- A text has no line feed, or it has a first one. -/
theorem exists_lineFeed (text : List Char) :
    '\n' ∉ text ∨ ∃ line more, text = line ++ '\n' :: more ∧ '\n' ∉ line := by
  by_cases hmem : '\n' ∈ text
  · exact Or.inr (List.eq_append_cons_of_mem hmem)
  · exact Or.inl hmem

/-- A line that does not lead to a lexeme holds none. -/
theorem Indented.isBlank_of_not_isContent {text run tail : List Char}
    (h : Indented text run tail) (content : ¬ IsContent tail) :
    IsBlank text ∨ ∃ line more, text = line ++ '\n' :: more ∧ IsBlank line := by
  cases tail with
  | nil => exact Or.inl ⟨run, [], h.split, h.blank, Or.inl rfl⟩
  | cons c rest =>
      by_cases hfeed : c = '\n'
      · exact Or.inr ⟨run, rest, hfeed ▸ h.split, run, [], by simp, h.blank, Or.inl rfl⟩
      by_cases hmark : c = commentMark
      · rcases exists_lineFeed rest with hlast | ⟨body, more, hrest, hbody⟩
        · exact Or.inl ⟨run, c :: rest, h.split, h.blank, Or.inr ⟨rest, by rw [hmark], hlast⟩⟩
        · refine Or.inr ⟨run ++ commentMark :: body, more, ?_, run, commentMark :: body, rfl,
            h.blank, Or.inr ⟨body, rfl, hbody⟩⟩
          simp [h.split, hrest, hmark]
      · exact absurd ⟨c, rest, rfl, h.stops c rest rfl, hfeed, hmark⟩ content

/-- So a line of which no lexeme follows the blanks holds none. -/
theorem Indented.isBlank {line run tail : List Char} (h : Indented line run tail)
    (htail : '\n' ∉ tail) (content : ¬ IsContent tail) : IsBlank line := by
  rcases h.isBlank_of_not_isContent content with blank | ⟨front, more, hfeed, -⟩
  · exact blank
  · have hline : '\n' ∉ run ++ tail := List.not_mem_append (not_mem_of_blank h.blank) htail
    rw [← h.split, hfeed] at hline
    exact absurd (List.mem_append_right front (List.mem_cons_self ..)) hline

/-- A text is a line without lexemes, or begins with one, or has a lexeme behind its blanks. -/
theorem text_cases (text : List Char) :
    IsBlank text ∨ (∃ line more, text = line ++ '\n' :: more ∧ IsBlank line) ∨
      ∃ run tail, Indented text run tail ∧ IsContent tail := by
  have indented := indented_takeWhile text
  by_cases content : IsContent (text.dropWhile CharClass.indentation.has)
  · exact Or.inr (Or.inr ⟨_, _, indented, content⟩)
  · exact (indented.isBlank_of_not_isContent content).imp_right Or.inl

/-- A line has no lexeme, or its first one is behind its blanks. -/
theorem line_cases {line : List Char} (h : '\n' ∉ line) :
    IsBlank line ∨ ∃ run body, Indented line run body ∧ IsContent body ∧ '\n' ∉ body := by
  rcases text_cases line with blank | ⟨front, more, split, -⟩ | ⟨run, body, indented, content⟩
  · exact Or.inl blank
  · exact absurd (by simp [split]) h
  · exact Or.inr ⟨run, body, indented, content, fun hmem => h (by simp [indented.split, hmem])⟩

/-- What a text inside a line can begin with. -/
theorem front_cases (text : List Char) :
    text = [] ∨ IsContent text ∨ Cursor.keptRun Lexer.isInnerBlank text ≠ [] ∨
      (∃ body, text = commentMark :: body) ∨ Lexeme.atLineBreak text := by
  cases text with
  | nil => exact Or.inl rfl
  | cons c rest =>
      right
      by_cases hmark : c = commentMark
      · exact Or.inr (Or.inr (Or.inl ⟨rest, by rw [hmark]⟩))
      by_cases hbreak : Lexeme.atLineBreak (c :: rest) = true
      · exact Or.inr (Or.inr (Or.inr hbreak))
      have hfeed : c ≠ '\n' := by
        rintro rfl
        exact hbreak rfl
      cases hblank : CharClass.blank.has c with
      | false => exact Or.inl ⟨c, rest, rfl, hblank, hfeed, hmark⟩
      | true =>
          have hinner : Lexer.isInnerBlank c rest.head? = true := by
            rw [Lexer.isInnerBlank, hblank]
            cases rest with
            | nil => simp
            | cons d rest =>
                by_contra hinner
                obtain ⟨rfl, rfl⟩ : c = '\r' ∧ d = '\n' := by simpa using hinner
                exact hbreak rfl
          rw [Cursor.keptRun_cons_of_keep hinner]
          exact Or.inr (Or.inl (List.cons_ne_nil _ _))

/-- The blanks that are skipped inside a line are blanks, and a carriage return is not the last of
them if a line feed follows. -/
theorem blank_of_keptRun {run tail : List Char}
    (h : Cursor.keptRun Lexer.isInnerBlank (run ++ tail) = run) :
    (∀ c ∈ run, CharClass.blank.has c) ∧
      (tail.head? = some '\n' → run.getLast? ≠ some '\r') := by
  refine ⟨?_, ?_⟩
  · intro c hc
    obtain ⟨front, more, rfl⟩ := List.append_of_mem hc
    have hinner := Cursor.keep_of_keptRun h
    exact (Bool.and_eq_true_iff.mp hinner).1
  · intro hfeed hlast
    obtain ⟨front, rfl⟩ := List.getLast?_eq_some_iff.mp hlast
    have hinner := Cursor.keep_of_keptRun h
    rw [List.nil_append, hfeed] at hinner
    exact absurd hinner (by decide)

/-- What the rest of a line can begin with: it is at its end, or at a lexeme, or at blanks that are
skipped inside a line. -/
theorem rest_cases {body tail : List Char} (hbody : '\n' ∉ body) (htail : Lexeme.IsLineTail tail) :
    (body = [] ∨ body.head? = some commentMark ∨ body = ['\r'] ∧ tail ≠ []) ∨ IsContent body ∨
      ∃ run rest, body = run ++ rest ∧ run ≠ [] ∧
        Cursor.keptRun Lexer.isInnerBlank (body ++ tail) = run := by
  cases body with
  | nil => exact Or.inl (Or.inl rfl)
  | cons c rest =>
      by_cases hmark : c = commentMark
      · exact Or.inl (Or.inr (Or.inl (congrArg some hmark)))
      have hfeed : c ≠ '\n' := fun heq => hbody (heq ▸ List.mem_cons_self ..)
      cases hblank : CharClass.blank.has c with
      | false => exact Or.inr (Or.inl ⟨c, rest, rfl, hblank, hfeed, hmark⟩)
      | true =>
          by_cases hinner : Lexer.isInnerBlank c (rest ++ tail).head? = true
          · have hrun := Cursor.keptRun_cons_of_keep hinner
            have hfront := Cursor.keptRun_prefix Lexer.isInnerBlank (c :: rest ++ tail)
            obtain ⟨behind, hbehind⟩ := id hfront
            have hkept := (blank_of_keptRun (congrArg (Cursor.keptRun _) hbehind)).1
            obtain ⟨more, hmore⟩ :=
              Lexeme.prefix_of_lineTail htail (not_mem_of_blank hkept) hfront
            exact Or.inr (Or.inr ⟨_, more, hmore.symm, by simp [hrun], rfl⟩)
          · obtain ⟨rfl, hhead⟩ : c = '\r' ∧ (rest ++ tail).head? = some '\n' := by
              rw [Lexer.isInnerBlank, hblank] at hinner
              simpa only [Bool.true_and, Bool.not_eq_true, Bool.not_eq_false', Bool.and_eq_true,
                beq_iff_eq] using hinner
            cases rest with
            | nil =>
                rw [List.nil_append] at hhead
                have hne : tail ≠ [] := by
                  rintro rfl
                  simp at hhead
                exact Or.inl (Or.inr (Or.inr ⟨rfl, hne⟩))
            | cons d rest =>
                obtain rfl : d = '\n' := Option.some.inj hhead
                simp at hbody

/-- A rest of a line that begins with no lexeme is a comment, if anything. -/
theorem head_of_not_isContent {text run tail : List Char} (h : Indented text run tail)
    (hfeed : '\n' ∉ text) (content : ¬ IsContent tail) :
    tail = [] ∨ tail.head? = some commentMark := by
  cases tail with
  | nil => exact Or.inl rfl
  | cons c rest =>
      right
      by_contra hmark
      have hc : c ≠ '\n' := by
        rintro rfl
        exact hfeed (by simp [h.split])
      exact content ⟨c, rest, rfl, h.stops c rest rfl, hc, fun heq => hmark (congrArg some heq)⟩

/-- What follows the blanks of a line without lexemes is a comment, if anything. -/
theorem IsBlank.head_dropWhile {line : List Char} (h : IsBlank line) :
    line.dropWhile CharClass.blank.has = [] ∨
      (line.dropWhile CharClass.blank.has).head? = some commentMark := by
  obtain ⟨run, comment, rfl, hrun, hcomment⟩ := h
  have indented : Indented (run ++ comment) run comment := by
    refine ⟨rfl, hrun, fun c rest hc => ?_⟩
    rcases hcomment with rfl | ⟨body, rfl, -⟩
    · simp at hc
    · rw [← (List.cons.inj hc).1]
      decide
  rw [← indentation_eq_blank, indented.dropWhile_eq]
  rcases hcomment with rfl | ⟨body, rfl, -⟩
  · exact Or.inl rfl
  · exact Or.inr rfl

/-- The end of a line: perhaps a comment, perhaps a carriage return, and the line feed.  A carriage
return right before the line feed belongs to the line break and not to the comment. -/
structure IsEnd (text comment before more : List Char) : Prop where
  split : text = comment ++ before ++ '\n' :: more
  isComment : IsComment comment
  isReturn : before = [] ∧ comment.getLast? ≠ some '\r' ∨ before = ['\r']

/-- The end of a line begins with a comment or with the line break. -/
theorem IsEnd.begins {text comment before more : List Char}
    (ends : IsEnd text comment before more) :
    (∃ body, text = commentMark :: body) ∨ Lexeme.atLineBreak text := by
  rcases ends.isComment with rfl | ⟨body, rfl, -⟩
  · right
    rcases ends.isReturn with ⟨rfl, -⟩ | rfl <;> rw [ends.split] <;> rfl
  · exact Or.inl ⟨body ++ before ++ '\n' :: more, by simp [ends.split]⟩

theorem IsEnd.split_break {text comment before more : List Char}
    (ends : IsEnd text comment before more) :
    text = (comment ++ (before ++ '\n' :: leadingReturn more)) ++
      more.drop (leadingReturn more).length := by
  rw [ends.split, append_feed_eq, List.append_assoc comment]

theorem IsEnd.not_mem {text comment before more : List Char}
    (ends : IsEnd text comment before more) : '\n' ∉ comment ++ before := by
  apply List.not_mem_append ends.isComment.not_mem
  rcases ends.isReturn with ⟨rfl, -⟩ | rfl <;> simp

/-- A line does not end in front of a lexeme. -/
theorem IsEnd.not_isContent {text comment before more : List Char}
    (ends : IsEnd text comment before more) : ¬ IsContent text := by
  rintro ⟨c, rest, rfl, hblank, hfeed, hmark⟩
  rcases ends.begins with ⟨body, hbody⟩ | hbreak
  · exact hmark (List.cons.inj hbody).1
  · unfold Lexeme.atLineBreak at hbreak
    split at hbreak
    · next heq => exact hfeed (List.cons.inj heq).1
    · next heq =>
        rw [(List.cons.inj heq).1] at hblank
        exact absurd hblank (by decide)
    · exact Bool.false_ne_true hbreak

theorem isEnd_of_comment {line more : List Char} (hmem : '\n' ∉ line)
    (hmark : line.head? = some commentMark) :
    ∃ comment before, IsEnd (line ++ '\n' :: more) comment before more ∧ comment ≠ [] ∧
      comment.length =
        if line.getLast? = some '\r' then line.length - 1 else line.length := by
  obtain ⟨body, rfl⟩ := List.head?_eq_some_iff.mp hmark
  by_cases hlast : (commentMark :: body).getLast? = some '\r'
  · obtain ⟨kept, hkept⟩ := List.getLast?_eq_some_iff.mp hlast
    refine ⟨kept, ['\r'], ⟨by rw [hkept], ?_, Or.inr rfl⟩, ?_, by rw [if_pos hlast, hkept]; simp⟩
    · cases kept with
      | nil => exact Or.inl rfl
      | cons c kept =>
          rw [hkept] at hmem
          obtain ⟨rfl, -⟩ := List.cons.inj hkept
          have hkept : '\n' ∉ kept := fun h => hmem (by simp [h])
          exact Or.inr ⟨kept, rfl, hkept⟩
    · rintro rfl
      simp [commentMark] at hkept
  · have hbody : '\n' ∉ body := fun h => hmem (List.mem_cons_of_mem _ h)
    exact ⟨commentMark :: body, [], ⟨by simp, Or.inr ⟨body, rfl, hbody⟩, Or.inl ⟨rfl, hlast⟩⟩,
      by simp, by rw [if_neg hlast]⟩

/-- The carriage return that belongs to the line break of a line is its last character. -/
theorem IsEnd.eq_of_split {stop comment before more : List Char}
    (ends : IsEnd (stop ++ '\n' :: more) comment before more) :
    stop = comment ++ before ∧ before = if stop.getLast? = some '\r' then ['\r'] else [] := by
  have hstop : stop = comment ++ before := List.append_cancel_right ends.split
  refine ⟨hstop, ?_⟩
  rcases ends.isReturn with ⟨rfl, hlast⟩ | rfl
  · rw [if_neg (by simpa [hstop] using hlast)]
  · rw [if_pos (by simp [hstop])]

/-- Where the lexemes of a line end, the line ends. -/
theorem exists_isEnd {stop more : List Char} (hstop : '\n' ∉ stop)
    (ends : stop = [] ∨ stop.head? = some commentMark ∨ stop = ['\r']) :
    ∃ comment before, IsEnd (stop ++ '\n' :: more) comment before more := by
  rcases ends with rfl | hmark | rfl
  · exact ⟨[], [], rfl, Or.inl rfl, Or.inl ⟨rfl, by simp⟩⟩
  · obtain ⟨comment, before, ends, -⟩ := @isEnd_of_comment stop more hstop hmark
    exact ⟨comment, before, ends⟩
  · exact ⟨[], ['\r'], rfl, Or.inl rfl, Or.inr rfl⟩

theorem isEnd_of_atLineBreak {text : List Char} (h : Lexeme.atLineBreak text) :
    ∃ before more, IsEnd text [] before more := by
  unfold Lexeme.atLineBreak at h
  split at h
  · next more => exact ⟨[], more, rfl, Or.inl rfl, Or.inl ⟨rfl, by simp⟩⟩
  · next more => exact ⟨['\r'], more, rfl, Or.inl rfl, Or.inr rfl⟩
  · simp at h

end Offside.Lines
