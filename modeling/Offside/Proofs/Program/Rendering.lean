import Mathlib.Data.List.Basic
import Mathlib.Tactic.Ring
import Offside.Proofs.Lines.Agreement
import Offside.Proofs.Program.Basic

/-!
# Lexing undoes rendering

The text of a program is read to the tokens of the program, whatever unit its lines are indented by
and whatever blanks stand between its lexemes (`gists_of_render`).

## Strategy

The text falls apart at its line feeds into the texts of the lines.  In front of each line the open
blocks are those of the line before, and the columns of blocks are those of one unit, of two, and so
on (`columns`), so the marks of a line follow from its depth and from that of the line before
(`arrange_columns`).  Behind the marks a line is read lexeme by lexeme, each standing in front of a
blank or at the end of the line.
-/

namespace Offside.Program

open Lexeme Lines

variable {settings : Settings} {name : String} {unit : List Char} {final : Bool}

/-! ## Columns -/

theorem blank_of_isUnit (h : IsUnit unit) : ∀ c ∈ unit, CharClass.blank.has c := by
  rcases h with ⟨count, -, rfl⟩ | rfl
  · intro c hc
    rw [List.eq_of_mem_replicate hc]
    decide
  · exact List.forall_mem_singleton.mpr (by decide)

/-- One unit adds its width to any number of widths. -/
def IsWide (settings : Settings) (unit : List Char) (width : Int) : Prop :=
  ∀ count : ℕ, unit.foldlM (Indentation.widened settings.tabWidth) (count * width) =
    .ok (count * width + width)

theorem exists_isWide (settings : Settings) (h : IsUnit unit) :
    ∃ width : Int, 0 < width ∧ IsWide settings unit width := by
  rcases h with ⟨count, positive, rfl⟩ | rfl
  · exact ⟨count, Int.natCast_pos.mpr positive,
      fun start => Indentation.foldlM_widened_spaces _ _ count⟩
  · refine ⟨settings.tabWidth, settings.tabWidth_pos, fun start => ?_⟩
    rw [List.foldlM_cons, Indentation.widened_tab settings.tabWidth_pos]
    rfl

theorem foldlM_widened_units {width : Int} (h : IsWide settings unit width) (depth start : ℕ) :
    (List.replicate depth unit).flatten.foldlM (Indentation.widened settings.tabWidth)
      (start * width) = .ok ((start + depth : ℕ) * width) := by
  induction depth generalizing start with
  | zero => rfl
  | succ depth ih =>
      have hnext : (start * width + width : Int) = (start + 1 : ℕ) * width := by
        push_cast
        ring
      rw [List.replicate_succ, List.flatten_cons, List.foldlM_append, h, hnext]
      show (List.replicate depth unit).flatten.foldlM _ _ = _
      rw [ih, Nat.add_right_comm, Nat.add_assoc]

/-- Units reach the columns that are as many widths behind the first. -/
theorem column_units {width : Int} (h : IsWide settings unit width) (depth : ℕ) :
    Indentation.column settings.tabWidth (List.replicate depth unit).flatten =
      .ok (1 + depth * width) := by
  have htotal := foldlM_widened_units h depth 0
  rw [Nat.cast_zero, Int.zero_mul, Nat.zero_add] at htotal
  rw [Indentation.column, htotal, Int.add_comm]
  rfl

/-- The columns of blocks that are each one unit deeper than the one around it, the innermost
first. -/
def columns (width : Int) : ℕ → List Int
  | 0 => []
  | depth + 1 => (1 + (depth + 1 : ℕ) * width) :: columns width depth

theorem top_columns (width : Int) (depth : ℕ) :
    Levels.top ⟨columns width depth⟩ = 1 + depth * width := by
  cases depth with
  | zero => simp [columns, Levels.top, Levels.base]
  | succ depth => rfl

@[simp] theorem length_columns (width : Int) (depth : ℕ) :
    (columns width depth).length = depth := by
  induction depth with
  | zero => rfl
  | succ depth ih => rw [columns, List.length_cons, ih]

/-- A line closes the blocks that are deeper. -/
theorem dropWhile_columns {width : Int} (positive : 0 < width) {depth previous : ℕ}
    (h : depth ≤ previous) :
    (columns width previous).dropWhile (1 + depth * width < ·) = columns width depth := by
  induction previous with
  | zero =>
      obtain rfl := Nat.le_zero.mp h
      rfl
  | succ previous ih =>
      rcases Nat.of_le_succ h with hle | rfl
      · have hdeeper : (1 + depth * width : Int) < 1 + (previous + 1 : ℕ) * width := by
          have hlt : (depth : Int) < (previous + 1 : ℕ) := by omega
          have := Int.mul_lt_mul_of_pos_right hlt positive
          omega
        rw [columns, List.dropWhile_cons_of_pos (by simpa using hdeeper)]
        exact ih hle
      · rw [columns, List.dropWhile_cons_of_neg (by simp)]

/-- A line of some depth leaves as many blocks open. -/
theorem exists_arrange_columns {width : Int} (positive : 0 < width) {depth previous : ℕ}
    (h : depth ≤ previous + 1) :
    ∃ marks, arrange ⟨columns width previous⟩ (1 + depth * width) =
      (marks, ⟨columns width depth⟩) := by
  unfold arrange
  rw [top_columns]
  by_cases hle : depth ≤ previous
  · have hmul := Int.mul_le_mul_of_nonneg_right (Int.ofNat_le.mpr hle) (Int.le_of_lt positive)
    rw [if_neg (by omega), dropWhile_columns positive hle]
    exact ⟨_, rfl⟩
  · obtain rfl : depth = previous + 1 := by omega
    have hlt : (previous : Int) < (previous + 1 : ℕ) := by omega
    have hmul := Int.mul_lt_mul_of_pos_right hlt positive
    rw [if_pos (by omega)]
    exact ⟨_, rfl⟩

/-! ## Lines -/

theorem blank_of_isSeparator {run : List Char} (h : IsSeparator run) :
    ∀ c ∈ run, CharClass.blank.has c := by
  intro c hc
  rcases h.2 c hc with rfl | rfl <;> decide

theorem isSeparated_spread {others : List (List Char × Shape)}
    (separators : ∀ other ∈ others, IsSeparator other.1) : IsSeparated (spread others) := by
  intro c rest hspread
  cases others with
  | nil => simp [spread] at hspread
  | cons other others =>
      have separator := separators other (List.mem_cons_self ..)
      obtain ⟨d, run, hrun⟩ := List.exists_cons_of_ne_nil separator.1
      have hsplit : spread (other :: others) = d :: (run ++ other.2.text ++ spread others) := by
        simp [spread, hrun]
      obtain ⟨rfl, -⟩ := List.cons.inj (hsplit.symm.trans hspread)
      exact blank_of_isSeparator separator d (by simp [hrun])

/-- A lexeme in front of a blank, and then what follows it. -/
theorem exists_contents_of_isSeparated (name : String) (position : Position) {shape : Shape}
    {tail : List Char} (readable : shape.IsReadable settings) (separated : IsSeparated tail) :
    ∃ token, token.gist = shape.gist settings ∧
      contents settings name position (shape.text ++ tail) =
        (contents settings name (position.after settings.tabWidth shape.text) tail).preceded
          [token] := by
  obtain ⟨token, hread⟩ := readable.exists_read (.ofPosition name position)
  have found := longest?_of_isSeparated readable.valid separated
  refine ⟨token, Shape.gist_of_read hread, ?_⟩
  rw [contents_lexeme position ((isContent_text readable.valid).append tail) found, hread,
    List.drop_left]
  rfl

/-- Lexemes with blanks between them are read one after another. -/
theorem exists_contents_spread (name : String) (position : Position) {first : Shape}
    {others : List (List Char × Shape)} (hfirst : first.IsReadable settings)
    (hothers : ∀ other ∈ others, IsSeparator other.1 ∧ other.2.IsReadable settings) :
    ∃ tokens stop, contents settings name position (first.text ++ spread others) =
        ⟨tokens, .ok stop⟩ ∧
      tokens.map Token.gist = (first :: others.map (·.2)).map (Shape.gist settings) := by
  induction others generalizing first position with
  | nil =>
      have separated : IsSeparated (spread []) := by simp [IsSeparated, spread]
      obtain ⟨token, hgist, hcontents⟩ :=
        exists_contents_of_isSeparated name position hfirst separated
      refine ⟨[token], position.after settings.tabWidth first.text, ?_, by simp [hgist]⟩
      rw [hcontents, show spread [] = [] from rfl, contents_nil]
      rfl
  | cons other others ih =>
      have separated := isSeparated_spread fun other hmem => (hothers other hmem).1
      obtain ⟨token, hgist, hcontents⟩ :=
        exists_contents_of_isSeparated name position hfirst separated
      obtain ⟨separator, readable⟩ := hothers other (List.mem_cons_self ..)
      obtain ⟨tokens, stop, hmore, hgists⟩ :=
        ih ((position.after settings.tabWidth first.text).after settings.tabWidth other.1) readable
          fun other hmem => hothers other (List.mem_cons_of_mem _ hmem)
      have hsplit : spread (other :: others) = other.1 ++ (other.2.text ++ spread others) := by
        simp [spread]
      refine ⟨token :: tokens, stop, ?_, by simp [hgist, hgists]⟩
      rw [hcontents, hsplit, contents_blanks _ (blank_of_isSeparator separator), hmore]
      rfl

/-- A rendered line begins with its units, in front of its first lexeme. -/
theorem indented_render {line : Line} (hunit : IsUnit unit) (readable : line.IsReadable settings) :
    Indented (line.render unit) (List.replicate line.depth unit).flatten line.body ∧
      IsContent line.body := by
  have content : IsContent line.body :=
    (isContent_text (readable.shapes _ (List.mem_cons_self ..)).valid).append _
  refine ⟨indented_of_isContent ?_ content, content⟩
  intro c hc
  obtain ⟨copy, hcopy, hc⟩ := List.mem_flatten.mp hc
  rw [List.eq_of_mem_replicate hcopy] at hc
  exact blank_of_isUnit hunit c hc

/-- A rendered line, and then what follows it. -/
theorem exists_readLine_render {width : Int} (hunit : IsUnit unit) (positive : 0 < width)
    (wide : IsWide settings unit width) {line : Line} {previous : ℕ}
    (readable : line.IsReadable settings) (nested : line.depth ≤ previous + 1) (name : String)
    (number : Int) (following : Option (List Char)) (f : Levels → Reading Fault Unit) :
    ∃ tokens, (readLine settings name number ⟨columns width previous⟩ (line.render unit) following
          >>= f) = (f ⟨columns width line.depth⟩).preceded tokens ∧
      tokens.map Token.gist =
        opening previous line.depth ++ line.shapes.map (Shape.gist settings) ++
          (if following.isSome then [.mark .newline] else []) := by
  obtain ⟨indented, content⟩ := indented_render hunit readable
  obtain ⟨marks, arranged⟩ := exists_arrange_columns positive nested
  have hothers : ∀ other ∈ line.others, IsSeparator other.1 ∧ other.2.IsReadable settings := by
    intro other hmem
    have hshape : other.2 ∈ line.shapes := List.mem_cons_of_mem _ (List.mem_map_of_mem hmem)
    exact ⟨readable.separators other hmem, readable.shapes _ hshape⟩
  obtain ⟨lexemes, stop, hcontents, hlexemes⟩ :=
    exists_contents_spread name
      ((⟨number, 1⟩ : Position).after settings.tabWidth (List.replicate line.depth unit).flatten)
      (readable.shapes _ (List.mem_cons_self ..)) hothers
  refine ⟨_, readLine_of_contents indented content (column_units wide line.depth) arranged
    (top_columns width line.depth) hcontents f, ?_⟩
  have hmarks := (opening_of_arrange arranged).1
  simp only [Levels.depth, length_columns] at hmarks
  rw [List.map_append, List.map_append, gist_marks, hmarks, hlexemes, gist_ending]
  rfl

/-- A rendered line holds no line feed. -/
theorem not_mem_render {line : Line} (hunit : IsUnit unit) (readable : line.IsReadable settings) :
    '\n' ∉ line.render unit := by
  intro hmem
  rcases List.mem_append.mp hmem with hmem | hmem
  · have blank := (indented_render hunit readable).1.blank
    exact not_mem_of_blank blank hmem
  rcases List.mem_append.mp hmem with hmem | hmem
  · exact Shape.not_mem_text (readable.shapes _ (List.mem_cons_self ..)).valid hmem
  obtain ⟨other, hother, hmem⟩ := List.mem_flatMap.mp hmem
  rcases List.mem_append.mp hmem with hmem | hmem
  · exact not_mem_of_blank (blank_of_isSeparator (readable.separators other hother)) hmem
  · have hshape := readable.shapes other.2 (List.mem_cons_of_mem _ (List.mem_map_of_mem hother))
    exact Shape.not_mem_text hshape.valid hmem

/-! ## Programs -/

theorem render_singleton (unit : List Char) (final : Bool) (line : Line) :
    render unit final [line] = line.render unit ++ if final then ['\n'] else [] := by
  simp [render]

theorem render_cons_cons (unit : List Char) (final : Bool) (line other : Line) (more : List Line) :
    render unit final (line :: other :: more) =
      line.render unit ++ '\n' :: render unit final (other :: more) := by
  simp [render, List.intercalate_cons_cons]

/-- Behind the last line feed of a text there is one more line, which may be empty. -/
def remainder (final : Bool) : List (List Char) := if final then [[]] else []

theorem append_remainder_ne_nil {more : List Line} (h : final = true ∨ more ≠ []) :
    more.map (Line.render unit) ++ remainder final ≠ [] := by
  rcases h with rfl | h
  · simp [remainder]
  · simp [h]

/-- The lines of a rendered program. -/
theorem splitOn_render (hunit : IsUnit unit) {line : Line} {more : List Line}
    (readable : ∀ other ∈ line :: more, Line.IsReadable settings other) :
    (render unit final (line :: more)).splitOn '\n' =
      (line :: more).map (Line.render unit) ++ remainder final := by
  induction more generalizing line with
  | nil =>
      have hline := not_mem_render hunit (readable line (List.mem_cons_self ..))
      rw [render_singleton]
      cases final with
      | false => simpa [remainder] using List.splitOn_eq_singleton hline
      | true =>
          have hsplit : (line.render unit ++ '\n' :: []).splitOn '\n' =
              line.render unit :: [].splitOn '\n' :=
            List.splitOn_append_cons_self_of_not_mem hline _
          simpa [remainder] using hsplit
  | cons other more ih =>
      have hline := not_mem_render hunit (readable line (List.mem_cons_self ..))
      rw [render_cons_cons, List.splitOn_append_cons_self_of_not_mem hline,
        ih fun line hmem => readable line (List.mem_cons_of_mem _ hmem)]
      rfl

/-- An empty line is passed over. -/
theorem readLine_nil (settings : Settings) (name : String) (number : Int) (levels : Levels)
    (following : Option (List Char)) :
    readLine settings name number levels [] following = pure levels :=
  readLine_blank (Or.inl rfl)

/-- Behind the last line feed only the open blocks are left to be closed. -/
theorem exists_readLines_nil (settings : Settings) (name : String) (number : Int)
    (levels : Levels) :
    ∃ tokens, readLines settings name number levels [[]] = ⟨tokens, .ok ()⟩ ∧
      tokens.map Token.gist = gists settings final levels.depth [] := by
  refine ⟨closing name ⟨number, 1⟩ levels, ?_, gist_closing ..⟩
  rw [readLines, readLine_nil]
  rfl

/-- A line that no line feed ends is the last one. -/
theorem exists_readLines_singleton {width : Int} (hunit : IsUnit unit) (positive : 0 < width)
    (wide : IsWide settings unit width) {line : Line} {previous : ℕ}
    (readable : line.IsReadable settings) (nested : line.depth ≤ previous + 1) (name : String)
    (number : Int) :
    ∃ tokens, readLines settings name number ⟨columns width previous⟩ [line.render unit] =
        ⟨tokens, .ok ()⟩ ∧
      tokens.map Token.gist = gists settings false previous [line] := by
  let stop : Position := (⟨number, 1⟩ : Position).after settings.tabWidth (line.render unit)
  obtain ⟨tokens, hread, htokens⟩ := exists_readLine_render hunit positive wide readable nested name
    number none fun reached => Reading.emit (closing name stop reached)
  refine ⟨tokens ++ closing name stop ⟨columns width line.depth⟩, ?_, ?_⟩
  · rw [readLines]
    exact hread
  · rw [List.map_append, htokens, gist_closing, Levels.depth, length_columns]
    simp [gists]

/-- The lines of a rendered program are read to its tokens. -/
theorem exists_readLines_render {width : Int} (hunit : IsUnit unit) (positive : 0 < width)
    (wide : IsWide settings unit width) {lines : List Line} {previous : ℕ}
    (readable : ∀ line ∈ lines, Line.IsReadable settings line) (nested : Nested previous lines)
    (remains : final = true ∨ lines ≠ []) (name : String) (number : Int) :
    ∃ tokens, readLines settings name number ⟨columns width previous⟩
        (lines.map (Line.render unit) ++ remainder final) = ⟨tokens, .ok ()⟩ ∧
      tokens.map Token.gist = gists settings final previous lines := by
  induction lines generalizing previous number with
  | nil =>
      obtain rfl := remains.resolve_right (absurd rfl)
      obtain ⟨tokens, hread, hgists⟩ :=
        @exists_readLines_nil true settings name number ⟨columns width previous⟩
      rw [Levels.depth, length_columns] at hgists
      exact ⟨tokens, hread, hgists⟩
  | cons line more ih =>
      have hline := readable line (List.mem_cons_self ..)
      by_cases hnext : final = true ∨ more ≠ []
      · -- Another line follows, if only the empty one behind the last line feed.
        obtain ⟨rest, hrest, hgists⟩ :=
          ih (fun other hmem => readable other (List.mem_cons_of_mem _ hmem)) nested.2 hnext
            (number + 1)
        obtain ⟨following, others, hothers⟩ :=
          List.exists_cons_of_ne_nil (append_remainder_ne_nil hnext)
        rw [hothers] at hrest
        obtain ⟨tokens, hread, htokens⟩ := exists_readLine_render hunit positive wide hline
          nested.1 name number (some following) fun reached =>
            readLines settings name (number + 1) reached (following :: others)
        refine ⟨tokens ++ rest, ?_, ?_⟩
        · rw [List.map_cons, List.cons_append, hothers, readLines, hread, hrest]
          rfl
        · rw [List.map_append, htokens, hgists, gists, if_pos hnext]
          rfl
      · obtain ⟨hfinal, hmore⟩ := not_or.mp hnext
        obtain rfl := not_not.mp hmore
        obtain rfl : final = false := by simpa using hfinal
        have hlines : [line].map (Line.render unit) ++ remainder false = [line.render unit] := rfl
        rw [hlines]
        exact exists_readLines_singleton hunit positive wide hline nested.1 name number

/-- The text of a program is read to the tokens of the program. -/
theorem exists_tokenize_render (hunit : IsUnit unit) {lines : List Line}
    (readable : ∀ line ∈ lines, Line.IsReadable settings line) (nested : Nested 0 lines)
    (name : String) (final : Bool) :
    ∃ tokens, Lexer.tokenize settings ⟨String.ofList (render unit final lines), name⟩ = .ok tokens ∧
      tokens.map Token.gist = gists settings final 0 lines := by
  suffices h : ∃ tokens, readLines settings name 1 .initial
      ((render unit final lines).splitOn '\n') = ⟨tokens, .ok ()⟩ ∧
        tokens.map Token.gist = gists settings final 0 lines by
    obtain ⟨tokens, hread, hgists⟩ := h
    refine ⟨tokens, ?_, hgists⟩
    rw [Lexer.tokenize_eq_whole (Lexer.reads_start settings _), Lines.read, String.toList_ofList,
      hread]
    rfl
  -- A text has a first line even if the program has none.
  cases lines with
  | nil =>
      cases final with
      | false => exact exists_readLines_nil settings name 1 .initial
      | true =>
          have hlines : (render unit true []).splitOn '\n' = [[], []] := rfl
          rw [hlines, readLines, readLine_nil]
          exact exists_readLines_nil settings name 2 .initial
  | cons line more =>
      obtain ⟨width, positive, wide⟩ := exists_isWide settings hunit
      rw [splitOn_render hunit readable]
      exact exists_readLines_render hunit positive wide readable nested (Or.inr (by simp)) name 1

/-- Where the decoder refuses nothing, every program of lexemes that are not too large is read from
its text, however that is laid out. -/
theorem gists_of_render (accepts : ∀ body, ∃ value, settings.decoder.run body = .ok value)
    (hunit : IsUnit unit) {lines : List Line} (nested : Nested 0 lines)
    (lexemes : ∀ line ∈ lines, ∀ shape ∈ line.shapes, shape.IsValid ∧ ¬ shape.IsTooLarge settings)
    (separators : ∀ line ∈ lines, ∀ other ∈ line.others, IsSeparator other.1)
    (name : String) (final : Bool) :
    ∃ tokens, Lexer.tokenize settings ⟨String.ofList (render unit final lines), name⟩ = .ok tokens ∧
      tokens.map Token.gist = gists settings final 0 lines := by
  apply exists_tokenize_render hunit _ nested
  intro line hline
  refine ⟨fun shape hshape => ?_, separators line hline⟩
  obtain ⟨valid, fits⟩ := lexemes line hline shape hshape
  exact ⟨valid, fits, Shape.exists_value accepts shape⟩

theorem gists_of_block :
    ∃ tokens, Lexer.tokenize .standard ⟨"if\n\tx 1\n", "a"⟩ = .ok tokens ∧
      tokens.map Token.gist =
        [⟨.keyword .ifWord, none, some "if"⟩, .mark .newline, .mark .indent,
          ⟨.name, some (.text "x"), some "x"⟩, ⟨.number, some (.int 1), some "1"⟩, .mark .newline,
          .mark .dedent, .mark .eof] := by
  have accepts : ∀ body, ∃ value, Settings.standard.decoder.run body = .ok value :=
    fun body => ⟨_, rfl⟩
  have separator : IsSeparator [' '] := ⟨by simp, by simp⟩
  have hif : (Shape.word ['i', 'f']).IsValid :=
    ⟨'i', ['f'], rfl, by decide, List.forall_mem_singleton.mpr (by decide)⟩
  have hname : (Shape.word ['x']).IsValid := ⟨'x', [], rfl, by decide, List.forall_mem_nil _⟩
  have hnumber : (Shape.integer ['1']).IsValid :=
    Or.inr ⟨'1', [], rfl, by decide, by decide, List.forall_mem_nil _⟩
  have hgists := @gists_of_render .standard ['\t'] accepts (Or.inr rfl)
    [⟨0, .word ['i', 'f'], []⟩, ⟨1, .word ['x'], [([' '], .integer ['1'])]⟩]
    ⟨by decide, by decide, trivial⟩
    (by simp [Line.shapes, hif, hname, hnumber]; decide) (by simp [separator]) "a" true
  exact hgists

end Offside.Program
