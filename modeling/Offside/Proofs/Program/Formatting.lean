import Mathlib
import Offside.Proofs.Program.Rendering

/-!
# Formatting

`Program.format` writes tokens down again: each line on a line of its own, indented by four spaces
for each open block, with one space between its lexemes.  It looks at nothing but the tokens.  What
it writes is read to the same tokens up to where they stand, so comments, blank lines, carriage
returns and the widths of the indentation in the original text have no part in them
(`format_of_tokenize`).

## Strategy

The tokens of a text are those of a program (`exists_outline_of_tokenize`): line by line, the
lexemes that were found make up a line of the program, as deep as the blocks that are open in it,
and lines without lexemes make up none.  Formatting such tokens is rendering the program with single
spaces (`write_gists`), and what is rendered is read back.
-/

namespace Offside.Program

open Lexeme Lines

variable {settings : Settings} {name : String} {final : Bool}

/-! ## Writing tokens -/

/-- Writes tokens where `depth` blocks are open.  A line is `fresh` as long as no lexeme of it has
been written. -/
def write (depth : ℕ) (fresh : Bool) : List Gist → List Char
  | [] => []
  | gist :: more =>
    match gist.kind with
    | .layout .indent => write (depth + 1) fresh more
    | .layout .dedent => write (depth - 1) fresh more
    | .layout .newline => '\n' :: write depth true more
    | .layout .eof => write depth fresh more
    | _ =>
      (if fresh then List.replicate (4 * depth) ' ' else [' ']) ++ (gist.text.getD "").toList ++
        write depth false more

/-- The text of tokens, laid out anew. -/
def format (tokens : List Token) : String :=
  String.ofList (write 0 true (tokens.map Token.gist))

@[simp] theorem write_newline (depth : ℕ) (fresh : Bool) (more : List Gist) :
    write depth fresh (.mark .newline :: more) = '\n' :: write depth true more := rfl

theorem write_dedents (depth count : ℕ) (fresh : Bool) (more : List Gist) :
    write depth fresh (List.replicate count (.mark .dedent) ++ more) =
      write (depth - count) fresh more := by
  induction count generalizing depth with
  | zero => rfl
  | succ count ih =>
      have hfirst : write depth fresh
          (.mark .dedent :: (List.replicate count (.mark .dedent) ++ more)) =
            write (depth - 1) fresh (List.replicate count (.mark .dedent) ++ more) := rfl
      rw [List.replicate_succ, List.cons_append, hfirst, ih, Nat.sub_sub, Nat.add_comm]

/-- Behind the marks of a line, as many blocks are open as the line is deep. -/
theorem write_opening {previous depth : ℕ} (h : depth ≤ previous + 1) (fresh : Bool)
    (more : List Gist) :
    write previous fresh (opening previous depth ++ more) = write depth fresh more := by
  by_cases hle : depth ≤ previous
  · rw [opening_of_le hle, write_dedents, Nat.sub_sub_self hle]
  · obtain rfl : depth = previous + 1 := by omega
    rw [opening, if_pos rfl]
    rfl

/-- At the end of the stream nothing is written. -/
theorem write_closing (depth count : ℕ) (fresh : Bool) :
    write depth fresh (List.replicate count (.mark .dedent) ++ [.mark .eof]) = [] := by
  rw [write_dedents]
  rfl

theorem write_shape (settings : Settings) (depth : ℕ) (fresh : Bool) (shape : Shape)
    (more : List Gist) :
    write depth fresh (shape.gist settings :: more) =
      (if fresh then List.replicate (4 * depth) ' ' else [' ']) ++ shape.text ++
        write depth false more := by
  have hlayout := Shape.isLayout_kind shape
  cases hkind : shape.kind with
  | layout mark => simp [hkind, Kind.isLayout] at hlayout
  | _ => simp [write, Shape.gist, hkind]

theorem write_shapes (settings : Settings) (depth : ℕ) (shapes : List Shape) (more : List Gist) :
    write depth false (shapes.map (Shape.gist settings) ++ more) =
      shapes.flatMap (fun shape => ' ' :: shape.text) ++ write depth false more := by
  induction shapes with
  | nil => rfl
  | cons shape shapes ih =>
      rw [List.map_cons, List.cons_append, write_shape, ih]
      simp

/-! ## Lines with single spaces -/

/-- The indentation of a block. -/
def fourSpaces : List Char := List.replicate 4 ' '

/-- The line of some lexemes, with one space between them. -/
def Line.spaced (depth : ℕ) (first : Shape) (others : List Shape) : Line :=
  ⟨depth, first, others.map ([' '], ·)⟩

/-- Lexemes are one space apart. -/
def Line.IsSpaced (line : Line) : Prop := ∃ depth first others, line = .spaced depth first others

theorem shapes_spaced (depth : ℕ) (first : Shape) (others : List Shape) :
    (Line.spaced depth first others).shapes = first :: others := by
  simp [Line.spaced, Line.shapes, Function.comp_def]

theorem render_spaced (depth : ℕ) (first : Shape) (others : List Shape) :
    (Line.spaced depth first others).render fourSpaces =
      List.replicate (4 * depth) ' ' ++ first.text ++
        others.flatMap fun shape => ' ' :: shape.text := by
  have hunits : (List.replicate depth fourSpaces).flatten = List.replicate (4 * depth) ' ' := by
    rw [fourSpaces, List.flatten_replicate_replicate, Nat.mul_comm]
  have hspread : spread (others.map ([' '], ·)) =
      others.flatMap fun shape => ' ' :: shape.text := by
    simp [spread, List.flatMap_map]
  rw [Line.render, Line.body, Line.spaced, hunits, hspread, List.append_assoc]

/-- A line is written as it is rendered. -/
theorem write_line {line : Line} (spaced : line.IsSpaced) (settings : Settings)
    (more : List Gist) :
    write line.depth true (line.shapes.map (Shape.gist settings) ++ more) =
      line.render fourSpaces ++ write line.depth false more := by
  obtain ⟨depth, first, others, rfl⟩ := spaced
  rw [shapes_spaced, render_spaced, List.map_cons, List.cons_append, write_shape, write_shapes]
  simp [Line.spaced]

/-- A program is written as it is rendered. -/
theorem write_gists {lines : List Line} {previous : ℕ} (nested : Nested previous lines)
    (spaced : ∀ line ∈ lines, Line.IsSpaced line) (ended : lines = [] → final = false) :
    write previous true (gists settings final previous lines) = render fourSpaces final lines := by
  induction lines generalizing previous with
  | nil =>
      obtain rfl := ended rfl
      rw [gists, write_closing]
      rfl
  | cons line more ih =>
      have hline := spaced line (List.mem_cons_self ..)
      have hmore := fun other hmem => spaced other (List.mem_cons_of_mem _ hmem)
      simp only [gists, List.append_assoc]
      rw [write_opening nested.1, write_line hline]
      -- What closes the blocks behind the last line is not written.
      cases more with
      | nil =>
          rw [render_singleton]
          cases final with
          | false => simp [gists, write_closing]
          | true => simp [gists, write_closing]
      | cons other more =>
          have hrest := ih nested.2 hmore (by simp)
          rw [render_cons_cons, if_pos (Or.inr (List.cons_ne_nil _ _)), List.cons_append,
            List.nil_append, write_newline, hrest]

/-! ## The program of a text -/

/-- Tokens are those of a program with single spaces, if the line before is `previous` blocks
deep. -/
structure IsOutline (settings : Settings) (previous : ℕ) (tokens : List Token) (lines : List Line)
    (final : Bool) : Prop where
  nested : Nested previous lines
  readable : ∀ line ∈ lines, Line.IsReadable settings line
  spaced : ∀ line ∈ lines, Line.IsSpaced line
  ended : lines = [] → final = false
  gives : tokens.map Token.gist = gists settings final previous lines

/-- Marks and lexemes that make up a line with some lexemes, as deep as the blocks that are open in
it. -/
structure IsRead (settings : Settings) (previous depth : ℕ) (tokens : List Token) (first : Shape)
    (others : List Shape) : Prop where
  nested : depth ≤ previous + 1
  readable : ∀ shape ∈ first :: others, shape.IsReadable settings
  gives : tokens.map Token.gist =
    opening previous depth ++ (first :: others).map (Shape.gist settings)

theorem isOutline_closing (settings : Settings) (name : String) (position : Position)
    (levels : Levels) :
    IsOutline settings levels.depth (closing name position levels) [] false where
  nested := trivial
  readable := by simp
  spaced := by simp
  ended _ := rfl
  gives := gist_closing ..

section Lines

variable {previous depth : ℕ} {tokens rest : List Token} {first : Shape} {others : List Shape}
  {lines : List Line}

theorem IsRead.isReadable (h : IsRead settings previous depth tokens first others) :
    (Line.spaced depth first others).IsReadable settings where
  shapes := by
    rw [shapes_spaced]
    exact h.readable
  separators other hmem := by
    obtain ⟨shape, -, rfl⟩ := List.mem_map.mp hmem
    exact ⟨by simp, by simp⟩

/-- The last line of a program. -/
theorem IsRead.isOutline (h : IsRead settings previous depth tokens first others)
    (closes : rest.map Token.gist = gists settings false depth []) :
    IsOutline settings previous (tokens ++ rest) [.spaced depth first others] false where
  nested := ⟨h.nested, trivial⟩
  readable := by simpa using h.isReadable
  spaced := by simpa using ⟨depth, first, others, rfl⟩
  ended h := by simp at h
  gives := by
    rw [gists, shapes_spaced, List.map_append, h.gives, closes]
    simp [Line.spaced]

/-- A line in front of a program.  If no line follows, then the program ends with its line feed. -/
theorem IsRead.isOutline_cons (h : IsRead settings previous depth tokens first others)
    {newline : Token} (ends : newline.gist = .mark .newline)
    (more : IsOutline settings depth rest lines final) :
    IsOutline settings previous (tokens ++ newline :: rest) (.spaced depth first others :: lines)
      (final || lines.isEmpty) where
  nested := ⟨h.nested, more.nested⟩
  readable := List.forall_mem_cons.mpr ⟨h.isReadable, more.readable⟩
  spaced := List.forall_mem_cons.mpr ⟨⟨depth, first, others, rfl⟩, more.spaced⟩
  ended h := by simp at h
  gives := by
    rw [List.map_append, List.map_cons, h.gives, more.gives, ends, gists, shapes_spaced]
    -- How a program ends is seen only if it has lines.
    cases lines with
    | nil => simp [Line.spaced, gists]
    | cons line lines => simp [Line.spaced]

end Lines

/-- The lexemes that are read in a line. -/
theorem exists_shapes_of_contents {position stop : Position} {text : List Char}
    (h : (contents settings name position text).result = .ok stop) :
    ∃ shapes : List Shape, (∀ shape ∈ shapes, shape.IsReadable settings) ∧
      (contents settings name position text).tokens.map Token.gist =
        shapes.map (Shape.gist settings) := by
  fun_induction contents settings name position text with
  | case1 position => exact ⟨[], by simp, rfl⟩
  | case2 position c rest hc ih => exact ih h
  | case3 position rest => exact ⟨[], by simp, rfl⟩
  | case4 position c rest hblank hmark hnone => simp [Reading.stop] at h
  | case5 position c rest hblank hmark shape hshape ih =>
      cases hread : shape.read settings (.ofPosition name position) with
      | error cause =>
          rw [hread] at h
          simp [Reading.stop, bind] at h
      | ok token =>
          rw [hread] at h
          obtain ⟨shapes, readable, hgists⟩ := ih h
          have valid := (isLongest_of_longest? hshape).valid
          refine ⟨shape :: shapes,
            List.forall_mem_cons.mpr ⟨Shape.isReadable_of_read valid hread, readable⟩, ?_⟩
          rw [List.map_cons, ← hgists, ← Shape.gist_of_read hread]
          rfl

/-- A line without lexemes is passed over, and any other is read to its marks, its lexemes and its
end. -/
theorem readLine_cases {number : Int} {levels : Levels} {line : List Char}
    {following : Option (List Char)} {f : Levels → Reading Fault Unit} {value : Unit}
    (hline : '\n' ∉ line)
    (h : (readLine settings name number levels line following >>= f).result = .ok value) :
    (readLine settings name number levels line following >>= f) = f levels ∨
      ∃ tokens stop reached first others,
        (readLine settings name number levels line following >>= f) =
          (f reached).preceded (tokens ++ ending name stop line following) ∧
        IsRead settings levels.depth reached.depth tokens first others := by
  rcases line_cases hline with hblank | ⟨run, body, indented, content, -⟩
  · left
    rw [readLine_of_isBlank hblank]
    rfl
  · right
    obtain ⟨level, marks, reached, reaches, arranged⟩ := exists_arrange settings levels run
    obtain ⟨hmarks, nested⟩ := opening_of_arrange arranged
    have hread := h
    rw [readLine_bind indented content reaches arranged] at hread
    split at hread
    · -- A column between two open blocks is an error.
      simp [Reading.stop, Reading.preceded] at hread
    · next hlevel =>
        generalize hcontents : contents settings name
          ((⟨number, 1⟩ : Position).after settings.tabWidth run) body = reading at hread
        obtain ⟨lexemes, result⟩ := reading
        cases result with
        | error cause => simp [Reading.preceded, bind] at hread
        | ok stop =>
            have hresult := congrArg Reading.result hcontents
            have htokens := congrArg Reading.tokens hcontents
            obtain ⟨shapes, readable, hshapes⟩ := exists_shapes_of_contents hresult
            have hne : shapes ≠ [] := by
              rintro rfl
              exact contents_ne_nil content hresult (List.map_eq_nil_iff.mp hshapes)
            obtain ⟨first, others, rfl⟩ := List.exists_cons_of_ne_nil hne
            refine ⟨marks.map (mark name ⟨number, 1⟩) ++ lexemes, stop, reached, first, others,
              readLine_of_contents indented content reaches arranged (not_not.mp hlevel) hcontents
                f, nested, readable, ?_⟩
            rw [List.map_append, gist_marks, hmarks, ← hshapes, htokens]

/-- The tokens of lines are those of a program. -/
theorem exists_outline_of_readLines {number : Int} {levels : Levels} {texts : List (List Char)}
    {value : Unit} (hlines : ∀ line ∈ texts, '\n' ∉ line) (nonempty : texts ≠ [])
    (h : (readLines settings name number levels texts).result = .ok value) :
    ∃ lines final, IsOutline settings levels.depth
      (readLines settings name number levels texts).tokens lines final := by
  induction texts generalizing number levels with
  | nil => exact absurd rfl nonempty
  | cons line texts ih =>
      have hline := hlines line (List.mem_cons_self ..)
      cases texts with
      | nil =>
          rw [readLines] at h ⊢
          rcases readLine_cases hline h with
            hblank | ⟨tokens, stop, reached, first, others, hread, isRead⟩
          · rw [hblank]
            exact ⟨[], false, isOutline_closing ..⟩
          · rw [hread, ending, List.append_nil]
            exact ⟨_, false, isRead.isOutline (gist_closing ..)⟩
      | cons following more =>
          have hmore : ∀ line ∈ following :: more, '\n' ∉ line :=
            fun line hmem => hlines line (List.mem_cons_of_mem _ hmem)
          rw [readLines] at h ⊢
          rcases readLine_cases hline h with
            hblank | ⟨tokens, stop, reached, first, others, hread, isRead⟩
          · rw [hblank] at h ⊢
            exact ih hmore (List.cons_ne_nil _ _) h
          · rw [hread] at h ⊢
            obtain ⟨lines, final, outline⟩ := ih hmore (List.cons_ne_nil _ _) h
            refine ⟨.spaced reached.depth first others :: lines, final || lines.isEmpty, ?_⟩
            have hcons := isRead.isOutline_cons (gist_newline name stop line following) outline
            simpa [ending, Reading.preceded] using hcons

/-- The tokens of a text are those of a program with single spaces. -/
theorem exists_outline_of_tokenize {source : Source} {tokens : List Token}
    (h : Lexer.tokenize settings source = .ok tokens) :
    ∃ lines final, IsOutline settings 0 tokens lines final := by
  have hread := Lexer.read_of_tokenize h
  unfold Lines.read at hread
  have houtline := exists_outline_of_readLines (fun _ => not_mem_of_mem_splitOn)
    (List.splitOn_ne_nil _ _) (congrArg Reading.result hread)
  rw [hread] at houtline
  exact houtline

/-! ## Formatting is a fixed point -/

theorem IsOutline.format_eq {tokens : List Token} {lines : List Line}
    (h : IsOutline settings 0 tokens lines final) :
    format tokens = String.ofList (render fourSpaces final lines) := by
  calc format tokens
      = String.ofList (write 0 true (gists settings final 0 lines)) := by rw [format, h.gives]
    _ = String.ofList (render fourSpaces final lines) := by
        rw [write_gists h.nested h.spaced h.ended]

/-- The tokens of a text, laid out anew, are read again. -/
theorem format_of_tokenize {source : Source} {tokens : List Token}
    (h : Lexer.tokenize settings source = .ok tokens) (name : String) :
    ∃ again, Lexer.tokenize settings ⟨format tokens, name⟩ = .ok again ∧
      again.map Token.gist = tokens.map Token.gist := by
  obtain ⟨lines, final, outline⟩ := exists_outline_of_tokenize h
  have hunit : IsUnit fourSpaces := Or.inl ⟨4, by decide, rfl⟩
  obtain ⟨again, hagain, hgists⟩ :=
    exists_tokenize_render hunit outline.readable outline.nested name final
  refine ⟨again, ?_, ?_⟩
  · rw [outline.format_eq]
    exact hagain
  · calc again.map Token.gist
        = gists settings final 0 lines := hgists
      _ = tokens.map Token.gist := outline.gives.symm

theorem format_of_comment_and_tab :
    ∃ tokens again,
      Lexer.tokenize .standard ⟨"if x:#y\r\n\n\tx-=1", "a"⟩ = .ok tokens ∧
        Lexer.tokenize .standard ⟨"if x :\n    x -= 1", "b"⟩ = .ok again ∧
        again.map Token.gist = tokens.map Token.gist := by
  obtain ⟨again, hagain, hgists⟩ := @format_of_tokenize .standard ⟨"if x:#y\r\n\n\tx-=1", "a"⟩ _
    (by cbv) "b"
  exact ⟨_, again, by cbv, hagain, hgists⟩

end Offside.Program
