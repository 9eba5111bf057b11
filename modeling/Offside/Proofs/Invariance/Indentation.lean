import Offside.Proofs.Invariance.LineBreaks
import Offside.Proofs.Lines.Alignment

/-!
# The spelling of indentation

All that matters of the blanks in front of a line is the column that they reach.  A text means the
same if they are replaced by other blanks that reach the same column, tabs by spaces for instance:
it has the same tokens at the same places, or the same error at the same place
(`tokenize_respelled`).  Lines without lexemes may begin with any blanks at all, and hold any
comment, unless the text ends in one of them.

## Strategy

The column decides which blocks are open, and it is also where the lexemes of the line begin
(`after_eq_of_column`).  So corresponding lines are read from the same blocks and the same position
on, and the lines of the two texts agree one by one.  The mark for the end of the text stands where
the last line ends, which is why a last line without lexemes has to stay as it is.
-/

namespace Offside

open Lexeme

namespace Lines

/-- Two lines without lexemes, or the same line behind blanks that reach the same column. -/
inductive Respells (width : Int) (line line' : List Char) : Prop
  | blank (blank : IsBlank line) (blank' : IsBlank line')
  | indented {run run' body : List Char} (indented : Indented line run body)
      (indented' : Indented line' run' body)
      (column : Indentation.column width run = Indentation.column width run')

/-- The line behind as many spaces as reach the column of its blanks, if it has a lexeme. -/
def spaced (width : Int) (line : List Char) : List Char :=
  let run := line.takeWhile CharClass.blank.has
  let body := line.dropWhile CharClass.blank.has
  if body = [] ∨ body.head? = some commentMark then line
  else
    match Indentation.column width run with
    | .ok level => List.replicate (level - 1).toNat ' ' ++ body
    | .error _ => line

end Lines

/-- Two texts of the same name that agree line by line up to the spelling of their indentation.  A
last line without lexemes is the same in both. -/
structure Source.Respells (width : Int) (source source' : Source) : Prop where
  name : source.name = source'.name
  lines : List.Forall₂ (Lines.Respells width) (source.text.toList.splitOn '\n')
    (source'.text.toList.splitOn '\n')
  last : ∀ line, (source.text.toList.splitOn '\n').getLast? = some line → Lines.IsBlank line →
    (source'.text.toList.splitOn '\n').getLast? = some line

/-- The text with its lines behind spaces. -/
def Source.spaced (width : Int) (source : Source) : Source :=
  let lines := (source.text.toList.splitOn '\n').map (Lines.spaced width)
  ⟨String.ofList (['\n'].intercalate lines), source.name⟩

namespace Lines

variable {settings : Settings} {name : String} {width : Int} {line line' run run' body : List Char}

/-! ## Lines that are respelled -/

/-- Blanks that reach the same column lead to the same position. -/
theorem after_eq_of_column (nonzero : width ≠ 0) (hrun : ∀ c ∈ run, CharClass.blank.has c)
    (hrun' : ∀ c ∈ run', CharClass.blank.has c)
    (column : Indentation.column width run = Indentation.column width run') (number : Int) :
    (⟨number, 1⟩ : Position).after width run = (⟨number, 1⟩ : Position).after width run' := by
  rw [Indentation.column_eq_after nonzero number hrun,
    Indentation.column_eq_after nonzero number hrun'] at column
  have hline : ((⟨number, 1⟩ : Position).after width run).line =
      ((⟨number, 1⟩ : Position).after width run').line := by
    rw [Position.line_after_of_not_mem (not_mem_of_blank hrun),
      Position.line_after_of_not_mem (not_mem_of_blank hrun')]
  exact congrArg₂ Position.mk hline (Except.ok.inj column)

theorem readsAlike_of_respells (h : Respells settings.tabWidth line line') (hline : '\n' ∉ line) :
    ReadsAlike settings settings name Eq Eq line line' := by
  cases h with
  | blank blank blank' => exact readsAlike_of_isBlank blank blank'
  | @indented run run' body indented indented' column =>
      have hbody : '\n' ∉ body := fun hmem => hline (by simp [indented.split, hmem])
      by_cases content : IsContent body
      · obtain ⟨level, reaches⟩ := Indentation.exists_column settings.tabWidth_ne_zero run
        exact readsAlike_of_indented (.refl settings) isSteady_eq (fun _ => rfl) indented indented'
          content hbody reaches (column ▸ reaches) (isAligned_eq level)
          (after_eq_of_column settings.tabWidth_ne_zero indented.blank indented'.blank column)
      · exact readsAlike_of_isBlank (indented.isBlank hbody content)
          (indented'.isBlank hbody content)

/-! ## Lines behind spaces -/

theorem not_mem_spaced (hline : '\n' ∉ line) : '\n' ∉ spaced width line := by
  have hbody : '\n' ∉ line.dropWhile CharClass.blank.has := fun hmem =>
    hline ((List.dropWhile_sublist _).mem hmem)
  simp only [spaced]
  split_ifs
  · exact hline
  · split
    · exact List.not_mem_append (fun hmem => by simp at hmem) hbody
    · exact hline

/-- A line without lexemes stays as it is. -/
theorem spaced_of_isBlank (blank : IsBlank line) : spaced width line = line :=
  if_pos blank.head_dropWhile

theorem respells_spaced (positive : 0 < width) (hline : '\n' ∉ line) :
    Respells width line (spaced width line) := by
  have indented := indented_takeWhile line
  obtain ⟨level, reaches⟩ := Indentation.exists_column (Int.ne_of_gt positive)
    (line.takeWhile CharClass.blank.has)
  simp only [spaced, reaches]
  split_ifs with blank
  · exact .indented indented indented rfl
  · have content : IsContent (line.dropWhile CharClass.blank.has) := by
      by_contra content
      exact blank (head_of_not_isContent indented hline content)
    have hspaces : ∀ c ∈ List.replicate (level - 1).toNat ' ', CharClass.blank.has c := by
      intro c hc
      rw [List.eq_of_mem_replicate hc]
      decide
    refine .indented indented (indented_of_isContent hspaces content) ?_
    have hle := Indentation.one_le_of_column positive indented.blank reaches
    calc Indentation.column width (line.takeWhile CharClass.blank.has)
        = .ok level := reaches
      _ = .ok (1 + ((level - 1).toNat : Int)) := by
        congr 1
        omega
      _ = Indentation.column width (List.replicate (level - 1).toNat ' ') :=
        (Indentation.column_spaces width _).symm

example : spaced 8 [' ', '\t', 'x'] = List.replicate 8 ' ' ++ ['x'] := by decide

/-! ## Texts -/

/-- Line by line, a text agrees with one in which its indentation is respelled. -/
theorem agrees_respelled {source source' : Source} (h : source.Respells settings.tabWidth source') :
    Reading.Agrees Eq Eq (Lines.read settings source) (Lines.read settings source') := by
  unfold Lines.read
  rw [← h.name]
  have depth : ∀ levels levels' : Levels, levels = levels' → levels.depth = levels'.depth :=
    fun _ _ same => congrArg Levels.depth same
  apply agrees_of_forall₂ h.lines (fun _ => not_mem_of_mem_splitOn) depth
  · intro line line' hline respells
    exact readsAlike_of_respells respells hline
  · intro last last' _ respells hlast hlast' number
    cases respells with
    | blank blank blank' =>
        -- Lines without lexemes may end anywhere, but the last one is the same in both texts.
        rw [h.last last hlast blank] at hlast'
        rw [Option.some.inj hlast']
    | indented indented indented' column =>
        rw [indented.split, indented'.split, Position.after_append, Position.after_append,
          after_eq_of_column settings.tabWidth_ne_zero indented.blank indented'.blank column]
  · rfl

theorem splitOn_spaced (width : Int) (source : Source) :
    (source.spaced width).text.toList.splitOn '\n' =
      (source.text.toList.splitOn '\n').map (spaced width) := by
  unfold Source.spaced
  rw [String.toList_ofList]
  apply List.splitOn_intercalate
  · intro line hmem
    obtain ⟨line', hmem', rfl⟩ := List.mem_map.mp hmem
    exact not_mem_spaced (not_mem_of_mem_splitOn hmem')
  · simp [List.splitOn_ne_nil]

theorem respells_source_spaced (positive : 0 < width) (source : Source) :
    source.Respells width (source.spaced width) where
  name := rfl
  lines := by
    rw [splitOn_spaced, List.forall₂_map_right_iff, List.forall₂_same]
    intro line hmem
    exact respells_spaced positive (not_mem_of_mem_splitOn hmem)
  last line hlast blank := by
    rw [splitOn_spaced, List.getLast?_map, hlast, Option.map_some, spaced_of_isBlank blank]

end Lines

namespace Lexer

open Lines

/-- A text means the same however its indentation is spelled, with spaces alone for instance. -/
theorem tokenize_respelled (settings : Settings) (source : Source) :
    (∀ source', source.Respells settings.tabWidth source' →
      (tokenize settings source').map (List.map Token.placed) =
        (tokenize settings source).map (List.map Token.placed)) ∧
      (tokenize settings (source.spaced settings.tabWidth)).map (List.map Token.placed) =
        (tokenize settings source).map (List.map Token.placed) := by
  have respelled : ∀ source', source.Respells settings.tabWidth source' →
      (tokenize settings source').map (List.map Token.placed) =
        (tokenize settings source).map (List.map Token.placed) := by
    intro source' respells
    rw [tokenize_eq_reported, tokenize_eq_reported]
    exact (agrees_respelled respells).map_whole_eq fun _ _ => Token.Agrees.placed_eq
  exact ⟨respelled, respelled _ (respells_source_spaced settings.tabWidth_pos source)⟩

/-- A tab, spaces in front of a tab, and spaces alone. -/
theorem tokenize_respelled_tabs :
    (⟨"\tif\n#\n\tx", "a"⟩ : Source).Respells 8 ⟨" \tif\n  \n        x", "a"⟩ ∧
      (tokenize .standard ⟨" \tif\n  \n        x", "a"⟩).map (List.map Token.placed) =
        (tokenize .standard ⟨"\tif\n#\n\tx", "a"⟩).map (List.map Token.placed) := by
  have lines : "\tif\n#\n\tx".toList.splitOn '\n' =
      [['\t'] ++ ['i', 'f'], ['#'], ['\t'] ++ ['x']] := by decide
  have lines' : " \tif\n  \n        x".toList.splitOn '\n' =
      [[' ', '\t'] ++ ['i', 'f'], [' ', ' '], List.replicate 8 ' ' ++ ['x']] := by decide
  have first : IsContent ['i', 'f'] := ⟨'i', ['f'], rfl, by decide, by decide, by decide⟩
  have last : IsContent ['x'] := ⟨'x', [], rfl, by decide, by decide, by decide⟩
  have respells : (⟨"\tif\n#\n\tx", "a"⟩ : Source).Respells 8
      ⟨" \tif\n  \n        x", "a"⟩ := by
    refine ⟨rfl, ?_, ?_⟩
    · rw [lines, lines']
      refine .cons ?_ (.cons ?_ (.cons ?_ .nil))
      · exact .indented (indented_of_isContent (by simp [CharClass.has]) first)
          (indented_of_isContent (by simp [CharClass.has]) first) (by decide)
      · exact .blank ⟨[], ['#'], rfl, by simp, Or.inr ⟨[], rfl, by simp⟩⟩
          (isBlank_of_blank (by simp [CharClass.has]))
      · exact .indented (indented_of_isContent (by simp [CharClass.has]) last)
          (indented_of_isContent (by simp [CharClass.has]) last) (by decide)
    · intro line hlast blank
      rw [lines] at hlast
      obtain rfl := Option.some.inj hlast
      exact absurd blank.head_dropWhile (by decide)
  exact ⟨respells, (tokenize_respelled .standard ⟨"\tif\n#\n\tx", "a"⟩).1 _ respells⟩

end Lexer

end Offside
