import Offside.Proofs.Invariance.Insertions
import Offside.Proofs.Lines.Alignment
import Offside.Proofs.Stream.Outcomes

/-!
# The width of a tab

A text that is indented by tabs alone means the same whatever the width of a tab.  With two widths
it has the same tokens in the same lines, or the same error in the same line; only the columns
differ (`tokenize_tabs`).  Tabs and spaces inside lines are free, and so are lines without lexemes.

An error is reported with its column, though.  A column that cannot be written takes the place of
the error, and how far a text reaches does depend on the width of a tab.  So the errors are the same
where both settings let every place be written.

## Strategy

A line behind `n` tabs stands at the column `1 + n * width`.  The open blocks of the two texts have
different columns, but they are blocks behind the same numbers of tabs (`SameTabs`).  The column is
strictly increasing in the number, so lines behind the same number of tabs open and close the same
blocks (`isAligned_tabColumn`), and the lines of the text agree with themselves one by one.
-/

namespace Offside

open Lexeme Lines

/-- Whether only tabs and carriage returns stand in front of the lexemes of a line, if it has
any. -/
def Lines.IsTabIndented (line : List Char) : Prop :=
  ∀ run body, Indented line run body → IsContent body → ' ' ∉ run

/-- Whether all lines of a text are indented by tabs. -/
def Source.IsTabIndented (source : Source) : Prop :=
  ∀ line ∈ source.text.toList.splitOn '\n', Lines.IsTabIndented line

/-- The beginning of the line of a location. -/
def Location.atLine (location : Location) : Location := { location with column := 1 }

/-- The token, moved to the beginning of its line. -/
def Token.atLine (token : Token) : Token := { token with location := token.location.atLine }

/-- Settings with tabs of four columns. -/
def Settings.narrow : Settings :=
  { Settings.standard with tabWidth := 4, tabWidth_pos := by decide }

/-- The error, moved to the beginning of its line. -/
def Lexer.Error.atLine : Lexer.Error → Lexer.Error
  | .lexical ⟨cause, location⟩ => .lexical ⟨cause, location.map Location.atLine⟩
  | error => error

namespace Lines

/-! ## Columns behind tabs -/

/-- The column behind a number of tabs. -/
def tabColumn (width : Int) (count : ℕ) : Int := 1 + count * width

/-- Blocks behind numbers of tabs, the innermost first. -/
def tabLevels (width : Int) (counts : List ℕ) : Levels := ⟨counts.map (tabColumn width)⟩

/-- Blocks behind the same numbers of tabs of two widths. -/
def SameTabs (width width' : Int) (levels levels' : Levels) : Prop :=
  ∃ counts, levels = tabLevels width counts ∧ levels' = tabLevels width' counts

variable {width width' : Int}

theorem tabColumn_strictMono (positive : 0 < width) : StrictMono (tabColumn width) := by
  intro count more hlt
  have hmul := Int.mul_lt_mul_of_pos_right (Int.ofNat_lt.mpr hlt) positive
  unfold tabColumn
  omega

@[simp] theorem top_tabLevels (width : Int) (counts : List ℕ) :
    (tabLevels width counts).top = tabColumn width (counts.headD 0) := by
  cases counts with
  | nil => simp [tabLevels, tabColumn, Levels.top, Levels.base]
  | cons count counts => rfl

/-- Which blocks a line opens and closes depends on the numbers of tabs alone. -/
theorem exists_arrange_tabLevels (counts : List ℕ) (count : ℕ) :
    ∃ marks reached, ∀ width, 0 < width →
      arrange (tabLevels width counts) (tabColumn width count) =
        (marks, tabLevels width reached) := by
  by_cases deeper : counts.headD 0 < count
  · refine ⟨[.indent], count :: counts, fun width positive => ?_⟩
    apply arrange_of_deeper
    rw [top_tabLevels]
    exact tabColumn_strictMono positive deeper
  · refine ⟨(counts.takeWhile (count < ·)).map fun _ => .dedent, counts.dropWhile (count < ·),
      fun width positive => ?_⟩
    have hmono := tabColumn_strictMono positive
    have hnot : ¬ (tabLevels width counts).top < tabColumn width count := by
      rwa [top_tabLevels, hmono.lt_iff_lt]
    -- A block is kept or closed by its number of tabs, whatever the width.
    have hkeeps : (fun level => decide (tabColumn width count < level)) ∘ tabColumn width =
        fun other => decide (count < other) := by
      funext other
      exact decide_eq_decide.mpr hmono.lt_iff_lt
    unfold arrange
    rw [if_neg hnot]
    simp only [tabLevels, List.takeWhile_map, List.dropWhile_map, hkeeps, List.map_map]
    rfl

/-- Lines behind the same number of tabs open and close the same blocks. -/
theorem isAligned_tabColumn (positive : 0 < width) (positive' : 0 < width') (count : ℕ) :
    IsAligned (SameTabs width width') (tabColumn width count) (tabColumn width' count) := by
  rintro _ _ ⟨counts, rfl, rfl⟩
  obtain ⟨marks, reached, arranged⟩ := exists_arrange_tabLevels counts count
  refine ⟨marks, _, _, arranged width positive, arranged width' positive', ?_, reached, rfl, rfl⟩
  rw [top_tabLevels, top_tabLevels, (tabColumn_strictMono positive).injective.eq_iff,
    (tabColumn_strictMono positive').injective.eq_iff]

/-! ## Lines behind tabs -/

variable {settings settings' : Settings} {name : String} {source : Source} {line : List Char}

theorem readsAlike_of_tabs (alike : settings.Alike settings') (hline : '\n' ∉ line)
    (spaceless : IsTabIndented line) :
    ReadsAlike settings settings' name IsSameLine
      (SameTabs settings.tabWidth settings'.tabWidth) line line := by
  rcases line_cases hline with blank | ⟨run, body, indented, content, hbody⟩
  · exact readsAlike_of_isBlank blank blank
  · have tabs := spaceless run body indented content
    have hrun := not_mem_of_blank indented.blank
    have reaches := Indentation.column_tabs settings.tabWidth_pos indented.blank tabs
    have reaches' := Indentation.column_tabs settings'.tabWidth_pos indented.blank tabs
    apply readsAlike_of_indented alike (isSteady_sameLine _ _) (fun _ => .refl _) indented indented
      content hbody reaches reaches'
    · exact isAligned_tabColumn settings.tabWidth_pos settings'.tabWidth_pos _
    · intro number
      unfold IsSameLine
      rw [Position.line_after_of_not_mem hrun, Position.line_after_of_not_mem hrun]

/-- It is enough to look at the blanks of each line. -/
theorem isTabIndented_of_takeWhile
    (h : ∀ line ∈ source.text.toList.splitOn '\n', ' ' ∉ line.takeWhile CharClass.blank.has) :
    source.IsTabIndented := by
  intro line hmem run body indented _
  rw [← indented.takeWhile_eq]
  exact h line hmem

/-- Line by line, a text that is indented by tabs agrees with itself. -/
theorem agrees_tabs (alike : settings.Alike settings') (tabs : source.IsTabIndented) :
    Reading.Agrees IsSameLine Eq (Lines.read settings source) (Lines.read settings' source) := by
  have hlines : ∀ line ∈ source.text.toList.splitOn '\n', '\n' ∉ line :=
    fun _ => not_mem_of_mem_splitOn
  have all : List.Forall₂ (fun line line' => line = line' ∧ IsTabIndented line)
      (source.text.toList.splitOn '\n') (source.text.toList.splitOn '\n') :=
    List.forall₂_same.mpr fun line hmem => ⟨rfl, tabs line hmem⟩
  have depth : ∀ levels levels', SameTabs settings.tabWidth settings'.tabWidth levels levels' →
      levels.depth = levels'.depth := by
    rintro _ _ ⟨counts, rfl, rfl⟩
    simp [tabLevels, Levels.depth]
  apply agrees_of_forall₂ all hlines depth
  · rintro line _ hline ⟨rfl, spaceless⟩
    exact readsAlike_of_tabs alike hline spaceless
  · rintro last _ hlast ⟨rfl, -⟩ - - number
    unfold IsSameLine
    rw [Position.line_after_of_not_mem hlast, Position.line_after_of_not_mem hlast]
  · exact ⟨[], rfl, rfl⟩

/-! ## Line breaks -/

variable {token token' : Token} {number : Int} {levels levels' : Levels}
  {lines : List (List Char)}

/-- The mark for the end of a line has the same text whenever the line is read. -/
theorem text_eq_of_newline (hlines : ∀ line ∈ lines, '\n' ∉ line)
    (h : token ∈ (readLines settings name number levels lines).tokens)
    (h' : token' ∈ (readLines settings' name number levels' lines).tokens)
    (ends : token.kind = .layout .newline) (ends' : token'.kind = .layout .newline)
    (same : token.location.line = token'.location.line) : token.text = token'.text := by
  obtain ⟨index, stop, line, next, hline, hnext, rfl, hstop⟩ := exists_newline_of_mem hlines ends h
  obtain ⟨index', stop', line', next', hline', hnext', rfl, hstop'⟩ :=
    exists_newline_of_mem hlines ends' h'
  have hsame : number + index = number + index' := by
    rw [← hstop, ← hstop']
    exact same
  obtain rfl : index = index' := by omega
  obtain rfl := Option.some.inj (hline.symm.trans hline')
  obtain rfl := Option.some.inj (hnext.symm.trans hnext')
  rfl

end Lines

/-- Tokens that agree up to their columns are the same at the beginning of the line. -/
theorem Token.Agrees.atLine_eq {token token' : Token} (h : Token.Agrees IsSameLine token token')
    (breaks : token.kind = .layout .newline → token.text = token'.text) :
    token'.atLine = token.atLine := by
  obtain ⟨hkind, hvalue, htext⟩ := Gist.mk.inj h.gist
  have hsame : token.text = token'.text := by
    by_cases ends : token.kind = .layout .newline
    · exact breaks ends
    · rw [if_neg ends, if_neg (hkind ▸ ends)] at htext
      exact Option.some.inj htext
  have hlocation : token'.location.atLine = token.location.atLine := by
    have hline : token'.location.line = token.location.line := h.near.symm
    unfold Location.atLine
    rw [h.file, hline]
  unfold Token.atLine
  rw [hkind, hvalue, hsame, hlocation]

namespace Lexer

variable {settings settings' : Settings} {source : Source}

/-- Errors that agree up to their columns are the same at the beginning of the line, if both can be
told where they are. -/
theorem Error.Agrees.atLine_eq {cause cause' : Error} (h : Error.Agrees IsSameLine cause cause')
    (told : cause ≠ .decimal .tooLong) (told' : cause' ≠ .decimal .tooLong) :
    cause'.atLine = cause.atLine := by
  cases h with
  | decoding cause => rfl
  | @located cause file position position' h =>
      have writable : (Location.ofPosition file position).isWritable := by
        by_contra unwritable
        exact told (Error.at_of_not_isWritable unwritable cause)
      have writable' : (Location.ofPosition file position').isWritable := by
        by_contra unwritable
        exact told' (Error.at_of_not_isWritable unwritable cause)
      have hlocation : (Location.ofPosition file position').atLine =
          (Location.ofPosition file position).atLine := by
        have hline : position'.line = position.line := h.symm
        simp only [Location.atLine, Location.ofPosition, hline]
      rw [Error.at_of_isWritable writable, Error.at_of_isWritable writable']
      simp only [Error.atLine, Option.map_some, hlocation]

/-- With two widths of a tab, a text that is indented by tabs has the same tokens in the same lines,
or the same error in the same line, unless its column cannot be written. -/
theorem tokenize_tabs (alike : settings.Alike settings') (tabs : source.IsTabIndented) :
    (∀ tokens, tokenize settings source = .ok tokens → ∃ tokens',
      tokenize settings' source = .ok tokens' ∧
        tokens'.map Token.atLine = tokens.map Token.atLine) ∧
    ∀ cause, tokenize settings source = .error cause → ∃ cause',
      tokenize settings' source = .error cause' ∧ Error.Agrees IsSameLine cause cause' ∧
        (settings.Fits source → settings'.Fits source → cause'.atLine = cause.atLine) := by
  have agrees := agrees_tabs alike tabs
  refine ⟨fun tokens given => ?_, fun cause failure => ?_⟩
  · rw [tokenize_eq_reported] at given
    obtain ⟨tokens', given', all⟩ := agrees.exists_of_whole given
    refine ⟨tokens', by rw [tokenize_eq_reported, given'], ?_⟩
    apply map_eq_of_mem all
    intro token hmem token' hmem' hagrees
    apply hagrees.atLine_eq
    intro ends
    have ends' : token'.kind = .layout .newline := (Gist.mk.inj hagrees.gist).1 ▸ ends
    have hread : token ∈ (Lines.read settings source).tokens := by
      rwa [Reading.eq_of_reported (Reading.eq_of_whole given)]
    have hread' : token' ∈ (Lines.read settings' source).tokens := by
      rwa [Reading.eq_of_reported (Reading.eq_of_whole given')]
    exact text_eq_of_newline (fun _ => not_mem_of_mem_splitOn) hread hread' ends ends' hagrees.near
  · have failed := failure
    rw [tokenize_eq_reported] at failed
    obtain ⟨cause', failed', hcause⟩ := agrees.exists_of_whole_error failed
    have failure' : tokenize settings' source = .error cause' := by
      rw [tokenize_eq_reported, failed']
    refine ⟨cause', failure', hcause, fun fits fits' => ?_⟩
    apply hcause.atLine_eq
    · rintro rfl
      exact ne_tooLong_of_fits fits failure
    · rintro rfl
      exact ne_tooLong_of_fits fits' failure'

/-- A block behind a tab of four columns, and an error behind one. -/
theorem tokenize_tabs_block :
    (∃ tokens', tokenize .narrow ⟨"if\n\tx", "a"⟩ = .ok tokens' ∧
      tokens'.map Token.atLine =
        [⟨.keyword .ifWord, none, "if", ⟨1, 1, "a"⟩⟩, ⟨.layout .newline, none, "\n", ⟨1, 1, "a"⟩⟩,
          ⟨.layout .indent, none, "", ⟨2, 1, "a"⟩⟩, ⟨.name, some (.text "x"), "x", ⟨2, 1, "a"⟩⟩,
          ⟨.layout .dedent, none, "", ⟨2, 1, "a"⟩⟩, ⟨.layout .eof, none, "", ⟨2, 1, "a"⟩⟩]) ∧
      ∃ cause', tokenize .narrow ⟨"\t?", "a"⟩ = .error cause' ∧
        cause'.atLine = .lexical ⟨.unexpected '?', some ⟨1, 1, "a"⟩⟩ := by
  have alike : Settings.standard.Alike .narrow := ⟨rfl, rfl⟩
  have given : tokenize .standard ⟨"if\n\tx", "a"⟩ =
      .ok [⟨.keyword .ifWord, none, "if", ⟨1, 1, "a"⟩⟩, ⟨.layout .newline, none, "\n", ⟨1, 3, "a"⟩⟩,
        ⟨.layout .indent, none, "", ⟨2, 1, "a"⟩⟩, ⟨.name, some (.text "x"), "x", ⟨2, 9, "a"⟩⟩,
        ⟨.layout .dedent, none, "", ⟨2, 10, "a"⟩⟩, ⟨.layout .eof, none, "", ⟨2, 10, "a"⟩⟩] := by
    cbv
  have failure : tokenize .standard ⟨"\t?", "a"⟩ =
      .error (.lexical ⟨.unexpected '?', some ⟨1, 9, "a"⟩⟩) := by decide +kernel
  have tabs : (⟨"if\n\tx", "a"⟩ : Source).IsTabIndented :=
    isTabIndented_of_takeWhile (by decide)
  have tabs' : (⟨"\t?", "a"⟩ : Source).IsTabIndented := isTabIndented_of_takeWhile (by decide)
  obtain ⟨tokens', given', htokens⟩ := (tokenize_tabs alike tabs).1 _ given
  obtain ⟨cause', failure', -, hcause⟩ := (tokenize_tabs alike tabs').2 _ failure
  have fits : Settings.standard.Fits ⟨"\t?", "a"⟩ := by
    unfold Settings.Fits
    decide +kernel
  have fits' : Settings.narrow.Fits ⟨"\t?", "a"⟩ := by
    unfold Settings.Fits
    decide +kernel
  exact ⟨⟨tokens', given', htokens⟩, cause', failure', hcause fits fits'⟩

/-- Behind a tab of the greatest width, the same character is not the error that is reported. -/
theorem tokenize_tabs_wide :
    Settings.standard.Alike .wide ∧ (behindTab Location.unnamed '?').IsTabIndented ∧
      tokenize .standard (behindTab Location.unnamed '?') =
        .error (.lexical ⟨.unexpected '?', some ⟨1, 9, Location.unnamed⟩⟩) ∧
      tokenize .wide (behindTab Location.unnamed '?') = .error (.decimal .tooLong) := by
  have content : IsContent ['?'] := ⟨'?', [], rfl, by decide, by decide, by decide⟩
  refine ⟨⟨rfl, rfl⟩, isTabIndented_of_takeWhile (by decide), by decide +kernel, ?_⟩
  exact tokenize_behindTab Location.unnamed content (by decide) Settings.not_fits_wide

end Lexer

end Offside
