import Offside.Proofs.Lines.Separation
import Offside.Proofs.Lines.Grammar

/-!
# Programs

A program is what matters of a text: lines of lexemes, and how deep each line stands in blocks.  It
can be written down in many ways (`Program.render`): the unit of indentation and the blanks between
lexemes are free, and the last line may or may not be ended.  What is read from it is always the
same up to where it stands, and `Program.gists` says what.

`Token.gist` is what tokens are compared by: everything but the location, and but the text of a line
break, in which carriage returns may take part.
-/

namespace Offside

open Lexeme Lines

/-! ## Gists -/

/-- What is left of a token when it is not told where it stands. -/
structure Gist where
  kind : Kind
  value : Option Value
  /-- The text, unless the token ends a line. -/
  text : Option String
  deriving DecidableEq, Repr

/-- The gist of a token. -/
def Token.gist (token : Token) : Gist :=
  ⟨token.kind, token.value, if token.kind = .layout .newline then none else some token.text⟩

/-- The gist of a mark of the layout. -/
def Gist.mark (layout : Layout) : Gist :=
  ⟨.layout layout, none, if layout = .newline then none else some ""⟩

/-- The gist of a lexeme that the decoder does not refuse. -/
def Lexeme.Shape.gist (settings : Settings) (shape : Shape) : Gist :=
  ⟨shape.kind, (shape.value settings).toOption.join, some (String.ofList shape.text)⟩

@[simp] theorem gist_mark (name : String) (position : Position) (layout : Layout) :
    (mark name position layout).gist = .mark layout := by
  cases layout <;> rfl

theorem gist_marks (name : String) (position : Position) (marks : List Layout) :
    (marks.map (mark name position)).map Token.gist = marks.map Gist.mark := by
  rw [List.map_map]
  exact List.map_congr_left fun layout _ => gist_mark name position layout

@[simp] theorem gist_newline (name : String) (position : Position) (line following : List Char) :
    (newline name position line following).gist = .mark .newline := rfl

@[simp] theorem gist_closing (name : String) (position : Position) (levels : Levels) :
    (closing name position levels).map Token.gist =
      List.replicate levels.depth (.mark .dedent) ++ [.mark .eof] := by
  simp [closing, Levels.depth, List.map_const']

namespace Lexeme.Shape

/-- A lexeme that makes a token. -/
structure IsReadable (settings : Settings) (shape : Shape) : Prop where
  valid : shape.IsValid
  fits : ¬ shape.IsTooLarge settings
  accepted : ∃ value, shape.value settings = .ok value

variable {settings : Settings} {location : Location} {shape : Shape} {token : Token}

theorem IsReadable.exists_read (h : shape.IsReadable settings) (location : Location) :
    ∃ token, shape.read settings location = .ok token := by
  obtain ⟨value, hvalue⟩ := h.accepted
  exact ⟨_, read_of_value location h.fits hvalue⟩

theorem isReadable_of_read (valid : shape.IsValid)
    (h : shape.read settings location = .ok token) : shape.IsReadable settings := by
  obtain ⟨fits, value, hvalue, -⟩ := exists_of_read h
  exact ⟨valid, fits, value, hvalue⟩

/-- The gist of the token that a lexeme makes. -/
theorem gist_of_read (h : shape.read settings location = .ok token) :
    token.gist = shape.gist settings := by
  have hlayout := isLayout_of_read h
  obtain ⟨-, value, hvalue, rfl⟩ := exists_of_read h
  have hkind : shape.kind ≠ .layout .newline := by
    intro hkind
    simp [hkind, Kind.isLayout] at hlayout
  simp [Token.gist, gist, hkind, hvalue, Except.toOption]

/-- Where the decoder refuses nothing, every lexeme has a value. -/
theorem exists_value (accepts : ∀ body, ∃ decoded, settings.decoder.run body = .ok decoded)
    (shape : Shape) : ∃ found, shape.value settings = .ok found := by
  cases shape with
  | quoted mark body =>
      obtain ⟨decoded, hdecoded⟩ := accepts (String.ofList body)
      exact ⟨some (.text decoded), by simp [value, hdecoded]⟩
  | operator op => exact ⟨none, rfl⟩
  | word letters =>
      cases hword : Keyword.ofText? (String.ofList letters) with
      | some keyword => exact ⟨none, by simp [value, hword]⟩
      | none => exact ⟨some (.text (String.ofList letters)), by simp [value, hword]⟩
  | integer digits => exact ⟨_, rfl⟩

end Lexeme.Shape

/-! ## Programs as text -/

namespace Program

/-- A line of a program. -/
structure Line where
  /-- The number of blocks around the line. -/
  depth : ℕ
  /-- The first lexeme. -/
  first : Shape
  /-- The other lexemes, each with the blanks in front of it. -/
  others : List (List Char × Shape)
  deriving DecidableEq, Repr

/-- The lexemes of a line. -/
def Line.shapes (line : Line) : List Shape := line.first :: line.others.map (·.2)

/-- No line stands more than one block deeper than the line before it, which is `previous` blocks
deep. -/
def Nested (previous : ℕ) : List Line → Prop
  | [] => True
  | line :: more => line.depth ≤ previous + 1 ∧ Nested line.depth more

/-- Blanks that may stand between two lexemes: spaces and tabs, but not none. -/
def IsSeparator (run : List Char) : Prop := run ≠ [] ∧ ∀ c ∈ run, c = ' ' ∨ c = '\t'

/-- What lines may be indented by, over and over: some spaces, or one tab. -/
def IsUnit (unit : List Char) : Prop :=
  (∃ count, 0 < count ∧ unit = List.replicate count ' ') ∨ unit = ['\t']

/-- The text of lexemes that each have blanks in front of them. -/
def spread (others : List (List Char × Shape)) : List Char :=
  others.flatMap fun (run, shape) => run ++ shape.text

/-- The text of a line behind its indentation. -/
def Line.body (line : Line) : List Char := line.first.text ++ spread line.others

/-- The text of a line, without its line feed. -/
def Line.render (unit : List Char) (line : Line) : List Char :=
  (List.replicate line.depth unit).flatten ++ line.body

/-- The text of a program, with or without a line feed at its end. -/
def render (unit : List Char) (final : Bool) (lines : List Line) : List Char :=
  ['\n'].intercalate (lines.map (Line.render unit)) ++ if final then ['\n'] else []

/-! ## Programs as tokens -/

/-- The marks in front of a line `depth` blocks deep that follows one `previous` blocks deep. -/
def opening (previous depth : ℕ) : List Gist :=
  if depth = previous + 1 then [.mark .indent]
  else List.replicate (previous - depth) (.mark .dedent)

/-- What a program is read to, if the line before it is `previous` blocks deep. -/
def gists (settings : Settings) (final : Bool) (previous : ℕ) : List Line → List Gist
  | [] => List.replicate previous (.mark .dedent) ++ [.mark .eof]
  | line :: more =>
    opening previous line.depth ++ line.shapes.map (Shape.gist settings) ++
      (if final ∨ more ≠ [] then [.mark .newline] else []) ++ gists settings final line.depth more

theorem opening_of_le {previous depth : ℕ} (h : depth ≤ previous) :
    opening previous depth = List.replicate (previous - depth) (.mark .dedent) :=
  if_neg (by omega)

/-- The marks of a line are those that its depth calls for. -/
theorem opening_of_arrange {levels reached : Levels} {level : Int} {marks : List Layout}
    (arranged : arrange levels level = (marks, reached)) :
    marks.map Gist.mark = opening levels.depth reached.depth ∧
      reached.depth ≤ levels.depth + 1 := by
  unfold arrange at arranged
  split at arranged
  · obtain ⟨rfl, rfl⟩ := Prod.mk.inj arranged
    exact ⟨(if_pos rfl).symm, Nat.le_refl _⟩
  · obtain ⟨rfl, rfl⟩ := Prod.mk.inj arranged
    -- Each block is closed or left open.
    have hlength := congrArg List.length
      (List.takeWhile_append_dropWhile (p := (level < ·)) (l := levels.opened))
    rw [List.length_append] at hlength
    have hle : Levels.depth ⟨levels.opened.dropWhile (level < ·)⟩ ≤ levels.depth := by
      show (levels.opened.dropWhile _).length ≤ levels.opened.length
      omega
    refine ⟨?_, Nat.le_succ_of_le hle⟩
    rw [opening_of_le hle, List.map_map]
    unfold Levels.depth
    rw [← hlength, Nat.add_sub_cancel]
    exact List.map_const' ..

/-- What a line gives if its column is that of an open block and all its lexemes can be read. -/
theorem readLine_of_contents {settings : Settings} {name : String} {number level : Int}
    {levels reached : Levels} {line run body : List Char} {following : Option (List Char)}
    {marks : List Layout} {lexemes : List Token} {stop : Position}
    (indented : Indented line run body) (content : IsContent body)
    (reaches : Indentation.column settings.tabWidth run = .ok level)
    (arranged : arrange levels level = (marks, reached)) (hlevel : reached.top = level)
    (hcontents : contents settings name ((⟨number, 1⟩ : Position).after settings.tabWidth run)
      body = ⟨lexemes, .ok stop⟩) (f : Levels → Reading Fault Unit) :
    (readLine settings name number levels line following >>= f) = (f reached).preceded
      (marks.map (mark name ⟨number, 1⟩) ++ lexemes ++ ending name stop line following) := by
  rw [readLine_bind indented content reaches arranged, if_neg (not_not.mpr hlevel), hcontents,
    Reading.bind_of_ok rfl]
  cases following with
  | none => simp only [ending, List.append_nil, Reading.preceded_append]
  | some following => simp only [ending, Reading.preceded_append]

theorem gist_ending (name : String) (stop : Position) (line : List Char)
    (following : Option (List Char)) :
    (ending name stop line following).map Token.gist =
      if following.isSome then [.mark .newline] else [] := by
  cases following with
  | none => rfl
  | some following => rfl

/-- A line of which every lexeme can be read and stands apart from the one before it. -/
structure Line.IsReadable (settings : Settings) (line : Line) : Prop where
  shapes : ∀ shape ∈ line.shapes, shape.IsReadable settings
  separators : ∀ other ∈ line.others, IsSeparator other.1

end Program

end Offside
