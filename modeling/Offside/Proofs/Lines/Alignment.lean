import Offside.Proofs.Lines.Correspondence

/-!
# Lines that differ in their indentation

Two lines with the same lexemes may begin with different blanks, or with the same blanks at
different widths of a tab.  They are read alike as long as their columns are aligned, that is, open
and close the same blocks (`IsAligned`), and texts are read alike whose lines are, one by one
(`agrees_of_forall₂`).

The open blocks of the two texts need not have the same columns.  Which blocks correspond is left
to a relation, which every line has to keep.  Where a line without lexemes ends does not matter,
unless it is the last one, at the end of which the remaining blocks are closed.
-/

namespace Offside.Lines

open Lexeme

variable {settings settings' : Settings} {name : String} {near : Position → Position → Prop}
  {related : Levels → Levels → Prop} {line line' run run' body : List Char} {level level' : Int}
  {lines lines' : List (List Char)}

/-- Lines at the two columns open and close the same blocks, and keep the blocks related. -/
def IsAligned (related : Levels → Levels → Prop) (level level' : Int) : Prop :=
  ∀ levels levels', related levels levels' →
    ∃ marks reached reached', arrange levels level = (marks, reached) ∧
      arrange levels' level' = (marks, reached') ∧
      (reached.top = level ↔ reached'.top = level') ∧ related reached reached'

/-- Lines that agree with any number, whatever related blocks are open and whatever line follows,
if one does. -/
def ReadsAlike (settings settings' : Settings) (name : String) (near : Position → Position → Prop)
    (related : Levels → Levels → Prop) (line line' : List Char) : Prop :=
  ∀ number levels levels' following following', related levels levels' →
    (following = none ↔ following' = none) →
    Reading.Agrees near related (readLine settings name number levels line following)
      (readLine settings' name number levels' line' following')

theorem isAligned_eq (level : Int) : IsAligned Eq level level := by
  rintro levels _ rfl
  exact ⟨_, _, _, rfl, rfl, Iff.rfl, rfl⟩

/-! ## Lines -/

theorem readsAlike_of_isBlank (blank : IsBlank line) (blank' : IsBlank line') :
    ReadsAlike settings settings' name near related line line' := by
  intro number levels levels' following following' arrived ends
  rw [readLine_of_isBlank blank, readLine_of_isBlank blank']
  exact .ok .nil arrived

/-- Lines with the same lexemes behind blanks that reach aligned columns. -/
theorem readsAlike_of_indented (alike : settings.Alike settings')
    (steady : IsSteady settings.tabWidth settings'.tabWidth near)
    (starts : ∀ number, near ⟨number, 1⟩ ⟨number, 1⟩)
    (indented : Indented line run body) (indented' : Indented line' run' body)
    (content : IsContent body) (hbody : '\n' ∉ body)
    (reaches : Indentation.column settings.tabWidth run = .ok level)
    (reaches' : Indentation.column settings'.tabWidth run' = .ok level')
    (aligned : IsAligned related level level')
    (behind : ∀ number, near ((⟨number, 1⟩ : Position).after settings.tabWidth run)
      ((⟨number, 1⟩ : Position).after settings'.tabWidth run')) :
    ReadsAlike settings settings' name near related line line' := by
  intro number levels levels' following following' open' ends
  obtain ⟨marks, reached, reached', arranged, arranged', resolved, arrived⟩ :=
    aligned levels levels' open'
  have agrees := @agrees_contents settings settings' name near _ _ alike steady body hbody
    (behind number)
  exact agrees_readLine (starts number) indented indented' content content reaches reaches' arranged
    arranged' resolved arrived agrees ends

/-! ## Texts -/

/-- Texts agree if their lines do, one by one, and the last ones end at related positions. -/
theorem agrees_of_forall₂ {pairs : List Char → List Char → Prop}
    (all : List.Forall₂ pairs lines lines') (hlines : ∀ line ∈ lines, '\n' ∉ line)
    (depth : ∀ levels levels', related levels levels' → levels.depth = levels'.depth)
    (alike : ∀ line line', '\n' ∉ line → pairs line line' →
      ReadsAlike settings settings' name near related line line')
    (stop : ∀ last last', '\n' ∉ last → pairs last last' → lines.getLast? = some last →
      lines'.getLast? = some last' → ∀ number,
        near ((⟨number, 1⟩ : Position).after settings.tabWidth last)
          ((⟨number, 1⟩ : Position).after settings'.tabWidth last'))
    {number : Int} {levels levels' : Levels} (arrived : related levels levels') :
    Reading.Agrees near Eq (readLines settings name number levels lines)
      (readLines settings' name number levels' lines') := by
  induction all generalizing number levels levels' with
  | nil => exact .ok .nil rfl
  | @cons line line' lines lines' first more ih =>
      obtain ⟨hline, hmore⟩ := List.forall_mem_cons.mp hlines
      have hnil : lines = [] ↔ lines' = [] := by
        rw [← List.length_eq_zero_iff, ← List.length_eq_zero_iff, more.length_eq]
      -- Either this line is the last one of both texts, or the last ones are still to come.
      apply agrees_cons_of depth _ hnil
      · rintro rfl
        obtain rfl := hnil.mp rfl
        exact stop line line' hline first rfl rfl number
      · intro reached reached' arrived'
        apply ih hmore _ arrived'
        intro last last' hlast paired hlines hlines'
        have nonempty : lines ≠ [] := by
          rintro rfl
          simp at hlines
        rw [← List.getLast?_cons_of_ne_nil nonempty] at hlines
        rw [← List.getLast?_cons_of_ne_nil (mt hnil.mpr nonempty)] at hlines'
        exact stop last last' hlast paired hlines hlines'
      · intro following following' ends
        exact alike line line' hline first number levels levels' following following' arrived ends

end Offside.Lines
