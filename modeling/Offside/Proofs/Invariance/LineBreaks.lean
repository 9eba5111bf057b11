import Offside.Proofs.Lines.Agreement
import Offside.Proofs.Lines.Correspondence

/-!
# Carriage returns at line breaks

A text means the same with carriage returns before or behind its line feeds, however many: it has
the same tokens at the same places, up to the texts of the line breaks, or the same error
(`tokenize_withReturns`).  So it does not matter whether its lines end in `\n`, in `\r\n` or in
`\n\r`.

## Strategy

A carriage return behind the last lexeme of a line is skipped like any blank, or is part of a
comment, and has no width; no lexeme holds one, so none gets longer by it (`linesAgree_returns`).
One in front of a line is part of the indentation, to which it adds nothing (`readLines_returns`).
The lines of the two texts agree one by one, and then the texts do.
-/

namespace Offside

open Lexeme

/-- A line feed with carriage returns before and behind it, as many as is said.  So `\r\n` is
`lineBreak 1 0`, and `\n\r` is `lineBreak 0 1`. -/
def lineBreak (before behind : ℕ) : List Char :=
  List.replicate before '\r' ++ '\n' :: List.replicate behind '\r'

example : lineBreak 1 0 = ['\r', '\n'] ∧ lineBreak 0 1 = ['\n', '\r'] := by decide

/-- The text in which every line feed has become a line break with more carriage returns. -/
def withReturns (before behind : ℕ) (text : List Char) : List Char :=
  text.flatMap fun c => if c = '\n' then lineBreak before behind else [c]

/-- The source of which every line feed has become a line break with more carriage returns. -/
def Source.withReturns (before behind : ℕ) (source : Source) : Source :=
  ⟨String.ofList (Offside.withReturns before behind source.text.toList), source.name⟩

/-- The gist of a token, and where it stands. -/
def Token.placed (token : Token) : Gist × Location := (token.gist, token.location)

/-- Tokens that agree and stand at the same position stand at the same place. -/
theorem Token.Agrees.placed_eq {token token' : Token} (h : Token.Agrees Eq token token') :
    token'.placed = token.placed := by
  have hlocation : token'.location = token.location := by
    show Location.ofPosition token'.location.file token'.location.position =
      Location.ofPosition token.location.file token.location.position
    rw [h.file, h.near]
  rw [Token.placed, Token.placed, h.gist, hlocation]

/-! ## Changing the line breaks of a text -/

theorem withReturns_of_not_mem (before behind : ℕ) {line : List Char} (hline : '\n' ∉ line) :
    withReturns before behind line = line := by
  induction line with
  | nil => rfl
  | cons c line ih =>
      obtain ⟨hc, hline⟩ := List.ne_and_not_mem_of_not_mem_cons hline
      rw [withReturns, List.flatMap_cons, if_neg hc.symm]
      exact congrArg (c :: ·) (ih hline)

theorem withReturns_append_feed (before behind : ℕ) {line : List Char} (hline : '\n' ∉ line)
    (text : List Char) :
    withReturns before behind (line ++ '\n' :: text) =
      (line ++ List.replicate before '\r') ++
        '\n' :: (List.replicate behind '\r' ++ withReturns before behind text) := by
  have hline' := withReturns_of_not_mem before behind hline
  unfold withReturns at hline' ⊢
  rw [List.flatMap_append, List.flatMap_cons, if_pos rfl, hline', lineBreak]
  simp only [List.append_assoc, List.cons_append]

namespace Lines

variable {settings : Settings} {name : String} {number : Int} {levels : Levels}

theorem eq_return_of_mem {count : ℕ} {c : Char} (h : c ∈ List.replicate count '\r') : c = '\r' :=
  List.eq_of_mem_replicate h

theorem blank_of_mem_returns {count : ℕ} :
    ∀ c ∈ List.replicate count '\r', CharClass.blank.has c := by
  intro c hc
  rw [eq_return_of_mem hc]
  decide

theorem feed_not_mem_returns (count : ℕ) : '\n' ∉ List.replicate count '\r' :=
  not_mem_of_blank blank_of_mem_returns

theorem isSteady_eq {width : Int} : IsSteady width width Eq := by
  rintro position _ c - rfl
  rfl

/-! ## Carriage returns in front of a line -/

theorem readLines_replicate (count : ℕ) (line : List Char) (lines : List (List Char)) :
    readLines settings name number levels ((List.replicate count '\r' ++ line) :: lines) =
      readLines settings name number levels (line :: lines) := by
  induction count with
  | zero => rfl
  | succ count ih =>
      rw [List.replicate_succ, List.cons_append, readLines_return, ih]

/-- Carriage returns in front of a text change nothing. -/
theorem readLines_returns (count : ℕ) (text : List Char) :
    readLines settings name number levels ((List.replicate count '\r' ++ text).splitOn '\n') =
      readLines settings name number levels (text.splitOn '\n') := by
  obtain ⟨line, tail, rfl, hline, htail⟩ := exists_lineTail text
  obtain ⟨behind, hbehind⟩ := exists_splitOn_of_lineTail htail
  have hreturns := List.not_mem_append (feed_not_mem_returns count) hline
  rw [← List.append_assoc, hbehind _ hreturns, hbehind _ hline, readLines_replicate]

/-! ## Carriage returns behind a line -/

theorem isSilent_returns (count : ℕ) :
    IsSilent settings name (List.replicate count '\r') where
  blank := isBlank_of_blank blank_of_mem_returns
  contents position := by
    have hcontents := @contents_blanks settings name position _ (@blank_of_mem_returns count) []
    rwa [List.append_nil, Position.after_returns _ fun _ => eq_return_of_mem, contents_nil]
      at hcontents

/-- A line agrees with itself with carriage returns behind it. -/
theorem linesAgree_returns {line : List Char} (hline : '\n' ∉ line) (count : ℕ) :
    LinesAgree settings name Eq number number line (line ++ List.replicate count '\r') := by
  apply linesAgree_append isSteady_eq (fun _ => rfl) hline (isSilent_returns count)
  · intro run body indented begins
    right
    intro c rest h
    rw [@eq_return_of_mem count c (by simp [h])]
    decide
  · rw [Position.after_append, Position.after_returns _ fun _ => eq_return_of_mem]

/-! ## Texts -/

/-- Line by line, a text agrees with itself with carriage returns at its line breaks. -/
theorem agrees_withReturns (before behind : ℕ) {lines : List (List Char)} {rest : List Char}
    (hlines : ∀ line ∈ lines, '\n' ∉ line) (hrest : '\n' ∉ rest) :
    Reading.Agrees Eq Eq
      (readLines settings name number levels ((ended lines ++ rest).splitOn '\n'))
      (readLines settings name number levels
        ((withReturns before behind (ended lines ++ rest)).splitOn '\n')) := by
  induction lines generalizing number levels with
  | nil =>
      rw [ended_nil, List.nil_append, withReturns_of_not_mem _ _ hrest,
        List.splitOn_eq_singleton hrest]
      exact agrees_readLines isSteady_eq (by simpa using hrest) fun _ => rfl
  | cons line lines ih =>
      have hline := hlines line (List.mem_cons_self ..)
      have hline' := List.not_mem_append hline (feed_not_mem_returns before)
      rw [ended_cons, List.append_assoc, List.cons_append, withReturns_append_feed _ _ hline,
        List.splitOn_append_cons_self_of_not_mem hline,
        List.splitOn_append_cons_self_of_not_mem hline']
      apply agrees_cons (linesAgree_returns hline before) (by simp [List.splitOn_ne_nil])
      intro levels
      rw [readLines_returns]
      exact ih fun line hmem => hlines line (List.mem_cons_of_mem _ hmem)

end Lines

namespace Lexer

/-- Carriage returns at the line breaks of a text change nothing but the texts of these breaks. -/
theorem tokenize_withReturns (settings : Settings) (source : Source) (before behind : ℕ) :
    (tokenize settings (source.withReturns before behind)).map (List.map Token.placed) =
      (tokenize settings source).map (List.map Token.placed) := by
  obtain ⟨lines, rest, htext, hlines, hrest⟩ := Lines.exists_ended source.text.toList
  have agrees : Reading.Agrees Eq Eq (Lines.read settings source)
      (Lines.read settings (source.withReturns before behind)) := by
    unfold Lines.read Source.withReturns
    rw [String.toList_ofList, htext]
    exact Lines.agrees_withReturns before behind hlines hrest
  rw [tokenize_eq_reported, tokenize_eq_reported]
  have same : ∀ cause cause', Error.Agrees Eq cause cause' → cause' = id cause := by
    intro cause cause' h
    cases h with
    | decoding cause => rfl
    | located cause file heq => rw [heq, id]
  rw [agrees.map_whole (fun _ _ => Token.Agrees.placed_eq) same]
  cases (Lines.read settings source).reported.whole <;> rfl

end Lexer

end Offside
