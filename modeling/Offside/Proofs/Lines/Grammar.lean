import Offside.Proofs.Lines.Reading

/-!
# The grammar of tokens

The tokens of a text come line by line.  A line with lexemes opens a block, or closes some, or does
neither; its lexemes follow, and then the mark for its end, which only the last line lacks.  At the
end of the text blocks are closed, and the stream ends.  `IsStream` is this grammar, together with
the numbers of the lines that the tokens are located in.

Reading line by line gives such a stream (`isOrderly_readLines`), and where it fails, tokens that go
on as one if a lexeme is put where the error is.
-/

namespace Offside

/-- The marks of a line, for a block that it opens or for those that it closes. -/
def IsOpening (marks : List Token) : Prop :=
  marks.map (·.kind) = [.layout .indent] ∨ ∀ mark ∈ marks, mark.kind = .layout .dedent

/-- What there may be of the line with a given number when something goes wrong in it. -/
structure IsBeginning (number : Int) (marks lexemes : List Token) : Prop where
  opening : IsOpening marks
  content : ∀ token ∈ lexemes, token.kind.isLayout = false
  inLine : ∀ token ∈ marks ++ lexemes, token.location.line = number

/-- The marks and the lexemes of the line with a given number. -/
structure IsLine (number : Int) (marks lexemes : List Token) : Prop
    extends IsBeginning number marks lexemes where
  nonempty : lexemes ≠ []

/-- The blocks that are closed at the end of a text, and the end. -/
def IsClosing (tokens : List Token) : Prop :=
  ∃ dedents eof, tokens = dedents ++ [eof] ∧
    (∀ token ∈ dedents, token.kind = .layout .dedent) ∧ eof.kind = .layout .eof

/-- Tokens of lines that come later than the line `last`, up to the end of the text. -/
inductive IsStream : Int → List Token → Prop
  | line {last number : Int} {marks lexemes more : List Token} {newline : Token}
      (later : last < number) (line : IsLine number marks lexemes)
      (ends : newline.kind = .layout .newline) (inLine : newline.location.line = number)
      (next : IsStream number more) : IsStream last (marks ++ lexemes ++ newline :: more)
  | lastLine {last number : Int} {marks lexemes closing : List Token} (later : last < number)
      (line : IsLine number marks lexemes) (ends : IsClosing closing) :
      IsStream last (marks ++ lexemes ++ closing)
  | closing {last : Int} {closing : List Token} (ends : IsClosing closing) : IsStream last closing

/-- Tokens that stop somewhere in a line.  Any lexeme in that line goes on with them to a stream. -/
def IsCut (last : Int) (tokens : List Token) : Prop :=
  ∃ number, ∀ lexeme closing, lexeme.kind.isLayout = false → lexeme.location.line = number →
    IsClosing closing → IsStream last (tokens ++ lexeme :: closing)

/-- The tokens of a reading form a stream, or one that is cut by the error. -/
structure IsOrderly (last : Int) (reading : Reading Fault Unit) : Prop where
  whole : ∀ value, reading.result = .ok value → IsStream last reading.tokens
  cut : ∀ fault, reading.result = .error fault → IsCut last reading.tokens

/-! ## Streams that begin later -/

section Streams

variable {last earlier number : Int} {marks lexemes tokens : List Token}
  {reading : Reading Fault Unit}

theorem IsStream.of_le (h : IsStream last tokens) (hle : earlier ≤ last) :
    IsStream earlier tokens := by
  cases h with
  | line later line ends inLine next =>
      exact .line (Int.lt_of_le_of_lt hle later) line ends inLine next
  | lastLine later line ends => exact .lastLine (Int.lt_of_le_of_lt hle later) line ends
  | closing ends => exact .closing ends

theorem IsCut.of_le (h : IsCut last tokens) (hle : earlier ≤ last) : IsCut earlier tokens := by
  obtain ⟨number, hstream⟩ := h
  refine ⟨number, fun lexeme closing content inLine ends => ?_⟩
  exact (hstream lexeme closing content inLine ends).of_le hle

theorem IsOrderly.of_le (h : IsOrderly last reading) (hle : earlier ≤ last) :
    IsOrderly earlier reading where
  whole value hvalue := (h.whole value hvalue).of_le hle
  cut fault hfault := (h.cut fault hfault).of_le hle

/-- A lexeme makes the beginning of a line a line. -/
theorem IsBeginning.isLine {lexeme : Token} (h : IsBeginning number marks lexemes)
    (content : lexeme.kind.isLayout = false) (inLine : lexeme.location.line = number) :
    IsLine number marks (lexemes ++ [lexeme]) where
  opening := h.opening
  content token hmem := by
    rcases List.mem_append.mp hmem with hmem | hmem
    · exact h.content token hmem
    · exact List.mem_singleton.mp hmem ▸ content
  inLine token hmem := by
    rw [← List.append_assoc] at hmem
    rcases List.mem_append.mp hmem with hmem | hmem
    · exact h.inLine token hmem
    · exact List.mem_singleton.mp hmem ▸ inLine
  nonempty := by simp

/-- The beginning of a line may be all that there is before an error. -/
theorem IsBeginning.isCut (h : IsBeginning number marks lexemes) (later : last < number) :
    IsCut last (marks ++ lexemes) := by
  refine ⟨number, fun lexeme closing content inLine ends => ?_⟩
  have hstream := IsStream.lastLine later (h.isLine content inLine) ends
  simpa only [List.append_assoc, List.singleton_append] using hstream

theorem IsBeginning.isOrderly {fault : Fault} (h : IsBeginning number marks lexemes)
    (later : last < number) : IsOrderly last ⟨marks ++ lexemes, .error fault⟩ where
  whole value hvalue := by cases hvalue
  cut _ _ := h.isCut later

theorem IsStream.isOrderly (h : IsStream last tokens) : IsOrderly last (.emit tokens) where
  whole _ _ := h
  cut fault hfault := by cases hfault

/-- A line that ends goes in front of what follows. -/
theorem IsOrderly.line {newline : Token} (h : IsOrderly number reading) (later : last < number)
    (line : IsLine number marks lexemes) (ends : newline.kind = .layout .newline)
    (inLine : newline.location.line = number) :
    IsOrderly last (reading.preceded (marks ++ lexemes ++ [newline])) where
  whole value hvalue := by
    have hstream := IsStream.line later line ends inLine (h.whole value hvalue)
    simpa only [Reading.preceded, List.append_assoc, List.singleton_append] using hstream
  cut fault hfault := by
    obtain ⟨cutLine, hstream⟩ := h.cut fault hfault
    refine ⟨cutLine, fun lexeme closing content inLine' ends' => ?_⟩
    have hmore :=
      IsStream.line later line ends inLine (hstream lexeme closing content inLine' ends')
    simpa only [Reading.preceded, List.append_assoc, List.cons_append, List.nil_append] using hmore

end Streams

namespace Lines

open Lexeme

variable {settings : Settings} {name : String}

/-! ## Lexemes of a line -/

/-- The lexemes that are read from a position on are in its line, and so is the place where they
end. -/
theorem inLine_contents (position : Position) (text : List Char) :
    (∀ token ∈ (contents settings name position text).tokens,
      token.kind.isLayout = false ∧ token.location.line = position.line) ∧
      ∀ stop, (contents settings name position text).result = .ok stop →
        stop.line = position.line := by
  fun_induction contents settings name position text with
  | case1 position => exact ⟨by simp [pure], fun stop hstop => by cases hstop; rfl⟩
  | case2 position c rest hc ih =>
      rwa [Position.line_moved _ (ne_feed_of_blank hc)] at ih
  | case3 position rest => exact ⟨by simp [pure], fun stop hstop => by cases hstop; rfl⟩
  | case4 position c rest hblank hmark hnone =>
      exact ⟨by simp [Reading.stop], fun stop hstop => by cases hstop⟩
  | case5 position c rest hblank hmark shape hshape ih =>
      have valid := (isLongest_of_longest? hshape).valid
      rw [Position.line_after_of_not_mem (Shape.not_mem_text valid)] at ih
      cases hread : shape.read settings (.ofPosition name position) with
      | error cause => exact ⟨by simp [Reading.stop, bind], fun stop hstop => by cases hstop⟩
      | ok token =>
          refine ⟨?_, ih.2⟩
          intro other hother
          rcases List.mem_cons.mp hother with rfl | hmem
          · exact ⟨Shape.isLayout_of_read hread, by rw [Shape.location_of_read hread]; rfl⟩
          · exact ih.1 other hmem

/-- Where a lexeme should begin, there is one or an error. -/
theorem contents_ne_nil {position stop : Position} {text : List Char} (content : IsContent text)
    (h : (contents settings name position text).result = .ok stop) :
    (contents settings name position text).tokens ≠ [] := by
  cases hshape : longest? text with
  | none =>
      obtain ⟨c, rest, rfl, -⟩ := id content
      rw [contents_unexpected position content hshape] at h
      simp [Reading.stop] at h
  | some shape =>
      rw [contents_lexeme position content hshape] at h ⊢
      cases hread : shape.read settings (.ofPosition name position) with
      | error cause =>
          rw [hread] at h
          simp [Reading.stop] at h
      | ok token => simp [Reading.preceded]

/-! ## Marks of a line -/

variable {number : Int} {levels : Levels}

/-- A line opens one block, or closes some. -/
theorem isOpening_arrange (levels : Levels) (level : Int) (position : Position) :
    IsOpening ((arrange levels level).1.map (mark name position)) := by
  unfold arrange
  split
  · exact Or.inl rfl
  · refine Or.inr fun token hmem => ?_
    simp only [List.map_map, List.mem_map] at hmem
    obtain ⟨level', -, rfl⟩ := hmem
    rfl

theorem isClosing_closing (position : Position) (levels : Levels) :
    IsClosing (closing name position levels) := by
  refine ⟨_, _, rfl, fun token hmem => ?_, rfl⟩
  obtain ⟨level, -, rfl⟩ := List.mem_map.mp hmem
  rfl

/-! ## Lines -/

/-- The lexemes of a line behind its marks, and then what follows the whole line. -/
theorem isOrderly_contents {last : Int} {position : Position} {marks : List Token}
    {body : List Char} {f : Position → Reading Fault Unit} (later : last < position.line)
    (opening : IsOpening marks) (inLine : ∀ token ∈ marks, token.location.line = position.line)
    (content : IsContent body)
    (next : ∀ lexemes stop, stop.line = position.line → IsLine position.line marks lexemes →
      IsOrderly last ((f stop).preceded (marks ++ lexemes))) :
    IsOrderly last ((contents settings name position body >>= f).preceded marks) := by
  obtain ⟨hlexemes, hstop⟩ := @inLine_contents settings name position body
  have beginning :
      IsBeginning position.line marks (contents settings name position body).tokens := by
    refine ⟨opening, fun token hmem => (hlexemes token hmem).1, fun token hmem => ?_⟩
    rcases List.mem_append.mp hmem with hmem | hmem
    · exact inLine token hmem
    · exact (hlexemes token hmem).2
  cases hresult : (contents settings name position body).result with
  | ok stop =>
      have line : IsLine position.line marks (contents settings name position body).tokens :=
        ⟨beginning, contents_ne_nil content hresult⟩
      rw [Reading.bind_of_ok hresult, ← Reading.preceded_append]
      exact next _ stop (hstop stop hresult) line
  | error cause =>
      rw [Reading.bind_of_error hresult]
      exact beginning.isOrderly later

/-- The mark for the end of a line, unless it is the last. -/
def ending (name : String) (stop : Position) (line : List Char) : Option (List Char) → List Token
  | none => []
  | some following => [newline name stop line following]

/-- A line, and then what follows it. -/
theorem isOrderly_readLine {last : Int} {line : List Char} {following : Option (List Char)}
    {f : Levels → Reading Fault Unit} (later : last < number) (hline : '\n' ∉ line)
    (blank : IsOrderly last (f levels))
    (next : ∀ marks lexemes stop reached, stop.line = number → IsLine number marks lexemes →
      IsOrderly last ((f reached).preceded (marks ++ lexemes ++ ending name stop line following))) :
    IsOrderly last (readLine settings name number levels line following >>= f) := by
  rcases line_cases hline with hblank | ⟨run, body, indented, content, -⟩
  · rw [readLine_of_isBlank hblank]
    exact blank
  · obtain ⟨level, marks, reached, reaches, arranged⟩ := exists_arrange settings levels run
    have opening : IsOpening (marks.map (mark name ⟨number, 1⟩)) := by
      have hopening := @isOpening_arrange name levels level ⟨number, 1⟩
      rwa [arranged] at hopening
    have hmarks : ∀ token ∈ marks.map (mark name ⟨number, 1⟩), token.location.line = number := by
      intro token hmem
      obtain ⟨layout, -, rfl⟩ := List.mem_map.mp hmem
      rfl
    have hnumber : ((⟨number, 1⟩ : Position).after settings.tabWidth run).line = number :=
      Position.line_after_of_not_mem (not_mem_of_blank indented.blank) _
    rw [readLine_bind indented content reaches arranged]
    split
    · have beginning : IsBeginning number (marks.map (mark name ⟨number, 1⟩)) [] :=
        ⟨opening, by simp, by simpa using hmarks⟩
      exact beginning.isOrderly later
    · refine isOrderly_contents (by rwa [hnumber]) opening (by rwa [hnumber]) content ?_
      rw [hnumber]
      intro lexemes stop hstop isLine
      have hnext := next _ lexemes stop reached hstop isLine
      cases following with
      | none => rwa [ending, List.append_nil] at hnext
      | some following => rwa [ending, Reading.preceded_append] at hnext

theorem not_mem_of_mem_splitOn {text line : List Char} (h : line ∈ text.splitOn '\n') :
    '\n' ∉ line := by
  induction text generalizing line with
  | nil =>
      rw [List.splitOn_nil] at h
      simp [List.mem_singleton.mp h]
  | cons c text ih =>
      obtain ⟨first, others, htext⟩ := List.exists_cons_of_ne_nil (List.splitOn_ne_nil '\n' text)
      rw [List.splitOn_cons_eq_if_modifyHead, htext] at h
      rw [htext] at ih
      split at h
      · rcases List.mem_cons.mp h with rfl | hmem
        · exact List.not_mem_nil
        · exact ih hmem
      · next hc =>
          rcases List.mem_cons.mp h with rfl | hmem
          · intro hfeed
            rcases List.mem_cons.mp hfeed with rfl | hfirst
            · exact hc rfl
            · exact ih (List.mem_cons_self ..) hfirst
          · exact ih (List.mem_cons_of_mem _ hmem)

/-- Lines are read to a stream. -/
theorem isOrderly_readLines {last : Int} {lines : List (List Char)} (later : last < number)
    (hlines : ∀ line ∈ lines, '\n' ∉ line) (nonempty : lines ≠ []) :
    IsOrderly last (readLines settings name number levels lines) := by
  induction lines generalizing number last levels with
  | nil => exact absurd rfl nonempty
  | cons line lines ih =>
      have hline := hlines line (List.mem_cons_self ..)
      cases lines with
      | nil =>
          rw [readLines]
          refine isOrderly_readLine later hline
            (IsStream.closing (isClosing_closing _ levels)).isOrderly ?_
          intro marks lexemes stop reached hstop isLine
          rw [ending, List.append_nil]
          exact (IsStream.lastLine later isLine (isClosing_closing _ reached)).isOrderly
      | cons following more =>
          rw [readLines]
          have next : ∀ reached, IsOrderly number
              (readLines settings name (number + 1) reached (following :: more)) := fun reached =>
            ih (Int.lt_succ number) (fun line hmem => hlines line (List.mem_cons_of_mem _ hmem))
              (by simp)
          refine isOrderly_readLine later hline ((next _).of_le (Int.le_of_lt later)) ?_
          intro marks lexemes stop reached hstop isLine
          exact (next reached).line later isLine rfl hstop

end Lines

end Offside
