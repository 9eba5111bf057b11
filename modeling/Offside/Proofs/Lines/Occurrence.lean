import Offside.Proofs.Lines.Grammar

/-!
# Where lexemes are found

A token that is not a mark of the layout comes from the lexemes of one line, whose number is that
of the token (`exists_contents_of_mem`), and in that line from a lexeme that stands where the token
is located (`exists_read_of_mem`).  If a text is read without an error, so are the lexemes of each
of its lines (`exists_stop_of_ok`).

Inside a line positions tell lexemes apart.  Each lexeme has a width, so a part of the line that
leads at least as far as a lexeme does contains it (`prefix_of_le_after`).
-/

namespace Offside.Lines

open Lexeme

variable {settings : Settings} {name : String} {number : Int} {levels : Levels} {token : Token}
  {position : Position}

/-! ## In a line -/

/-- A token of a line is read from a lexeme in the line, at the position that the text in front of
the lexeme leads to. -/
theorem exists_read_of_mem {text : List Char}
    (h : token ∈ (contents settings name position text).tokens) :
    ∃ (before behind : List Char) (shape : Shape), text = before ++ (shape.text ++ behind) ∧
      shape.IsValid ∧
      shape.read settings
        (.ofPosition name (position.after settings.tabWidth before)) = .ok token := by
  fun_induction contents settings name position text with
  | case1 position => exact absurd h List.not_mem_nil
  | case2 position c rest hc ih =>
      obtain ⟨before, behind, shape, rfl, found⟩ := ih h
      exact ⟨c :: before, behind, shape, rfl, found⟩
  | case3 position rest => exact absurd h List.not_mem_nil
  | case4 position c rest hblank hmark hnone => exact absurd h List.not_mem_nil
  | case5 position c rest hblank hmark first hfirst ih =>
      have longest := isLongest_of_longest? hfirst
      obtain ⟨more, hmore⟩ := longest.prefixed
      cases hread : first.read settings (.ofPosition name position) with
      | error cause =>
          rw [hread] at h
          exact absurd h List.not_mem_nil
      | ok token' =>
          rw [hread] at h
          rcases List.mem_cons.mp h with rfl | hmem
          · exact ⟨[], more, first, hmore.symm, longest.valid, hread⟩
          · obtain ⟨before, behind, shape, hsplit, valid, found⟩ := ih hmem
            rw [← hmore, List.drop_left] at hsplit
            refine ⟨first.text ++ before, behind, shape, ?_, valid, ?_⟩
            · rw [← hmore, hsplit, List.append_assoc]
            · rwa [Position.after_append]

/-- The tokens of a line have the texts of lexemes. -/
theorem exists_shape_of_mem {text : List Char}
    (h : token ∈ (contents settings name position text).tokens) :
    ∃ shape : Shape, shape.IsValid ∧ token.text = String.ofList shape.text := by
  obtain ⟨before, behind, shape, -, valid, hread⟩ := exists_read_of_mem h
  exact ⟨shape, valid, Shape.text_of_read hread⟩

/-- Lexemes stand where reading begins, or behind that. -/
theorem le_position_of_mem {text : List Char}
    (h : token ∈ (contents settings name position text).tokens) :
    position ≤ token.location.position := by
  obtain ⟨before, behind, shape, -, -, hread⟩ := exists_read_of_mem h
  rw [Shape.location_of_read hread, Location.position_ofPosition]
  exact Position.le_after settings.tabWidth_pos before position

/-- The beginning of a line that leads at least as far as its first lexeme contains it. -/
theorem prefix_of_le_after {shape : Shape} {before text : List Char} (valid : shape.IsValid)
    (hshape : shape.text <+: text) (hbefore : before <+: text)
    (hle : position.after settings.tabWidth shape.text ≤ position.after settings.tabWidth before) :
    shape.text <+: before := by
  rcases List.prefix_or_prefix_of_prefix hshape hbefore with hprefix | ⟨more, hmore⟩
  · exact hprefix
  · cases more with
    | nil =>
        rw [List.append_nil] at hmore
        exact hmore ▸ List.prefix_rfl
    | cons c more =>
        -- What is missing has a width, so the beginning would not lead as far.
        have hmem : c ∈ shape.text := by simp [← hmore]
        have hreturn : c ≠ '\r' := by
          rintro rfl
          exact absurd (Shape.not_stop_of_mem valid hmem) (by decide)
        have hlt : position.after settings.tabWidth before <
            (position.after settings.tabWidth before).after settings.tabWidth (c :: more) :=
          Position.lt_after settings.tabWidth_pos (List.mem_cons_self ..) hreturn _
        rw [← Position.after_append, hmore] at hlt
        exact absurd hle (not_le_of_gt hlt)

/-! ## Lines -/

variable {line : List Char} {following : Option (List Char)}

/-- What a line gives is a mark at its beginning, or one of its lexemes, or the mark at its end. -/
theorem cases_of_mem_readLine (hline : '\n' ∉ line)
    (h : token ∈ (readLine settings name number levels line following).tokens) :
    ∃ run body, Indented line run body ∧ IsContent body ∧
      ((token.kind = .layout .indent ∨ token.kind = .layout .dedent) ∨
        token ∈ (contents settings name
          ((⟨number, 1⟩ : Position).after settings.tabWidth run) body).tokens ∨
        ∃ stop next, (contents settings name
            ((⟨number, 1⟩ : Position).after settings.tabWidth run) body).result = .ok stop ∧
          following = some next ∧ token = newline name stop line next) := by
  rcases line_cases hline with blank | ⟨run, body, indented, begins, -⟩
  · rw [readLine_of_isBlank blank] at h
    exact absurd h List.not_mem_nil
  · refine ⟨run, body, indented, begins, ?_⟩
    obtain ⟨level, reaches⟩ := Indentation.exists_column settings.tabWidth_ne_zero run
    rw [← Reading.bind_pure (readLine settings name number levels line following),
      readLine_bind indented begins reaches rfl] at h
    rcases List.mem_append.mp h with hmark | h
    · left
      rcases isOpening_arrange levels level ⟨number, 1⟩ with hopening | hopening
      · exact Or.inl (List.mem_singleton.mp (hopening ▸ List.mem_map_of_mem hmark))
      · exact Or.inr (hopening token hmark)
    right
    split at h
    · exact absurd h List.not_mem_nil
    · rcases Reading.mem_bind h with h | ⟨stop, hstop, hmark⟩
      · exact Or.inl h
      · cases following with
        | none => exact absurd hmark List.not_mem_nil
        | some next => exact Or.inr ⟨stop, next, hstop, rfl, List.mem_singleton.mp hmark⟩

/-- What a line gives besides marks, its lexemes give. -/
theorem exists_contents_of_mem_readLine (hline : '\n' ∉ line)
    (content : token.kind.isLayout = false)
    (h : token ∈ (readLine settings name number levels line following).tokens) :
    ∃ run body, Indented line run body ∧ IsContent body ∧
      token ∈ (contents settings name
        ((⟨number, 1⟩ : Position).after settings.tabWidth run) body).tokens := by
  obtain ⟨run, body, indented, begins, (hkind | hkind) | h | ⟨stop, next, -, -, rfl⟩⟩ :=
    cases_of_mem_readLine hline h
  · simp [hkind, Kind.isLayout] at content
  · simp [hkind, Kind.isLayout] at content
  · exact ⟨run, body, indented, begins, h⟩
  · simp [newline, mark, Kind.isLayout] at content

/-- The mark at the end of a line is made of that line and the following one. -/
theorem exists_newline_of_mem_readLine (hline : '\n' ∉ line)
    (ends : token.kind = .layout .newline)
    (h : token ∈ (readLine settings name number levels line following).tokens) :
    ∃ stop next, following = some next ∧ token = newline name stop line next ∧
      stop.line = number := by
  obtain ⟨run, body, indented, begins, hcases⟩ := cases_of_mem_readLine hline h
  obtain ⟨hlexemes, hends⟩ := @inLine_contents settings name
    ((⟨number, 1⟩ : Position).after settings.tabWidth run) body
  rcases hcases with (hkind | hkind) | h | ⟨stop, next, hstop, hnext, htoken⟩
  · simp [hkind] at ends
  · simp [hkind] at ends
  · have hlayout := (hlexemes token h).1
    simp [ends, Kind.isLayout] at hlayout
  · refine ⟨stop, next, hnext, htoken, ?_⟩
    rw [hends stop hstop, Position.line_after_of_not_mem (not_mem_of_blank indented.blank)]

/-- If there is no error in a line, there is none in its lexemes. -/
theorem exists_stop_of_readLine {reached : Levels} {run body : List Char}
    (h : (readLine settings name number levels line following).result = .ok reached)
    (indented : Indented line run body) (begins : IsContent body) :
    ∃ stop, (contents settings name
      ((⟨number, 1⟩ : Position).after settings.tabWidth run) body).result = .ok stop := by
  obtain ⟨level, marks, reached', reaches, arranged⟩ := exists_arrange settings levels run
  rw [← Reading.bind_pure (readLine settings name number levels line following),
    readLine_bind indented begins reaches arranged, Reading.preceded] at h
  split at h
  · simp [Reading.stop] at h
  · obtain ⟨stop, hstop, -⟩ := Reading.exists_of_bind_ok h
    exact ⟨stop, hstop⟩

/-! ## Texts -/

variable {lines : List (List Char)}

/-- What lines give before the marks at the end of the text, one of them gives. -/
theorem exists_readLine_of_mem (dedent : token.kind ≠ .layout .dedent)
    (eof : token.kind ≠ .layout .eof)
    (h : token ∈ (readLines settings name number levels lines).tokens) :
    ∃ (index : ℕ) (line : List Char) (before : Levels), lines[index]? = some line ∧
      token ∈ (readLine settings name (number + index) before line lines[index + 1]?).tokens := by
  induction lines generalizing number levels with
  | nil => exact absurd h List.not_mem_nil
  | cons line lines ih =>
      cases lines with
      | nil =>
          rw [readLines] at h
          rcases Reading.mem_bind h with h | ⟨reached, -, hmark⟩
          · exact ⟨0, line, levels, rfl, by simpa using h⟩
          · obtain ⟨dedents, last, hclosing, hdedents, hlast⟩ :=
              @isClosing_closing name
                ((⟨number, 1⟩ : Position).after settings.tabWidth line) reached
            rw [Reading.emit, hclosing] at hmark
            rcases List.mem_append.mp hmark with hmem | hmem
            · exact absurd (hdedents token hmem) dedent
            · exact absurd (List.mem_singleton.mp hmem ▸ hlast) eof
      | cons next more =>
          rw [readLines] at h
          rcases Reading.mem_bind h with h | ⟨reached, -, h⟩
          · exact ⟨0, line, levels, rfl, by simpa using h⟩
          · obtain ⟨index, line', before, hindex, hmem⟩ := ih h
            refine ⟨index + 1, line', before, hindex, ?_⟩
            rw [Int.add_assoc, Int.add_comm 1] at hmem
            exact_mod_cast hmem

/-- If there is no error in a text, there is none in its lines. -/
theorem exists_readLine_of_ok {value : Unit} {index : ℕ}
    (h : (readLines settings name number levels lines).result = .ok value)
    (hindex : lines[index]? = some line) :
    ∃ before following reached,
      (readLine settings name (number + index) before line following).result = .ok reached := by
  induction lines generalizing number levels index with
  | nil => simp at hindex
  | cons first lines ih =>
      cases lines with
      | nil =>
          rw [readLines] at h
          obtain ⟨reached, hresult, -⟩ := Reading.exists_of_bind_ok h
          cases index with
          | zero =>
              obtain rfl := Option.some.inj hindex
              exact ⟨levels, none, reached, by simpa using hresult⟩
          | succ index => simp at hindex
      | cons next more =>
          rw [readLines] at h
          obtain ⟨reached, hresult, hmore⟩ := Reading.exists_of_bind_ok h
          cases index with
          | zero =>
              obtain rfl := Option.some.inj hindex
              exact ⟨levels, some next, reached, by simpa using hresult⟩
          | succ index =>
              obtain ⟨before, following, reached', hresult'⟩ := ih hmore hindex
              rw [Int.add_assoc, Int.add_comm 1] at hresult'
              exact ⟨before, following, reached', by exact_mod_cast hresult'⟩

/-- A token of a text that is no mark is a lexeme of a line of the text. -/
theorem exists_contents_of_mem (hlines : ∀ line ∈ lines, '\n' ∉ line)
    (content : token.kind.isLayout = false)
    (h : token ∈ (readLines settings name number levels lines).tokens) :
    ∃ (index : ℕ) (line run body : List Char), lines[index]? = some line ∧
      Indented line run body ∧ IsContent body ∧
      token ∈ (contents settings name
        ((⟨number + index, 1⟩ : Position).after settings.tabWidth run) body).tokens := by
  have hkind : ∀ layout, token.kind ≠ .layout layout := by
    intro layout hkind
    simp [hkind, Kind.isLayout] at content
  obtain ⟨index, line, before, hindex, hmem⟩ :=
    exists_readLine_of_mem (hkind .dedent) (hkind .eof) h
  have hline := hlines line (List.mem_of_getElem? hindex)
  obtain ⟨run, body, found⟩ := exists_contents_of_mem_readLine hline content hmem
  exact ⟨index, line, run, body, hindex, found⟩

/-- If there is no error in a text, there is none in the lexemes of its lines. -/
theorem exists_stop_of_ok {value : Unit} {run body : List Char} {index : ℕ}
    (h : (readLines settings name number levels lines).result = .ok value)
    (hindex : lines[index]? = some line) (indented : Indented line run body)
    (begins : IsContent body) :
    ∃ stop, (contents settings name
      ((⟨number + index, 1⟩ : Position).after settings.tabWidth run) body).result = .ok stop := by
  obtain ⟨before, following, reached, hresult⟩ := exists_readLine_of_ok h hindex
  exact exists_stop_of_readLine hresult indented begins

/-- The mark at the end of a line of a text tells the line by its number. -/
theorem exists_newline_of_mem (hlines : ∀ line ∈ lines, '\n' ∉ line)
    (ends : token.kind = .layout .newline)
    (h : token ∈ (readLines settings name number levels lines).tokens) :
    ∃ (index : ℕ) (stop : Position) (line next : List Char), lines[index]? = some line ∧
      lines[index + 1]? = some next ∧ token = newline name stop line next ∧
      stop.line = number + index := by
  obtain ⟨index, line, before, hindex, hmem⟩ :=
    exists_readLine_of_mem (by simp [ends]) (by simp [ends]) h
  have hline := hlines line (List.mem_of_getElem? hindex)
  obtain ⟨stop, next, hnext, htoken, hstop⟩ := exists_newline_of_mem_readLine hline ends hmem
  exact ⟨index, stop, line, next, hindex, hnext, htoken, hstop⟩

end Offside.Lines
