import Offside.Proofs.Lines.Text

/-!
# Lexemes and the blanks between them

A lexeme is found again where it stands in front of a blank, or at the end of the text, whatever
comes after that: a longer lexeme would have to contain the blank, and only a string literal can,
which ends at the next quote of its sort.
-/

namespace Offside.Lines

open Lexeme

/-- Whether a text ends, or goes on with a blank. -/
def IsSeparated (tail : List Char) : Prop :=
  ∀ c rest, tail = c :: rest → CharClass.blank.has c

theorem not_blank_of_wordPart {c : Char} (h : CharClass.wordPart.has c) :
    CharClass.blank.has c = false := by
  by_contra hblank
  rcases eq_of_blank (by simpa using hblank) with rfl | rfl | rfl <;> exact absurd h (by decide)

theorem not_blank_of_digit {c : Char} (h : CharClass.digit.has c) :
    CharClass.blank.has c = false :=
  not_blank_of_wordPart (by simp [CharClass.has] at h ⊢; simp [h])

/-- Only string literals hold blanks. -/
theorem not_blank_of_mem {shape : Shape} (valid : shape.IsValid)
    (unquoted : ∀ mark body, shape ≠ .quoted mark body) {c : Char} (h : c ∈ shape.text) :
    CharClass.blank.has c = false := by
  cases shape with
  | quoted mark body => exact absurd rfl (unquoted mark body)
  | operator op =>
      have hall : op.spelling.all (!CharClass.blank.has ·) = true := by cases op <;> rfl
      simpa using List.all_eq_true.mp hall c h
  | word letters =>
      obtain ⟨d, rest, rfl, hd, hrest⟩ := valid
      rcases List.mem_cons.mp h with rfl | hmem
      · exact not_blank_of_wordPart (wordPart_of_wordStart hd)
      · exact not_blank_of_wordPart (hrest c hmem)
  | integer digits =>
      rcases valid with rfl | ⟨d, rest, rfl, -, hd, hrest⟩
      · obtain rfl := List.mem_singleton.mp h
        decide
      · rcases List.mem_cons.mp h with rfl | hmem
        · exact not_blank_of_digit hd
        · exact not_blank_of_digit (hrest c hmem)

/-- Whether a text ends, or goes on with a blank or a comment. -/
def IsApart (tail : List Char) : Prop :=
  ∀ c rest, tail = c :: rest → CharClass.blank.has c ∨ c = commentMark

theorem IsBlank.isApart {tail : List Char} (h : IsBlank tail) : IsApart tail := by
  obtain ⟨run, comment, rfl, hrun, hcomment⟩ := h
  intro c rest heq
  cases run with
  | nil =>
      rcases hcomment with rfl | ⟨body, rfl, -⟩
      · simp at heq
      · exact Or.inr (List.cons.inj heq).1.symm
  | cons d run =>
      obtain ⟨rfl, -⟩ := List.cons.inj heq
      exact Or.inl (hrun d (List.mem_cons_self ..))

/-- Only string literals hold blanks or the mark that comments begin with. -/
theorem not_apart_of_mem {shape : Shape} (valid : shape.IsValid)
    (unquoted : ∀ mark body, shape ≠ .quoted mark body) {c : Char} (h : c ∈ shape.text) :
    ¬ (CharClass.blank.has c ∨ c = commentMark) := by
  rw [not_or, Bool.not_eq_true]
  refine ⟨not_blank_of_mem valid unquoted h, ?_⟩
  rintro rfl
  cases shape with
  | quoted mark body => exact unquoted mark body rfl
  | operator op =>
      have hall : op.spelling.all (· != commentMark) = true := by cases op <;> rfl
      simpa using List.all_eq_true.mp hall _ h
  | word letters =>
      obtain ⟨d, rest, rfl, hd, hrest⟩ := valid
      rcases List.mem_cons.mp h with rfl | hmem
      · exact absurd hd (by decide)
      · exact absurd (hrest _ hmem) (by decide)
  | integer digits =>
      rcases valid with rfl | ⟨d, rest, rfl, -, hd, hrest⟩
      · exact absurd h (by decide)
      · rcases List.mem_cons.mp h with rfl | hmem
        · exact absurd hd (by decide)
        · exact absurd (hrest _ hmem) (by decide)

/-- A lexeme begins as a line with lexemes does. -/
theorem isContent_text {shape : Shape} (valid : shape.IsValid) : IsContent shape.text := by
  obtain ⟨c, rest, htext⟩ := List.exists_cons_of_ne_nil (Shape.text_ne_nil valid)
  have hmem : c ∈ shape.text := by simp [htext]
  have hstop := Shape.not_stop_of_mem valid hmem
  have hopens := Shape.opens_of_prefix valid (htext ▸ List.prefix_rfl : shape.text <+: c :: rest)
  have apart : ¬ (CharClass.blank.has c ∨ c = commentMark) := by
    cases shape with
    | quoted mark body =>
        obtain ⟨rfl, hquote⟩ := hopens
        rcases eq_of_quote hquote with rfl | rfl <;> decide
    | _ => exact not_apart_of_mem valid (by simp) hmem
  rw [not_or, Bool.not_eq_true] at apart
  refine ⟨c, rest, htext, apart.1, ?_, apart.2⟩
  rintro rfl
  exact absurd hstop (by decide)

theorem isContent_of_isLongest {shape : Shape} {text : List Char} (h : IsLongest shape text) :
    IsContent text := by
  obtain ⟨more, rfl⟩ := h.prefixed
  exact (isContent_text h.valid).append more

/-- A string literal ends at the next quote of its sort, whatever follows. -/
theorem isLongest_of_quoted {mark : Char} {body : List Char}
    (valid : (Shape.quoted mark body).IsValid) (tail : List Char) :
    IsLongest (.quoted mark body) ((Shape.quoted mark body).text ++ tail) := by
  have hsplit : (Shape.quoted mark body).text ++ tail = mark :: (body ++ [mark] ++ tail) := rfl
  rw [hsplit]
  apply isLongest_quoted valid.1
  rw [quoted?_eq_some_iff valid.1]
  exact ⟨body, rfl, valid.2, List.prefix_append _ _⟩

/-- Where one lexeme begins with a quote, so does every other one there. -/
theorem unquoted_of_prefix {shape other : Shape} {text : List Char} (valid : shape.IsValid)
    (valid' : other.IsValid) (unquoted : ∀ mark body, shape ≠ .quoted mark body)
    (hshape : shape.text <+: text) (hother : other.text <+: text) :
    ∀ mark body, other ≠ .quoted mark body := by
  rintro mark body rfl
  obtain ⟨more, rfl⟩ := hother
  have hopens : shape.Opens mark := Shape.opens_of_prefix valid hshape
  cases shape with
  | quoted mark' body' => exact unquoted mark' body' rfl
  | operator op => simp [Shape.Opens, isMark, valid'.1] at hopens
  | word letters => simp [Shape.Opens, not_wordStart_of_quote valid'.1] at hopens
  | integer digits => simp [Shape.Opens, not_digit_of_quote valid'.1] at hopens

/-- The longest lexeme of a text stays the longest where the text is followed by something else that
it stands apart from. -/
theorem isLongest_append {shape : Shape} {text tail : List Char} (longest : IsLongest shape text)
    (apart : IsApart tail) : IsLongest shape (text ++ tail) := by
  have hprefix := longest.prefixed.trans (List.prefix_append text tail)
  by_cases hquoted : ∃ mark body, shape = .quoted mark body
  · obtain ⟨mark, body, rfl⟩ := hquoted
    obtain ⟨more, hmore⟩ := hprefix
    rw [← hmore]
    exact isLongest_of_quoted longest.valid more
  have unquoted : ∀ mark body, shape ≠ .quoted mark body := by
    intro mark body heq
    exact hquoted ⟨mark, body, heq⟩
  refine ⟨longest.valid, hprefix, fun other valid hother => longest.longest other valid ?_⟩
  -- A longer lexeme would hold the blank or the mark that follows.
  have unquoted' := unquoted_of_prefix longest.valid valid unquoted hprefix hother
  exact prefix_of_boundary apart (fun c hc => not_apart_of_mem valid unquoted' hc) hother

/-- The longest lexeme of a text stays the longest where blanks are put in behind it. -/
theorem isLongest_insert {shape : Shape} {text run after : List Char}
    (longest : IsLongest shape (text ++ after)) (hfront : shape.text <+: text)
    (hrun : ∀ c ∈ run, CharClass.blank.has c) : IsLongest shape (text ++ (run ++ after)) := by
  cases run with
  | nil => exact longest
  | cons c run =>
      have inner : IsLongest shape text := by
        refine ⟨longest.valid, hfront, fun other valid hother => ?_⟩
        exact longest.longest other valid (hother.trans (List.prefix_append text after))
      apply isLongest_append inner
      intro d rest h
      rw [← (List.cons.inj h).1]
      exact Or.inl (hrun c (List.mem_cons_self ..))

theorem isLongest_text {shape : Shape} (valid : shape.IsValid) : IsLongest shape shape.text :=
  ⟨valid, List.prefix_rfl, fun _ _ hother => hother.length_le⟩

/-- A lexeme is the longest one in front of a blank. -/
theorem isLongest_of_isSeparated {shape : Shape} {tail : List Char} (valid : shape.IsValid)
    (separated : IsSeparated tail) : IsLongest shape (shape.text ++ tail) :=
  isLongest_append (isLongest_text valid) fun c rest h => Or.inl (separated c rest h)

theorem longest?_of_isSeparated {shape : Shape} {tail : List Char} (valid : shape.IsValid)
    (separated : IsSeparated tail) : longest? (shape.text ++ tail) = some shape :=
  longest?_eq_some (isLongest_of_isSeparated valid separated)

end Offside.Lines
