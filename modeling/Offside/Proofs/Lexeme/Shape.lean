import Mathlib.Data.List.Basic
import Mathlib.Data.Nat.Basic
import Mathlib.Order.Basic
import Offside.Lexeme
import Offside.Token.Kind

/-!
# The grammar of lexemes

A lexeme is a string literal, an operator, a word or an integer literal, and `Shape` says which one
and with what parts.  `Shape.IsValid` is the grammar, `Shape.text` the spelling, and
`Shape.ofText?` reads a spelling back: a text spells at most one lexeme.

The lexeme that a text begins with is the longest of its front parts that spell one (`longest?`).
How the lexer finds it, by trying one sort of lexeme after another, is not said here.
-/

namespace Offside.Lexeme

/-- A lexeme, taken apart. -/
inductive Shape where
  /-- A string literal between two quotes. -/
  | quoted (mark : Char) (body : List Char)
  | operator (op : Operator)
  | word (letters : List Char)
  | integer (digits : List Char)
  deriving DecidableEq, Repr

/-- Whether a character may stand in a string literal between two `mark`s. -/
def inQuotes (mark c : Char) : Bool := c != mark && !CharClass.stringStop.has c

namespace Shape

/-- How a lexeme is written. -/
def text : Shape → List Char
  | .quoted mark body => mark :: (body ++ [mark])
  | .operator op => op.spelling
  | .word letters => letters
  | .integer digits => digits

/-- The grammar: a string literal holds neither its own quote nor a line break or tab, a word
begins with a letter or an underscore and may go on with digits, and an integer literal begins with
a zero only if it is that zero. -/
def IsValid : Shape → Prop
  | .quoted mark body => CharClass.quote.has mark ∧ ∀ c ∈ body, inQuotes mark c
  | .operator _ => True
  | .word letters =>
      ∃ c rest, letters = c :: rest ∧ CharClass.wordStart.has c ∧
        ∀ d ∈ rest, CharClass.wordPart.has d
  | .integer digits =>
      digits = ['0'] ∨ ∃ c rest, digits = c :: rest ∧ c ≠ '0' ∧ CharClass.digit.has c ∧
        ∀ d ∈ rest, CharClass.digit.has d

/-- The lexeme that is spelled by the whole of a text, if any. -/
def ofText? (text : List Char) : Option Shape :=
  match text with
  | [] => none
  | c :: rest =>
    if CharClass.quote.has c then
      if rest.getLast? = some c ∧ rest.dropLast.all (inQuotes c) then
        some (.quoted c rest.dropLast)
      else none
    else if CharClass.wordStart.has c then
      if rest.all CharClass.wordPart.has then some (.word text) else none
    else if CharClass.digit.has c then
      if if c = '0' then rest.isEmpty else rest.all CharClass.digit.has then
        some (.integer text)
      else none
    else (Operator.find? Operator.all text).map .operator

end Shape

/-- The longest lexeme among the front parts of `text` of up to `limit` characters. -/
def longestWithin (text : List Char) : Nat → Option Shape
  | 0 => none
  | limit + 1 => (Shape.ofText? (text.take (limit + 1))).or (longestWithin text limit)

/-- The longest lexeme that `text` begins with. -/
def longest? (text : List Char) : Option Shape := longestWithin text text.length

/-! ## The first character decides the sort -/

theorem eq_of_quote {c : Char} (h : CharClass.quote.has c) : c = '"' ∨ c = '\'' := by
  simpa [CharClass.has] using h

theorem not_wordStart_of_quote {c : Char} (h : CharClass.quote.has c) :
    CharClass.wordStart.has c = false := by
  rcases eq_of_quote h with rfl | rfl <;> decide

theorem not_digit_of_quote {c : Char} (h : CharClass.quote.has c) :
    CharClass.digit.has c = false := by
  rcases eq_of_quote h with rfl | rfl <;> decide

theorem not_digit_of_wordStart {c : Char} (h : CharClass.wordStart.has c) :
    CharClass.digit.has c = false := by
  have hstart : CharClass.wordStart.has c =
      (decide (c.val ≥ 65 ∧ c.val ≤ 90) || (decide (c.val ≥ 97) && decide (c.val ≤ 122)) ||
        c == '_') := rfl
  have hdigit : CharClass.digit.has c = (decide (c.val ≥ 48) && decide (c.val ≤ 57)) := rfl
  rw [hstart] at h
  rw [hdigit]
  simp only [Bool.or_eq_true, Bool.and_eq_true, decide_eq_true_eq, beq_iff_eq,
    Bool.and_eq_false_iff, decide_eq_false_iff_not] at h ⊢
  rcases h with (h | h) | rfl
  · right
    intro hle
    have := UInt32.le_trans h.1 hle
    revert this
    decide
  · right
    intro hle
    have := UInt32.le_trans h.1 hle
    revert this
    decide
  · right
    decide

theorem wordPart_of_wordStart {c : Char} (h : CharClass.wordStart.has c) :
    CharClass.wordPart.has c := by
  simp only [CharClass.has, Bool.or_eq_true] at h ⊢
  exact h.elim (fun halpha => Or.inl (Or.inl halpha)) Or.inr

/-- No operator begins as another sort of lexeme does. -/
theorem operator_head (op : Operator) :
    ∃ c rest, op.spelling = c :: rest ∧ CharClass.quote.has c = false ∧
      CharClass.wordStart.has c = false ∧ CharClass.digit.has c = false := by
  cases op <;> exact ⟨_, _, rfl, by decide, by decide, by decide⟩

theorem find?_spelling (op : Operator) : Operator.find? Operator.all op.spelling = some op := by
  cases op <;> decide

theorem spelling_of_find? {candidates : List Operator} {text : List Char} {op : Operator}
    (h : Operator.find? candidates text = some op) : op ∈ candidates ∧ op.spelling = text := by
  refine ⟨List.mem_of_find?_eq_some h, ?_⟩
  simpa using List.find?_some h

/-! ## A text spells at most one lexeme -/

namespace Shape

theorem text_ne_nil {shape : Shape} (valid : shape.IsValid) : shape.text ≠ [] := by
  cases shape with
  | quoted mark body => simp [text]
  | operator op =>
      obtain ⟨c, rest, hop, -⟩ := operator_head op
      simp [text, hop]
  | word letters =>
      obtain ⟨c, rest, rfl, -⟩ := valid
      simp [text]
  | integer digits =>
      rcases valid with rfl | ⟨c, rest, rfl, -⟩ <;> simp [text]

/-- Every lexeme is read back from its spelling. -/
theorem ofText?_text {shape : Shape} (valid : shape.IsValid) : ofText? shape.text = some shape := by
  cases shape with
  | quoted mark body =>
      have hall : body.all (inQuotes mark) = true := List.all_eq_true.mpr valid.2
      simp [text, ofText?, valid.1, hall]
  | operator op =>
      obtain ⟨c, rest, hop, hquote, hword, hdigit⟩ := operator_head op
      simp only [text, ofText?, hop, hquote, hword, hdigit]
      rw [← hop, find?_spelling]
      simp
  | word letters =>
      obtain ⟨c, rest, rfl, hc, hrest⟩ := valid
      have hquote : CharClass.quote.has c = false := by
        by_contra h
        simp [not_wordStart_of_quote (by simpa using h)] at hc
      simp only [text, ofText?, hquote, hc, List.all_eq_true.mpr hrest]
      simp
  | integer digits =>
      have hsplit : ∃ c rest, digits = c :: rest ∧ CharClass.digit.has c ∧
          (if c = '0' then rest.isEmpty else rest.all CharClass.digit.has) := by
        rcases valid with rfl | ⟨c, rest, rfl, hc, hdigit, hrest⟩
        · exact ⟨'0', [], rfl, by decide, by decide⟩
        · exact ⟨c, rest, rfl, hdigit, by simpa [hc] using hrest⟩
      obtain ⟨c, rest, rfl, hdigit, hrest⟩ := hsplit
      have hquote : CharClass.quote.has c = false := by
        by_contra h
        simp [not_digit_of_quote (by simpa using h)] at hdigit
      have hword : CharClass.wordStart.has c = false := by
        by_contra h
        simp [not_digit_of_wordStart (by simpa using h)] at hdigit
      simp only [text, ofText?, hquote, hword, hdigit, hrest]
      simp

/-- Only lexemes are read. -/
theorem of_ofText? {spelled : List Char} {shape : Shape} (h : ofText? spelled = some shape) :
    shape.IsValid ∧ shape.text = spelled := by
  cases spelled with
  | nil => simp [ofText?] at h
  | cons c rest =>
      simp only [ofText?] at h
      split at h
      · next hquote =>
          split at h
          · next hbody =>
              obtain rfl := Option.some.inj h
              refine ⟨⟨hquote, List.all_eq_true.mp hbody.2⟩, ?_⟩
              simp [text, List.dropLast_append_getLast? _ hbody.1]
          · simp at h
      split at h
      · next hword =>
          split at h
          · next hrest =>
              obtain rfl := Option.some.inj h
              exact ⟨⟨c, rest, rfl, hword, List.all_eq_true.mp hrest⟩, rfl⟩
          · simp at h
      split at h
      · next hdigit =>
          by_cases hzero : c = '0'
          · simp only [hzero, if_true, List.isEmpty_iff, Option.ite_none_right_eq_some,
              Option.some.injEq] at h
            obtain ⟨rfl, rfl⟩ := h
            exact ⟨Or.inl rfl, by simp [text, hzero]⟩
          · simp only [if_neg hzero, Option.ite_none_right_eq_some, Option.some.injEq] at h
            obtain ⟨hrest, rfl⟩ := h
            exact ⟨Or.inr ⟨c, rest, rfl, hzero, hdigit, List.all_eq_true.mp hrest⟩, rfl⟩
      · obtain ⟨op, hop, rfl⟩ := Option.map_eq_some_iff.mp h
        exact ⟨trivial, (spelling_of_find? hop).2⟩

theorem ofText?_eq_some_iff {spelled : List Char} {shape : Shape} :
    ofText? spelled = some shape ↔ shape.IsValid ∧ shape.text = spelled :=
  ⟨of_ofText?, fun h => h.2 ▸ ofText?_text h.1⟩

end Shape

/-! ## What a lexeme is made of -/

theorem not_stop_of_wordPart {c : Char} (h : CharClass.wordPart.has c) :
    CharClass.stringStop.has c = false := by
  by_contra hstop
  simp only [CharClass.has, Bool.not_eq_false, Bool.or_eq_true, beq_iff_eq] at hstop
  rcases hstop with (rfl | rfl) | rfl <;> exact absurd h (by decide)

theorem not_stop_of_digit {c : Char} (h : CharClass.digit.has c) :
    CharClass.stringStop.has c = false :=
  not_stop_of_wordPart (by simp [CharClass.has] at h ⊢; simp [h])

/-- No lexeme holds a line feed, a carriage return or a tab. -/
theorem Shape.not_stop_of_mem {shape : Shape} (valid : shape.IsValid) {c : Char}
    (h : c ∈ shape.text) : CharClass.stringStop.has c = false := by
  cases shape with
  | quoted mark body =>
      obtain ⟨hmark, hbody⟩ := valid
      have hmark : CharClass.stringStop.has mark = false := by
        rcases eq_of_quote hmark with rfl | rfl <;> decide
      simp only [text, List.mem_cons, List.mem_append, List.not_mem_nil, or_false] at h
      rcases h with rfl | h | rfl
      · exact hmark
      · simpa [inQuotes] using (Bool.and_eq_true_iff.mp (hbody c h)).2
      · exact hmark
  | operator op =>
      have hall : op.spelling.all (!CharClass.stringStop.has ·) = true := by cases op <;> rfl
      simpa using List.all_eq_true.mp hall c h
  | word letters =>
      obtain ⟨d, rest, rfl, hd, hrest⟩ := valid
      rcases List.mem_cons.mp h with rfl | h
      · exact not_stop_of_wordPart (wordPart_of_wordStart hd)
      · exact not_stop_of_wordPart (hrest c h)
  | integer digits =>
      rcases valid with rfl | ⟨d, rest, rfl, -, hd, hrest⟩
      · obtain rfl := List.mem_singleton.mp h
        decide
      · rcases List.mem_cons.mp h with rfl | h
        · exact not_stop_of_digit hd
        · exact not_stop_of_digit (hrest c h)

theorem Shape.not_mem_text {shape : Shape} (valid : shape.IsValid) : '\n' ∉ shape.text :=
  fun h => absurd (not_stop_of_mem valid h) (by decide)

theorem Shape.exists_ne_return {shape : Shape} (valid : shape.IsValid) :
    ∃ c ∈ shape.text, c ≠ '\r' := by
  obtain ⟨c, hc⟩ := List.exists_mem_of_ne_nil _ (text_ne_nil valid)
  refine ⟨c, hc, ?_⟩
  rintro rfl
  exact absurd (not_stop_of_mem valid hc) (by decide)

/-! ## The longest lexeme -/

/-- `shape` is the longest lexeme that `text` begins with. -/
structure IsLongest (shape : Shape) (text : List Char) : Prop where
  valid : shape.IsValid
  prefixed : shape.text <+: text
  longest : ∀ other : Shape, other.IsValid → other.text <+: text →
    other.text.length ≤ shape.text.length

theorem longestWithin_eq_none {text : List Char}
    (hnone : ∀ shape : Shape, shape.IsValid → ¬ shape.text <+: text) (limit : ℕ) :
    longestWithin text limit = none := by
  induction limit with
  | zero => rfl
  | succ limit ih =>
      cases htake : Shape.ofText? (text.take (limit + 1)) with
      | none => simp [longestWithin, htake, ih]
      | some shape =>
          obtain ⟨valid, heq⟩ := Shape.of_ofText? htake
          exact absurd (heq ▸ List.take_prefix _ _) (hnone shape valid)

theorem longestWithin_eq_some {text : List Char} {shape : Shape} (h : IsLongest shape text)
    {limit : ℕ} (hlimit : shape.text.length ≤ limit) (hlength : limit ≤ text.length) :
    longestWithin text limit = some shape := by
  induction limit with
  | zero =>
      have := List.length_pos_iff.mpr (Shape.text_ne_nil h.valid)
      omega
  | succ limit ih =>
      rcases Nat.lt_or_ge limit shape.text.length with hlt | hge
      · have htake : text.take (limit + 1) = shape.text := by
          rw [List.prefix_iff_eq_take.mp h.prefixed]
          congr 1
          omega
        simp [longestWithin, htake, Shape.ofText?_text h.valid]
      · cases htake : Shape.ofText? (text.take (limit + 1)) with
        | none => simp [longestWithin, htake, ih hge (by omega)]
        | some other =>
            obtain ⟨valid, heq⟩ := Shape.of_ofText? htake
            have hle := h.longest other valid (heq ▸ List.take_prefix _ _)
            rw [heq, List.length_take] at hle
            omega

/-- The search finds the longest lexeme. -/
theorem longest?_eq_some {text : List Char} {shape : Shape} (h : IsLongest shape text) :
    longest? text = some shape :=
  longestWithin_eq_some h h.prefixed.length_le le_rfl

theorem longest?_eq_none {text : List Char}
    (hnone : ∀ shape : Shape, shape.IsValid → ¬ shape.text <+: text) : longest? text = none :=
  longestWithin_eq_none hnone _

end Offside.Lexeme
