import Offside.Proofs.Lexeme.Shape

/-!
# Finding the longest lexeme

The lexer tries one sort of lexeme after another: string literals, operators that end in an equals
sign, words, integer literals, integer division, and the operators of one character.  `front?` is
that search as a function of the unread text.  It finds the longest lexeme that the text begins
with (`front?_eq_longest?`): the first character leaves only one sort to look for, and within a sort
the search takes all that it can.
-/

namespace Offside.Lexeme

/-- The string literal that `text` begins with. -/
def quoted? (text : List Char) : Option Shape :=
  match text with
  | [] => none
  | mark :: _ => (quotedBody? text).map (.quoted mark)

/-- The operator among the `candidates` that is spelled by the first `length` characters. -/
def operator? (candidates : List Operator) (length : ℕ) (text : List Char) : Option Shape :=
  (Operator.find? candidates (text.take length)).map .operator

/-- The word that `text` begins with. -/
def word? (text : List Char) : Option Shape :=
  match text with
  | [] => none
  | c :: _ =>
    if CharClass.wordStart.has c then some (.word (text.takeWhile CharClass.wordPart.has)) else none

/-- The lexeme that the lexer finds at the front of `text`. -/
def front? (text : List Char) : Option Shape :=
  (quoted? text).or <| (operator? Operator.compound 2 text).or <| (word? text).or <|
    ((integer? text).map .integer).or <| (operator? [.intDiv] 2 text).or <|
      operator? Operator.single 1 text

/-! ## What each sort finds -/

theorem takeWhile_prefix_of_prefix {member : Char → Bool} {front text : List Char}
    (hfront : front <+: text) (hmem : ∀ c ∈ front, member c) :
    front.length ≤ (text.takeWhile member).length := by
  obtain ⟨rest, rfl⟩ := hfront
  rw [List.takeWhile_append_of_pos hmem, List.length_append]
  exact Nat.le_add_right _ _

/-- The body of a string literal is what stands before the first place where none may go on. -/
theorem quotedBody?_eq_some_iff {mark : Char} {rest body : List Char}
    (hmark : CharClass.quote.has mark) :
    quotedBody? (mark :: rest) = some body ↔
      (∀ c ∈ body, inQuotes mark c) ∧ body ++ [mark] <+: rest := by
  have hunfold : quotedBody? (mark :: rest) =
      if rest[(rest.takeWhile (inQuotes mark)).length]? = some mark then
        some (rest.takeWhile (inQuotes mark)) else none := by
    rw [quotedBody?, if_pos hmark]
    rfl
  rw [hunfold, Option.ite_none_right_eq_some, Option.some.injEq]
  constructor
  · rintro ⟨hnext, rfl⟩
    refine ⟨fun c hc => List.all_eq_true.mp List.all_takeWhile c hc, ?_⟩
    have hsplit := List.takeWhile_append_dropWhile (p := inQuotes mark) (l := rest)
    generalize rest.takeWhile (inQuotes mark) = body at hnext hsplit ⊢
    generalize rest.dropWhile (inQuotes mark) = more at hsplit
    subst hsplit
    cases more with
    | nil => simp at hnext
    | cons d more =>
        have hd : d = mark := by simpa using hnext
        exact ⟨more, by simp [hd]⟩
  · rintro ⟨hbody, more, rfl⟩
    have htake : (body ++ [mark] ++ more).takeWhile (inQuotes mark) = body := by
      rw [List.append_assoc, List.takeWhile_append_of_pos hbody]
      simp [inQuotes]
    rw [htake]
    exact ⟨by simp, rfl⟩

theorem quoted?_eq_some_iff {mark : Char} {rest : List Char} {shape : Shape}
    (hmark : CharClass.quote.has mark) :
    quoted? (mark :: rest) = some shape ↔
      ∃ body, shape = .quoted mark body ∧ (∀ c ∈ body, inQuotes mark c) ∧
        body ++ [mark] <+: rest := by
  simp only [quoted?, Option.map_eq_some_iff, quotedBody?_eq_some_iff hmark]
  constructor
  · rintro ⟨body, hbody, rfl⟩
    exact ⟨body, rfl, hbody⟩
  · rintro ⟨body, rfl, hbody⟩
    exact ⟨body, hbody, rfl⟩

theorem quoted?_eq_none {c : Char} {rest : List Char} (h : CharClass.quote.has c = false) :
    quoted? (c :: rest) = none := by
  simp [quoted?, quotedBody?, h]

theorem integer?_eq_none {c : Char} {rest : List Char} (h : CharClass.digit.has c = false) :
    integer? (c :: rest) = none := by
  simp [integer?, h]

/-- Whether a character begins an operator, if anything. -/
def isMark (c : Char) : Bool :=
  !CharClass.quote.has c && !CharClass.wordStart.has c && !CharClass.digit.has c

theorem operator?_eq_some_iff {candidates : List Operator} {length : ℕ} {text : List Char}
    {shape : Shape} :
    operator? candidates length text = some shape ↔
      ∃ op, Operator.find? candidates (text.take length) = some op ∧ shape = .operator op := by
  rw [operator?, Option.map_eq_some_iff]
  exact exists_congr fun op => and_congr_right fun _ => eq_comm

theorem operator?_eq_none {candidates : List Operator} {length : ℕ} {c : Char} {rest : List Char}
    (h : isMark c = false) : operator? candidates (length + 1) (c :: rest) = none := by
  cases hop : operator? candidates (length + 1) (c :: rest) with
  | none => rfl
  | some shape =>
      obtain ⟨op, hfind, -⟩ := operator?_eq_some_iff.mp hop
      obtain ⟨d, more, hspelling, hquote, hword, hdigit⟩ := operator_head op
      have heq := (spelling_of_find? hfind).2
      rw [hspelling, List.take_succ_cons] at heq
      obtain rfl := (List.cons.inj heq).1
      simp [isMark, hquote, hword, hdigit] at h

theorem operator?_ne_none {candidates : List Operator} {op : Operator} {text : List Char}
    (hmem : op ∈ candidates) (hfront : op.spelling <+: text) :
    operator? candidates op.spelling.length text ≠ none := by
  rw [operator?, ← List.prefix_iff_eq_take.mp hfront]
  simp only [ne_eq, Option.map_eq_none_iff, Operator.find?, List.find?_eq_none, not_forall]
  exact ⟨op, hmem, by simp⟩

theorem operator_cases (op : Operator) :
    op ∈ Operator.compound ∧ op.spelling.length = 2 ∨ op = .intDiv ∨
      op ∈ Operator.single ∧ op.spelling.length = 1 := by
  cases op <;> decide

/-! ## One sort for each first character -/

/-- Whether a lexeme of this sort may begin with `c`. -/
def Shape.Opens : Shape → Char → Prop
  | .quoted mark _, c => mark = c ∧ CharClass.quote.has c
  | .operator _, c => isMark c
  | .word _, c => CharClass.wordStart.has c
  | .integer _, c => CharClass.digit.has c

theorem Shape.opens_of_prefix {shape : Shape} {c : Char} {rest : List Char}
    (valid : shape.IsValid) (h : shape.text <+: c :: rest) : shape.Opens c := by
  cases shape with
  | quoted mark body =>
      obtain ⟨rfl, -⟩ := List.cons_prefix_cons.mp h
      exact ⟨rfl, valid.1⟩
  | operator op =>
      obtain ⟨d, more, hspelling, hquote, hword, hdigit⟩ := operator_head op
      rw [Shape.text, hspelling] at h
      obtain ⟨rfl, -⟩ := List.cons_prefix_cons.mp h
      simp [Opens, isMark, hquote, hword, hdigit]
  | word letters =>
      obtain ⟨d, more, rfl, hd, -⟩ := valid
      obtain ⟨rfl, -⟩ := List.cons_prefix_cons.mp h
      exact hd
  | integer digits =>
      rcases valid with rfl | ⟨d, more, rfl, -, hd, -⟩
      · obtain ⟨rfl, -⟩ := List.cons_prefix_cons.mp h
        simp only [Opens]
        decide
      · obtain ⟨rfl, -⟩ := List.cons_prefix_cons.mp h
        exact hd

theorem front?_of_quote {c : Char} {rest : List Char} (h : CharClass.quote.has c) :
    front? (c :: rest) = quoted? (c :: rest) := by
  have hmark : isMark c = false := by simp [isMark, h]
  simp [front?, operator?_eq_none hmark, word?, not_wordStart_of_quote h,
    integer?_eq_none (not_digit_of_quote h)]

theorem front?_of_wordStart {c : Char} {rest : List Char} (h : CharClass.wordStart.has c) :
    front? (c :: rest) = some (.word ((c :: rest).takeWhile CharClass.wordPart.has)) := by
  have hmark : isMark c = false := by simp [isMark, h]
  have hquote : CharClass.quote.has c = false := by
    by_contra hquote
    simp [not_wordStart_of_quote (by simpa using hquote)] at h
  simp [front?, quoted?_eq_none hquote, operator?_eq_none hmark, word?, h]

theorem front?_of_digit {c : Char} {rest : List Char} (h : CharClass.digit.has c) :
    front? (c :: rest) =
      some (.integer (if c = '0' then ['0'] else (c :: rest).takeWhile CharClass.digit.has)) := by
  have hmark : isMark c = false := by simp [isMark, h]
  have hquote : CharClass.quote.has c = false := by
    by_contra hquote
    simp [not_digit_of_quote (by simpa using hquote)] at h
  have hword : CharClass.wordStart.has c = false := by
    by_contra hword
    simp [not_digit_of_wordStart (by simpa using hword)] at h
  simp [front?, quoted?_eq_none hquote, operator?_eq_none hmark, word?, hword, integer?, h]

theorem front?_of_isMark {c : Char} {rest : List Char} (h : isMark c) :
    front? (c :: rest) = (operator? Operator.compound 2 (c :: rest)).or
      ((operator? [.intDiv] 2 (c :: rest)).or (operator? Operator.single 1 (c :: rest))) := by
  simp only [isMark, Bool.and_eq_true, Bool.not_eq_true'] at h
  simp [front?, quoted?_eq_none h.1.1, word?, h.1.2, integer?_eq_none h.2]

/-! ## The search finds the longest lexeme -/

theorem isLongest_quoted {c : Char} {rest : List Char} {shape : Shape}
    (hc : CharClass.quote.has c) (h : quoted? (c :: rest) = some shape) :
    IsLongest shape (c :: rest) := by
  obtain ⟨body, rfl, hbody, hfront⟩ := (quoted?_eq_some_iff hc).mp h
  refine ⟨⟨hc, hbody⟩, List.cons_prefix_cons.mpr ⟨rfl, hfront⟩, ?_⟩
  intro other valid hother
  have hopens := Shape.opens_of_prefix valid hother
  cases other with
  | quoted mark body' =>
      obtain ⟨rfl, -⟩ := hopens
      have hsame : quoted? (mark :: rest) = some (.quoted mark body') :=
        (quoted?_eq_some_iff hc).mpr ⟨body', rfl, valid.2, (List.cons_prefix_cons.mp hother).2⟩
      have hsame : Shape.quoted mark body' = .quoted mark body :=
        Option.some.inj (hsame.symm.trans h)
      exact (congrArg (fun shape => shape.text.length) hsame).le
  | operator op => simp [Shape.Opens, isMark, hc] at hopens
  | word letters => simp [Shape.Opens, not_wordStart_of_quote hc] at hopens
  | integer digits => simp [Shape.Opens, not_digit_of_quote hc] at hopens

theorem isLongest_word {c : Char} {rest : List Char} (hc : CharClass.wordStart.has c) :
    IsLongest (.word ((c :: rest).takeWhile CharClass.wordPart.has)) (c :: rest) := by
  refine ⟨⟨c, rest.takeWhile CharClass.wordPart.has, ?_, hc, ?_⟩, List.takeWhile_prefix _, ?_⟩
  · rw [List.takeWhile_cons, if_pos (wordPart_of_wordStart hc)]
  · exact fun d hd => List.all_eq_true.mp List.all_takeWhile d hd
  · intro other valid hother
    have hopens := Shape.opens_of_prefix valid hother
    cases other with
    | quoted mark body =>
        obtain ⟨rfl, hquote⟩ := hopens
        simp [not_wordStart_of_quote hquote] at hc
    | operator op => simp [Shape.Opens, isMark, hc] at hopens
    | word letters =>
        obtain ⟨d, more, rfl, hd, hmore⟩ := valid
        exact takeWhile_prefix_of_prefix hother
          (List.forall_mem_cons.mpr ⟨wordPart_of_wordStart hd, hmore⟩)
    | integer digits => simp [Shape.Opens, not_digit_of_wordStart hc] at hopens

theorem isLongest_integer {c : Char} {rest : List Char} (hc : CharClass.digit.has c) :
    IsLongest (.integer (if c = '0' then ['0'] else (c :: rest).takeWhile CharClass.digit.has))
      (c :: rest) := by
  refine ⟨?_, ?_, ?_⟩
  · by_cases hzero : c = '0'
    · exact Or.inl (if_pos hzero)
    · refine Or.inr ⟨c, rest.takeWhile CharClass.digit.has, ?_, hzero, hc, ?_⟩
      · rw [if_neg hzero, List.takeWhile_cons, if_pos hc]
      · exact fun d hd => List.all_eq_true.mp List.all_takeWhile d hd
  · by_cases hzero : c = '0'
    · simp [Shape.text, hzero]
    · simpa [Shape.text, hzero] using List.takeWhile_prefix (l := c :: rest) CharClass.digit.has
  · intro other valid hother
    have hopens := Shape.opens_of_prefix valid hother
    cases other with
    | quoted mark body =>
        obtain ⟨rfl, hquote⟩ := hopens
        simp [not_digit_of_quote hquote] at hc
    | operator op => simp [Shape.Opens, isMark, hc] at hopens
    | word letters => simp [not_digit_of_wordStart hopens] at hc
    | integer digits =>
        rcases valid with rfl | ⟨d, more, rfl, hd, hdigit, hmore⟩
        · obtain ⟨rfl, -⟩ := List.cons_prefix_cons.mp hother
          simp [Shape.text]
        · obtain ⟨rfl, -⟩ := List.cons_prefix_cons.mp hother
          simp only [Shape.text, if_neg hd]
          exact takeWhile_prefix_of_prefix hother (List.forall_mem_cons.mpr ⟨hdigit, hmore⟩)

theorem length_spelling_le_two (op : Operator) : op.spelling.length ≤ 2 := by
  cases op <;> decide

theorem length_spelling_of_mem_compound {op : Operator} (h : op ∈ Operator.compound) :
    op.spelling.length = 2 := by
  revert h
  cases op <;> decide

/-- What is found among the operators is spelled in front. -/
theorem exists_spelling_of_operator? {candidates : List Operator} {length : ℕ} {text : List Char}
    {shape : Shape} (h : operator? candidates length text = some shape) :
    ∃ op, op ∈ candidates ∧ shape = .operator op ∧ op.spelling <+: text := by
  obtain ⟨op, hfind, rfl⟩ := operator?_eq_some_iff.mp h
  obtain ⟨hmem, heq⟩ := spelling_of_find? hfind
  exact ⟨op, hmem, rfl, heq ▸ List.take_prefix _ _⟩

/-- An operator of two characters is found by one of the first two searches. -/
theorem length_spelling_le_one {op : Operator} {text : List Char} (h : op.spelling <+: text)
    (hcompound : operator? Operator.compound 2 text = none)
    (hdivision : operator? [.intDiv] 2 text = none) : op.spelling.length ≤ 1 := by
  rcases operator_cases op with ⟨hmem, htwo⟩ | rfl | ⟨-, hone⟩
  · exact absurd (htwo ▸ hcompound) (operator?_ne_none hmem h)
  · exact absurd hdivision (operator?_ne_none (List.mem_singleton.mpr rfl) h)
  · exact hone.le

/-- In front of a mark, operators are the only lexemes. -/
theorem exists_operator_of_isMark {c : Char} {rest : List Char} (hc : isMark c) {shape : Shape}
    (valid : shape.IsValid) (h : shape.text <+: c :: rest) : ∃ op, shape = .operator op := by
  have hopens := Shape.opens_of_prefix valid h
  simp only [isMark, Bool.and_eq_true, Bool.not_eq_true'] at hc
  cases shape with
  | quoted mark body =>
      obtain ⟨rfl, hquote⟩ := hopens
      simp [hc.1.1] at hquote
  | operator op => exact ⟨op, rfl⟩
  | word letters => simp [Shape.Opens, hc.1.2] at hopens
  | integer digits => simp [Shape.Opens, hc.2] at hopens

/-- Two characters that spell an operator are taken before one that does. -/
theorem isLongest_operator {c : Char} {rest : List Char} {shape : Shape} (hc : isMark c)
    (h : front? (c :: rest) = some shape) : IsLongest shape (c :: rest) := by
  rw [front?_of_isMark hc] at h
  rcases Option.or_eq_some_iff.mp h with h | ⟨hcompound, h⟩
  · obtain ⟨op, hmem, rfl, hfront⟩ := exists_spelling_of_operator? h
    refine ⟨trivial, hfront, fun other valid hother => ?_⟩
    obtain ⟨op', rfl⟩ := exists_operator_of_isMark hc valid hother
    exact (length_spelling_le_two op').trans (length_spelling_of_mem_compound hmem).ge
  rcases Option.or_eq_some_iff.mp h with h | ⟨hdivision, h⟩
  · obtain ⟨op, hmem, rfl, hfront⟩ := exists_spelling_of_operator? h
    obtain rfl := List.mem_singleton.mp hmem
    refine ⟨trivial, hfront, fun other valid hother => ?_⟩
    obtain ⟨op', rfl⟩ := exists_operator_of_isMark hc valid hother
    exact length_spelling_le_two op'
  · obtain ⟨op, hmem, rfl, hfront⟩ := exists_spelling_of_operator? h
    refine ⟨trivial, hfront, fun other valid hother => ?_⟩
    obtain ⟨op', rfl⟩ := exists_operator_of_isMark hc valid hother
    have hlength := List.length_pos_iff.mpr (@Shape.text_ne_nil (.operator op) trivial)
    exact (length_spelling_le_one hother hcompound hdivision).trans hlength

/-- What is found is the longest lexeme. -/
theorem isLongest_of_front? {text : List Char} {shape : Shape} (h : front? text = some shape) :
    IsLongest shape text := by
  cases text with
  | nil =>
      have hnil : front? [] = none := by decide
      simp [hnil] at h
  | cons c rest =>
      by_cases hquote : CharClass.quote.has c
      · exact isLongest_quoted hquote (front?_of_quote hquote ▸ h)
      by_cases hword : CharClass.wordStart.has c
      · rw [front?_of_wordStart hword] at h
        exact Option.some.inj h ▸ isLongest_word hword
      by_cases hdigit : CharClass.digit.has c
      · rw [front?_of_digit hdigit] at h
        exact Option.some.inj h ▸ isLongest_integer hdigit
      · exact isLongest_operator (by simp [isMark, hquote, hword, hdigit]) h

/-- Where nothing is found, no front part is a lexeme. -/
theorem not_prefix_of_front?_eq_none {text : List Char} (h : front? text = none) {shape : Shape}
    (valid : shape.IsValid) : ¬ shape.text <+: text := by
  intro hfront
  cases text with
  | nil => exact Shape.text_ne_nil valid (List.prefix_nil.mp hfront)
  | cons c rest =>
      have hopens := Shape.opens_of_prefix valid hfront
      cases shape with
      | quoted mark body =>
          obtain ⟨rfl, hquote⟩ := hopens
          rw [front?_of_quote hquote] at h
          have hsome := (quoted?_eq_some_iff hquote).mpr
            ⟨body, rfl, valid.2, (List.cons_prefix_cons.mp hfront).2⟩
          simp [h] at hsome
      | operator op =>
          rw [front?_of_isMark hopens, Option.or_eq_none_iff, Option.or_eq_none_iff] at h
          rcases operator_cases op with ⟨hmem, htwo⟩ | rfl | ⟨hmem, hone⟩
          · exact operator?_ne_none hmem hfront (htwo ▸ h.1)
          · exact operator?_ne_none (List.mem_singleton.mpr rfl : Operator.intDiv ∈ _) hfront h.2.1
          · exact operator?_ne_none hmem hfront (hone ▸ h.2.2)
      | word letters => simp [front?_of_wordStart hopens] at h
      | integer digits => simp [front?_of_digit hopens] at h

/-- Trying the sorts in order finds the longest lexeme. -/
theorem front?_eq_longest? (text : List Char) : front? text = longest? text := by
  cases h : front? text with
  | none => exact (longest?_eq_none fun _ valid => not_prefix_of_front?_eq_none h valid).symm
  | some shape => exact (longest?_eq_some (isLongest_of_front? h)).symm

theorem isLongest_of_longest? {text : List Char} {shape : Shape} (h : longest? text = some shape) :
    IsLongest shape text :=
  isLongest_of_front? ((front?_eq_longest? text).trans h)

theorem not_prefix_of_longest?_eq_none {text : List Char} (h : longest? text = none)
    {shape : Shape} (valid : shape.IsValid) : ¬ shape.text <+: text :=
  not_prefix_of_front?_eq_none ((front?_eq_longest? text).trans h) valid

/-- A front part of a text that holds no character of some sort does not reach beyond a place where
the text ends or such a character comes. -/
theorem prefix_of_boundary {sort : Char → Prop} {front line tail : List Char}
    (htail : ∀ c rest, tail = c :: rest → sort c) (hfront : ∀ c ∈ front, ¬ sort c)
    (h : front <+: line ++ tail) : front <+: line := by
  rcases List.prefix_or_prefix_of_prefix h (List.prefix_append line tail) with hshort | ⟨more, rfl⟩
  · exact hshort
  · rw [List.prefix_append_right_inj] at h
    cases more with
    | nil => simp
    | cons c more =>
        obtain ⟨rest, rfl⟩ := h
        exact absurd (htail c _ rfl) (hfront c (by simp))

/-- The search does not look beyond a line feed, a carriage return or a tab. -/
theorem longest?_append_of_stop {line tail : List Char}
    (htail : ∀ c rest, tail = c :: rest → CharClass.stringStop.has c) :
    longest? (line ++ tail) = longest? line := by
  have hshorter : ∀ shape : Shape, shape.IsValid → shape.text <+: line ++ tail →
      shape.text <+: line := fun shape valid => prefix_of_boundary htail fun c hc =>
    Bool.not_eq_true _ ▸ Shape.not_stop_of_mem valid hc
  cases h : longest? line with
  | none =>
      exact longest?_eq_none fun shape valid hfront =>
        not_prefix_of_longest?_eq_none h valid (hshorter shape valid hfront)
  | some shape =>
      have longest := isLongest_of_longest? h
      exact longest?_eq_some ⟨longest.valid, longest.prefixed.trans (List.prefix_append _ _),
        fun other valid hother => longest.longest other valid (hshorter other valid hother)⟩

/-- Whether a text ends, or goes on with a line feed. -/
def IsLineTail (tail : List Char) : Prop := tail = [] ∨ ∃ more, tail = '\n' :: more

theorem IsLineTail.eq_feed {tail : List Char} (h : IsLineTail tail) :
    ∀ c rest, tail = c :: rest → c = '\n' := by
  rintro c rest rfl
  rcases h with hnil | ⟨more, hmore⟩
  · simp at hnil
  · exact (List.cons.inj hmore).1

theorem prefix_of_lineTail {front line tail : List Char} (htail : IsLineTail tail)
    (hfront : '\n' ∉ front) (h : front <+: line ++ tail) : front <+: line :=
  prefix_of_boundary htail.eq_feed (fun _ hc heq => hfront (heq ▸ hc)) h

/-- The search does not look beyond the line. -/
theorem longest?_append {line tail : List Char} (htail : IsLineTail tail) :
    longest? (line ++ tail) = longest? line :=
  longest?_append_of_stop fun c rest h => by
    rw [htail.eq_feed c rest h]
    decide

end Offside.Lexeme
