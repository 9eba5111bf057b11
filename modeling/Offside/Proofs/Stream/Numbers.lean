import Offside.Proofs.Decimal
import Offside.Proofs.Stream.Lexemes

/-!
# Integer literals and their numbers

The text of every integer literal is the numeral of its value, and every numeral that the settings
allow is read back as its number.  A numeral that they do not allow, for its value or for the number
of its digits, is refused as a whole.  A zero in front of a numeral is a literal of its own, so any
number of zeros makes as many tokens.

## Strategy

A literal is read wherever it is the longest lexeme (`contents_numeral`), which a zero is in front
of anything, and any other numeral at the end of a text.  Taking the zeros off from the right, the
text of zeros is read by induction on their number (`contents_zeros`).
-/

namespace Offside

open Lexeme

/-- Whether an integer literal may stand for a number: it is not above the largest integer, and it
does not have too many digits. -/
def Settings.Allows (settings : Settings) (n : ℕ) : Prop :=
  n ≤ settings.maxInt ∧ (toString n).length ≤ Decimal.digitLimit

/-- Zero is always allowed. -/
theorem Settings.allows_zero (settings : Settings) : settings.Allows 0 :=
  ⟨settings.maxInt_nonneg, by decide⟩

namespace Lexeme.Shape

variable {settings : Settings} {n : ℕ}

/-- The integer literal for a number. -/
def numeral (n : ℕ) : Shape := .integer (Nat.toDigits 10 n)

theorem isValid_numeral (n : ℕ) : (numeral n).IsValid := isValid_toDigits n

theorem ofList_text_numeral (n : ℕ) : String.ofList (numeral n).text = toString n := rfl

theorem length_text_numeral (n : ℕ) : (numeral n).text.length = (toString n).length := by
  rw [← ofList_text_numeral, String.length_ofList]

theorem isTooLarge_numeral_iff : (numeral n).IsTooLarge settings ↔ ¬ settings.Allows n := by
  have hlength : (Nat.toDigits 10 n).length = (toString n).length := length_text_numeral n
  have hlarge : (numeral n).IsTooLarge settings ↔
      Decimal.digitLimit < (Nat.toDigits 10 n).length ∨
        settings.maxInt < Decimal.ofDigits (Nat.toDigits 10 n) := Iff.rfl
  rw [hlarge, Settings.Allows, Decimal.ofDigits_toDigits, hlength]
  omega

/-- Every integer literal is the one for its value. -/
theorem exists_numeral {shape : Shape} (valid : shape.IsValid) (number : shape.kind = .number) :
    ∃ n, shape = numeral n := by
  cases shape with
  | integer digits => exact ⟨Decimal.ofDigits digits, by rw [numeral, toDigits_ofDigits valid]⟩
  | word letters =>
      simp only [kind] at number
      split at number <;> simp at number
  | quoted mark body => simp [kind] at number
  | operator op => simp [kind] at number

theorem read_numeral (allows : settings.Allows n) (location : Location) :
    (numeral n).read settings location =
      .ok ⟨.number, some (.int n), toString n, location⟩ := by
  have fits : ¬ (numeral n).IsTooLarge settings :=
    fun large => isTooLarge_numeral_iff.mp large allows
  have hvalue : (numeral n).value settings = .ok (some (.int n)) := by
    rw [numeral, value, Decimal.ofDigits_toDigits]
  rw [read_of_value location fits hvalue, ofList_text_numeral]
  rfl

theorem read_numeral_of_not_allows (refused : ¬ settings.Allows n) (location : Location) :
    (numeral n).read settings location =
      .error (.lexical (.outOfRange (toString n)) location) := by
  rw [read, if_pos (isTooLarge_numeral_iff.mpr refused), ofList_text_numeral]

/-- A zero is the longest lexeme in front of anything. -/
theorem isLongest_zero (tail : List Char) : IsLongest (numeral 0) ((numeral 0).text ++ tail) :=
  isLongest_integer (show CharClass.digit.has '0' by decide)

end Lexeme.Shape

namespace Lexer

open Lines

variable {settings : Settings} {n : ℕ}

/-- The token of a number in the first line. -/
def number (name : String) (column : Int) (n : ℕ) : Token :=
  ⟨.number, some (.int n), toString n, ⟨1, column, name⟩⟩

/-- The tokens of a row of zeros. -/
def zeros (name : String) (count : ℕ) : List Token :=
  (List.range count).map fun i => number name (1 + i) 0

/-- The end of a text of one line. -/
def eof (name : String) (column : Int) : Token := ⟨.layout .eof, none, "", ⟨1, column, name⟩⟩

/-- The text of a row of zeros and what follows them. -/
def behindZeros (count : ℕ) (text : String) : String :=
  String.ofList (List.replicate count '0') ++ text

/-! ## Reading literals -/

/-- A literal is read where it is the longest lexeme, if it is allowed. -/
theorem contents_numeral (name : String) (column : Int) {tail : List Char}
    (allows : settings.Allows n)
    (longest : IsLongest (Shape.numeral n) ((Shape.numeral n).text ++ tail)) :
    contents settings name ⟨1, column⟩ ((Shape.numeral n).text ++ tail) =
      (contents settings name ⟨1, column + (toString n).length⟩ tail).preceded
        [number name column n] := by
  have stop : (⟨1, column⟩ : Position).after settings.tabWidth (Shape.numeral n).text =
      ⟨1, column + (toString n).length⟩ := by
    rw [Position.after_of_not_stop fun c hc => Shape.not_stop_of_mem longest.valid hc,
      Shape.length_text_numeral]
  rw [contents_lexeme _ (isContent_of_isLongest longest) (longest?_eq_some longest),
    Shape.read_numeral allows, stop, List.drop_left]
  rfl

/-- A literal that is not allowed ends the reading. -/
theorem contents_numeral_of_not_allows (name : String) (column : Int)
    (refused : ¬ settings.Allows n) :
    contents settings name ⟨1, column⟩ (Shape.numeral n).text =
      .stop (.lexical (.outOfRange (toString n)) ⟨1, column, name⟩) := by
  have valid := Shape.isValid_numeral n
  rw [contents_lexeme _ (isContent_text valid) (longest?_eq_some (isLongest_text valid)),
    Shape.read_numeral_of_not_allows refused]
  rfl

/-- Zeros are read one by one, whatever follows them. -/
theorem contents_zeros (settings : Settings) (name : String) (count : ℕ) (text : List Char) :
    contents settings name Position.start (List.replicate count '0' ++ text) =
      (contents settings name ⟨1, 1 + count⟩ text).preceded (zeros name count) := by
  induction count generalizing text with
  | zero => rfl
  | succ count ih =>
      have hsplit : List.replicate (count + 1) '0' ++ text =
          List.replicate count '0' ++ ((Shape.numeral 0).text ++ text) := by
        rw [List.replicate_succ', List.append_assoc]
        rfl
      have hzeros : zeros name (count + 1) = zeros name count ++ [number name (1 + count) 0] := by
        simp [zeros, List.range_succ]
      have hcolumn : (1 + count : Int) + (toString 0).length = 1 + (count + 1 : ℕ) := by
        have hlength : (toString 0).length = 1 := rfl
        omega
      rw [hsplit, ih, contents_numeral name _ settings.allows_zero (Shape.isLongest_zero text),
        hcolumn, hzeros, Reading.preceded_append]

/-- A text of digits is one line, which ends behind as many columns. -/
theorem read_of_digits (settings : Settings) (name : String) {text : List Char}
    (digits : ∀ c ∈ text, CharClass.digit.has c) :
    Lines.read settings ⟨String.ofList text, name⟩ =
      (contents settings name Position.start text >>= fun _ =>
        Reading.emit [eof name (1 + text.length)]) := by
  cases text with
  | nil =>
      rw [contents_nil]
      rfl
  | cons c rest =>
      have hstop : ∀ d ∈ c :: rest, CharClass.stringStop.has d = false := fun d hd =>
        not_stop_of_digit (digits d hd)
      have hfeed : '\n' ∉ c :: rest := fun hmem => absurd (hstop _ hmem) (by decide)
      have longest := @isLongest_integer c rest (digits c (List.mem_cons_self ..))
      rw [read_of_contents (isContent_of_isLongest longest) hfeed,
        Position.after_of_not_stop hstop Position.start]
      rfl

theorem digit_of_mem_behindZeros (count : ℕ) {text : List Char}
    (digits : ∀ c ∈ text, CharClass.digit.has c) :
    ∀ c ∈ List.replicate count '0' ++ text, CharClass.digit.has c := by
  intro c hc
  rcases List.mem_append.mp hc with hzero | htext
  · rw [List.eq_of_mem_replicate hzero]
    decide
  · exact digits c htext

/-- The reading of zeros and the digits behind them. -/
theorem read_behindZeros (settings : Settings) (name : String) (count : ℕ) {text : List Char}
    (digits : ∀ c ∈ text, CharClass.digit.has c) :
    Lines.read settings ⟨behindZeros count (String.ofList text), name⟩ =
      (contents settings name ⟨1, 1 + count⟩ text >>= fun _ =>
        Reading.emit [eof name (1 + count + text.length)]).preceded (zeros name count) := by
  have hlength : (1 + (List.replicate count '0' ++ text).length : Int) =
      1 + count + text.length := by
    rw [List.length_append, List.length_replicate]
    omega
  rw [behindZeros, ← String.ofList_append,
    read_of_digits settings name (digit_of_mem_behindZeros count digits), contents_zeros,
    Reading.preceded_bind, hlength]

theorem digit_of_mem_numeral (n : ℕ) : ∀ c ∈ (Shape.numeral n).text, CharClass.digit.has c :=
  fun _ hc => Nat.isDigit_of_mem_toDigits (by decide) (by decide) hc

theorem read_numeral_behindZeros (name : String) (count : ℕ) (allows : settings.Allows n) :
    Lines.read settings ⟨behindZeros count (toString n), name⟩ =
      ⟨zeros name count ++ [number name (1 + count) n,
        eof name (1 + count + (toString n).length)], .ok ()⟩ := by
  have hcontents := contents_numeral name (1 + count) allows
    ((List.append_nil (Shape.numeral n).text).symm ▸ isLongest_text (Shape.isValid_numeral n))
  rw [List.append_nil, contents_nil] at hcontents
  rw [← Shape.ofList_text_numeral, read_behindZeros settings name count (digit_of_mem_numeral n),
    hcontents, Shape.length_text_numeral]
  rfl

theorem read_numeral_behindZeros_of_not_allows (name : String) (count : ℕ)
    (refused : ¬ settings.Allows n) :
    Lines.read settings ⟨behindZeros count (toString n), name⟩ =
      ⟨zeros name count, .error (.lexical (.outOfRange (toString n)) ⟨1, 1 + count, name⟩)⟩ := by
  rw [← Shape.ofList_text_numeral, read_behindZeros settings name count (digit_of_mem_numeral n),
    contents_numeral_of_not_allows name (1 + count) refused]
  exact congrArg (Reading.mk · _) (List.append_nil _)

/-! ## Where a literal is refused -/

/-- How a number is refused in the first line: its numeral is out of range, unless the column cannot
be written.  A text with so many characters would be longer than any index reaches. -/
def refusal (name : String) (column : ℕ) (n : ℕ) : Error :=
  if column < 10 ^ Decimal.digitLimit then
    .lexical ⟨.outOfRange (toString n), some ⟨1, column, name⟩⟩
  else .decimal .tooLong

theorem one_lt_pow_digitLimit : 1 < 10 ^ Decimal.digitLimit :=
  Nat.one_lt_pow (by decide) (by decide)

theorem fits_natCast_iff (n : ℕ) : Decimal.fits n ↔ n < 10 ^ Decimal.digitLimit := by
  rw [Decimal.fits, decide_eq_true_eq, Int.natAbs_natCast, Nat.pow_eq]

theorem at_eq_refusal (name : String) (column : ℕ) (n : ℕ) :
    Error.at (.outOfRange (toString n)) ⟨1, column, name⟩ = refusal name column n := by
  have hwritable : (⟨1, column, name⟩ : Location).isWritable ↔
      column < 10 ^ Decimal.digitLimit := by
    rw [← fits_natCast_iff]
    simp only [Location.isWritable, Location.position, Position.isWritable, Bool.and_eq_true]
    exact and_iff_right ((fits_natCast_iff 1).mpr one_lt_pow_digitLimit)
  unfold refusal
  split
  · next hlt => exact Error.at_of_isWritable (hwritable.mpr hlt) _
  · next hge => exact Error.at_of_not_isWritable (mt hwritable.mp hge) _

/-! ## Numbers and their tokens -/

theorem exists_number_of_calls {source : Source} {tokens : List Token} {left : Lexer}
    {token : Token} (calls : Calls (start settings source) tokens left) (hmem : token ∈ tokens)
    (kind : token.kind = .number) :
    ∃ n : ℕ, settings.Allows n ∧ token.value = some (.int n) ∧ token.text = toString n := by
  have content : token.kind.isLayout = false := by simp [kind, Kind.isLayout]
  obtain ⟨shape, valid, read⟩ :=
    exists_shape_of_calls calls (consistent_start settings source) hmem content
  obtain ⟨fits, value, hvalue, htoken⟩ := Shape.exists_of_read read
  obtain ⟨n, rfl⟩ := Shape.exists_numeral valid (by rw [← kind, htoken])
  have allows : settings.Allows n := not_not.mp (mt Shape.isTooLarge_numeral_iff.mpr fits)
  rw [Shape.read_numeral allows] at read
  rw [← Except.ok.inj read]
  exact ⟨n, allows, rfl, rfl⟩

theorem tokenize_behindZeros (name : String) (count : ℕ) (allows : settings.Allows n) :
    tokenize settings ⟨behindZeros count (toString n), name⟩ =
      .ok (zeros name count ++ [number name (1 + count) n,
        eof name (1 + count + (toString n).length)]) := by
  rw [tokenize_eq_reported, read_numeral_behindZeros name count allows]
  rfl

/-- Where a number is refused behind zeros, these have been given. -/
theorem exists_pulls_behindZeros (name : String) (count : ℕ) (refused : ¬ settings.Allows n) :
    let source : Source := ⟨behindZeros count (toString n), name⟩
    ∃ left final, Pulls (start settings source) (zeros name count) left ∧
      next left = .error (refusal name (1 + count) n) final ∧
      tokenize settings source = .error (refusal name (1 + count) n) := by
  intro source
  have hreported : (Lines.read settings source).reported =
      ⟨zeros name count, .error (refusal name (1 + count) n)⟩ := by
    rw [read_numeral_behindZeros_of_not_allows name count refused, ← at_eq_refusal]
    rfl
  have reads := reads_start settings source
  rw [hreported] at reads
  obtain ⟨left, final, pulls, failure⟩ := reads.exists_failure rfl
  refine ⟨left, final, pulls, failure, ?_⟩
  rw [tokenize_eq_reported, hreported]
  rfl

/-- A numeral alone has no zeros in front. -/
theorem behindZeros_zero (text : String) : behindZeros 0 text = text := String.empty_append

theorem tokenize_numeral (name : String) (allows : settings.Allows n) :
    tokenize settings ⟨toString n, name⟩ =
      .ok [number name 1 n, eof name (1 + (toString n).length)] := by
  have given := tokenize_behindZeros name 0 allows
  rw [behindZeros_zero] at given
  exact given

theorem tokenize_numeral_of_not_allows (name : String) (refused : ¬ settings.Allows n) :
    tokenize settings ⟨toString n, name⟩ =
      .error (.lexical ⟨.outOfRange (toString n), some ⟨1, 1, name⟩⟩) := by
  obtain ⟨-, -, -, -, failure⟩ := exists_pulls_behindZeros name 0 refused
  rw [behindZeros_zero, refusal, if_pos one_lt_pow_digitLimit] at failure
  exact failure

/-- Integer literals stand for the numbers whose numerals they are.  A numeral is read back as its
number if the settings allow that and refused as a whole otherwise, and behind zeros, which are
numbers of their own, so it is as well. -/
theorem numbers_of_numerals (settings : Settings) :
    (∀ source tokens left, Calls (start settings source) tokens left →
      ∀ token ∈ tokens, token.kind = .number →
        ∃ n : ℕ, settings.Allows n ∧ token.value = some (.int n) ∧ token.text = toString n) ∧
    (∀ name n,
      (tokenize settings ⟨toString n, name⟩ =
        .ok [number name 1 n, eof name (1 + (toString n).length)] ↔ settings.Allows n) ∧
      (¬ settings.Allows n → tokenize settings ⟨toString n, name⟩ =
        .error (.lexical ⟨.outOfRange (toString n), some ⟨1, 1, name⟩⟩))) ∧
    (∀ name count, tokenize settings ⟨behindZeros count "", name⟩ =
      .ok (zeros name count ++ [eof name (1 + count)])) ∧
    ∀ name count n,
      let source : Source := ⟨behindZeros count (toString n), name⟩
      (settings.Allows n → tokenize settings source =
        .ok (zeros name count ++ [number name (1 + count) n,
          eof name (1 + count + (toString n).length)])) ∧
      (¬ settings.Allows n →
        ∃ left final, Pulls (start settings source) (zeros name count) left ∧
          next left = .error (refusal name (1 + count) n) final ∧
          tokenize settings source = .error (refusal name (1 + count) n)) := by
  refine ⟨?_, fun name n => ?_, fun name count => ?_, ?_⟩
  · intro source tokens left calls token hmem kind
    exact exists_number_of_calls calls hmem kind
  · refine ⟨⟨fun given => ?_, tokenize_numeral name⟩, tokenize_numeral_of_not_allows name⟩
    by_contra refused
    rw [tokenize_numeral_of_not_allows name refused] at given
    simp at given
  · have hread := @read_behindZeros settings name count [] (by simp)
    have hcolumn : (1 + count + ([] : List Char).length : Int) = 1 + count := Int.add_zero _
    rw [contents_nil, hcolumn] at hread
    rw [tokenize_eq_reported]
    exact congrArg (fun reading => reading.reported.whole) hread
  · intro name count n source
    exact ⟨tokenize_behindZeros name count, exists_pulls_behindZeros name count⟩

/-- Two zeros and a seven make three tokens, and behind a zero the least number that is not allowed
is refused. -/
theorem numbers_of_zeros_and_seven :
    tokenize .standard ⟨"007", "a"⟩ =
        .ok [number "a" 1 0, number "a" 2 0, number "a" 3 7, eof "a" 4] ∧
      (∀ token ∈ [number "a" 1 0, number "a" 2 0, number "a" 3 7, eof "a" 4],
        token.kind = .number → ∃ n : ℕ, Settings.standard.Allows n ∧
          token.value = some (.int n) ∧ token.text = toString n) ∧
      ∃ left final, Pulls (start .standard ⟨"02147483648", "a"⟩) [number "a" 1 0] left ∧
        next left =
          .error (.lexical ⟨.outOfRange "2147483648", some ⟨1, 2, "a"⟩⟩) final := by
  obtain ⟨numerals, -, -, behind⟩ := numbers_of_numerals .standard
  have allows : Settings.standard.Allows 7 := ⟨by decide, by decide⟩
  have refused : ¬ Settings.standard.Allows 2147483648 := fun allows => absurd allows.1 (by decide)
  have hgiven : tokenize .standard ⟨"007", "a"⟩ =
      .ok [number "a" 1 0, number "a" 2 0, number "a" 3 7, eof "a" 4] := (behind "a" 2 7).1 allows
  obtain ⟨middle, pulls⟩ := exists_pulls_of_tokenize hgiven
  refine ⟨hgiven, numerals _ _ middle pulls.calls, ?_⟩
  obtain ⟨left, final, zero, failure, -⟩ := (behind "a" 1 2147483648).2 refused
  have hcolumn : 1 + 1 < 10 ^ Decimal.digitLimit :=
    lt_trans (show 1 + 1 < Decimal.digitLimit by decide) (Nat.lt_pow_self (by decide))
  rw [refusal, if_pos hcolumn] at failure
  exact ⟨left, final, zero, failure⟩

end Lexer

end Offside
