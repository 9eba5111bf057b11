import Mathlib.Data.List.Basic
import Offside.Alphabet
import Offside.Escape

/-!
# Writing texts with escapes

The body of a string literal may not hold a line feed, a carriage return or a tab, and a backslash
in it may be taken for an escape.  `encode` writes any text without these characters, and decoding
gives the text back.

Decoding makes no quotes.  An escape that stands for a quote is written with that quote, so a quote
in what was decoded is a quote in the body.
-/

namespace Offside.Escape

/-- The letter that is written behind a backslash for a character which cannot be written as
itself. -/
def letter? (c : Char) : Option Char :=
  if c = '\\' then some '\\'
  else if c = '\n' then some 'n'
  else if c = '\t' then some 't'
  else if c = '\r' then some 'r'
  else none

/-- How a character is written in a body. -/
def escaped (c : Char) : List Char :=
  match letter? c with
  | some letter => ['\\', letter]
  | none => [c]

/-- The body that stands for a text. -/
def encode (text : List Char) : List Char := text.flatMap escaped

@[simp] theorem encode_cons (c : Char) (text : List Char) :
    encode (c :: text) = escaped c ++ encode text := rfl

/-- The letter is one that has the character for its meaning, and it may stand in any body. -/
theorem meaning?_of_letter? {c letter : Char} (h : letter? c = some letter) :
    meaning? letter = some c ∧ CharClass.stringStop.has letter = false ∧
      CharClass.quote.has letter = false := by
  unfold letter? at h
  split_ifs at h with hslash hfeed htab hreturn
  · obtain rfl := Option.some.inj h
    subst hslash
    decide
  · obtain rfl := Option.some.inj h
    subst hfeed
    decide
  · obtain rfl := Option.some.inj h
    subst htab
    decide
  · obtain rfl := Option.some.inj h
    subst hreturn
    decide

/-- All other characters may be written as they are. -/
theorem not_stop_of_letter?_eq_none {c : Char} (h : letter? c = none) :
    c ≠ '\\' ∧ CharClass.stringStop.has c = false := by
  unfold letter? at h
  split_ifs at h with hslash hfeed htab hreturn
  exact ⟨hslash, by simp [CharClass.has, hfeed, htab, hreturn]⟩

/-! ## Decoding piece by piece -/

/-- What is not a backslash stands for itself. -/
theorem decode_cons_of_ne {c : Char} (h : c ≠ '\\') (rest : List Char) :
    decode (c :: rest) = c :: decode rest := by
  rw [decode]
  rintro d more rfl
  exact absurd rfl h

theorem decode_of_meaning {c meant : Char} (h : meaning? c = some meant) (rest : List Char) :
    decode ('\\' :: c :: rest) = meant :: decode rest := by
  rw [decode, h]

/-- What is written for a character is decoded to it. -/
theorem decode_escaped (c : Char) (rest : List Char) :
    decode (escaped c ++ rest) = c :: decode rest := by
  unfold escaped
  cases hletter : letter? c with
  | some letter => exact decode_of_meaning (meaning?_of_letter? hletter).1 rest
  | none => exact decode_cons_of_ne (not_stop_of_letter?_eq_none hletter).1 rest

/-- A body without backslashes stands for itself. -/
theorem decode_of_not_mem {body : List Char} (plain : '\\' ∉ body) : decode body = body := by
  induction body with
  | nil => rfl
  | cons c body ih =>
      obtain ⟨hc, hbody⟩ := List.ne_and_not_mem_of_not_mem_cons plain
      rw [decode_cons_of_ne hc.symm, ih hbody]

/-- So a text without backslashes is passed over with the same result as any other. -/
@[simp] theorem toList_decodeText (raw : String) :
    (decodeText raw).toList = decode raw.toList := by
  unfold decodeText
  split
  · exact String.toList_ofList
  · next plain => exact (decode_of_not_mem plain).symm

/-- Decoding reads back what was written. -/
theorem decode_encode (text : List Char) : decode (encode text) = text := by
  induction text with
  | nil => rfl
  | cons c text ih => rw [encode_cons, decode_escaped, ih]

/-! ## What is written -/

/-- Nothing is written that a body may not hold, and no quote that the text does not hold. -/
theorem of_mem_encode {text : List Char} {c : Char} (h : c ∈ encode text) :
    CharClass.stringStop.has c = false ∧ (CharClass.quote.has c → c ∈ text) := by
  obtain ⟨d, hd, hc⟩ := List.mem_flatMap.mp h
  unfold escaped at hc
  cases hletter : letter? d with
  | some letter =>
      obtain ⟨-, hstop, hquote⟩ := meaning?_of_letter? hletter
      simp only [hletter, List.mem_cons, List.not_mem_nil, or_false] at hc
      rcases hc with rfl | rfl
      · exact ⟨by decide, fun h => absurd h (by decide)⟩
      · exact ⟨hstop, fun h => absurd h (by simp [hquote])⟩
  | none =>
      simp only [hletter, List.mem_singleton] at hc
      subst hc
      exact ⟨(not_stop_of_letter?_eq_none hletter).2, fun _ => hd⟩

/-! ## Quotes in what is decoded -/

/-- An escape stands for a quote only if it is written with it. -/
theorem eq_of_meaning? {c meant : Char} (h : meaning? c = some meant)
    (quote : CharClass.quote.has meant) : c = meant := by
  unfold meaning? at h
  split_ifs at h with hn ht hr hzero hslash hsingle hdouble
  · obtain rfl := Option.some.inj h
    exact absurd quote (by decide)
  · obtain rfl := Option.some.inj h
    exact absurd quote (by decide)
  · obtain rfl := Option.some.inj h
    exact absurd quote (by decide)
  · obtain rfl := Option.some.inj h
    exact absurd quote (by decide)
  · exact hslash.trans (Option.some.inj h)
  · exact hsingle.trans (Option.some.inj h)
  · exact hdouble.trans (Option.some.inj h)

/-- A quote in what was decoded is a quote in the body. -/
theorem mem_of_mem_decode {c : Char} (quote : CharClass.quote.has c) {body : List Char}
    (h : c ∈ decode body) : c ∈ body := by
  fun_induction decode body with
  | case1 => simp at h
  | case2 d rest meant hmeaning ih =>
      rcases List.mem_cons.mp h with rfl | hrest
      · rw [eq_of_meaning? hmeaning quote]
        simp
      · exact List.mem_cons_of_mem _ (List.mem_cons_of_mem _ (ih hrest))
  | case3 d rest hmeaning ih =>
      rcases List.mem_cons.mp h with rfl | h
      · exact List.mem_cons_self ..
      rcases List.mem_cons.mp h with rfl | hrest
      · simp
      · exact List.mem_cons_of_mem _ (List.mem_cons_of_mem _ (ih hrest))
  | case4 d rest hother ih =>
      rcases List.mem_cons.mp h with rfl | hrest
      · exact List.mem_cons_self ..
      · exact List.mem_cons_of_mem _ (ih hrest)

end Offside.Escape
