import Offside.Proofs.Escape
import Offside.Proofs.Stream.Lexemes

/-!
# The texts that string literals stand for

If escapes are decoded, every text has a string literal that stands for it, unless it holds both
quotes.  A quote that is not in the text is put around it, and what the literal may not hold is
written with escapes.  A text with both quotes has none: the lexer ends a literal at the next quote
of its sort, whether or not a backslash stands in front, and so the decoder never meets that quote
in the body, and makes none.

## Strategy

The literal is one lexeme, so a text that consists of it is read as one token (`tokenize_text`), and
decoding takes back what was done to the text (`Escape.decode_encode`).  In the other direction the
token comes from some literal (`exists_shape_of_calls`), whose quote is not in its body and
therefore not in its value (`Escape.mem_of_mem_decode`).
-/

namespace Offside

open Lexeme

namespace Lexeme.Shape

variable {settings : Settings} {location : Location} {mark : Char} {value : String} {shape : Shape}
  {token : Token}

/-- The string literal for a text between two `mark`s. -/
def expressing (mark : Char) (value : String) : Shape := .quoted mark (Escape.encode value.toList)

/-- A text may stand between quotes that it does not hold. -/
theorem isValid_expressing (quote : CharClass.quote.has mark) (hmark : mark ∉ value.toList) :
    (expressing mark value).IsValid := by
  refine ⟨quote, fun c hc => ?_⟩
  obtain ⟨hstop, hquote⟩ := Escape.of_mem_encode hc
  have hne : c ≠ mark := by
    rintro rfl
    exact hmark (hquote quote)
  simp [inQuotes, hstop, hne]

theorem read_expressing (escapes : settings.decoder = .escapes) :
    (expressing mark value).read settings location =
      .ok ⟨.string, some (.text value), String.ofList (expressing mark value).text, location⟩ := by
  have fits : ¬ (expressing mark value).IsTooLarge settings := id
  have decoded : settings.decoder.run (String.ofList (Escape.encode value.toList)) =
      .ok value := by
    have htext : Escape.decodeText (String.ofList (Escape.encode value.toList)) = value := by
      apply String.toList_injective
      rw [Escape.toList_decodeText, String.toList_ofList, Escape.decode_encode]
    rw [escapes]
    exact congrArg Except.ok htext
  have hvalue : (expressing mark value).value settings = .ok (some (.text value)) := by
    rw [expressing, Shape.value, decoded]
  exact read_of_value location fits hvalue

/-- Only string literals make strings. -/
theorem exists_of_kind_eq_string (h : shape.kind = .string) :
    ∃ mark body, shape = .quoted mark body := by
  cases shape with
  | quoted mark body => exact ⟨mark, body, rfl⟩
  | word letters =>
      simp only [kind] at h
      split at h <;> simp at h
  | operator op => simp [kind] at h
  | integer digits => simp [kind] at h

/-- A string never holds the quotes that are around it. -/
theorem exists_value_of_read (escapes : settings.decoder = .escapes) (valid : shape.IsValid)
    (h : shape.read settings location = .ok token) (string : token.kind = .string) :
    ∃ mark body value, CharClass.quote.has mark ∧
      token.text.toList = mark :: (body ++ [mark]) ∧ token.value = some (.text value) ∧
      mark ∉ value.toList := by
  obtain ⟨-, value, hvalue, rfl⟩ := exists_of_read h
  obtain ⟨mark, body, rfl⟩ := exists_of_kind_eq_string string
  obtain ⟨quote, inside⟩ := valid
  have decoded : value = some (.text (Escape.decodeText (String.ofList body))) := by
    simp only [Shape.value, escapes, Decoder.escapes] at hvalue
    exact (Except.ok.inj hvalue).symm
  refine ⟨mark, body, _, quote, String.toList_ofList, decoded, fun hmem => ?_⟩
  rw [Escape.toList_decodeText, String.toList_ofList] at hmem
  have hbody := inside mark (Escape.mem_of_mem_decode quote hmem)
  simp [inQuotes] at hbody

end Lexeme.Shape

namespace Lexer

variable {settings : Settings}

/-- Whether a text has a string literal that stands for `value`. -/
def Expresses (settings : Settings) (value : String) : Prop :=
  ∃ source tokens left, Calls (start settings source) tokens left ∧
    ∃ token ∈ tokens, token.kind = .string ∧ token.value = some (.text value)

/-- The literal for a text is read as a string with this text for its value. -/
theorem tokenize_expressing (escapes : settings.decoder = .escapes) (name : String) {mark : Char}
    {value : String} (quote : CharClass.quote.has mark) (hmark : mark ∉ value.toList) :
    let text := (Shape.expressing mark value).text
    tokenize settings ⟨String.ofList text, name⟩ =
      .ok [⟨.string, some (.text value), String.ofList text, ⟨1, 1, name⟩⟩,
        ⟨.layout .eof, none, "", ⟨1, 1 + text.length, name⟩⟩] := by
  intro text
  have valid := Shape.isValid_expressing quote hmark
  rw [tokenize_text settings name valid, Shape.read_expressing escapes]
  rfl

theorem expresses_of_not_mem (escapes : settings.decoder = .escapes) {mark : Char} {value : String}
    (quote : CharClass.quote.has mark) (hmark : mark ∉ value.toList) :
    Expresses settings value := by
  obtain ⟨left, pulls⟩ :=
    exists_pulls_of_tokenize (tokenize_expressing escapes Location.unnamed quote hmark)
  exact ⟨_, _, left, pulls.calls, _, List.mem_cons_self .., rfl, rfl⟩

theorem exists_value_of_calls (escapes : settings.decoder = .escapes) {source : Source}
    {tokens : List Token} {left : Lexer} {token : Token}
    (calls : Calls (start settings source) tokens left) (hmem : token ∈ tokens)
    (string : token.kind = .string) :
    ∃ mark body value, CharClass.quote.has mark ∧
      token.text.toList = mark :: (body ++ [mark]) ∧ token.value = some (.text value) ∧
      mark ∉ value.toList := by
  have content : token.kind.isLayout = false := by simp [string, Kind.isLayout]
  obtain ⟨shape, valid, read⟩ :=
    exists_shape_of_calls calls (consistent_start settings source) hmem content
  exact Shape.exists_value_of_read escapes valid read string

/-- If escapes are decoded, a text that does not hold some quote is the value of the literal that is
made of it with this quote, and literals have no other values. -/
theorem strings_of_escapes (escapes : settings.decoder = .escapes) :
    (∀ name mark value, CharClass.quote.has mark → mark ∉ value.toList →
      let text := mark :: (Escape.encode value.toList ++ [mark])
      tokenize settings ⟨String.ofList text, name⟩ =
        .ok [⟨.string, some (.text value), String.ofList text, ⟨1, 1, name⟩⟩,
          ⟨.layout .eof, none, "", ⟨1, 1 + text.length, name⟩⟩]) ∧
      (∀ source tokens left, Calls (start settings source) tokens left →
        ∀ token ∈ tokens, token.kind = .string →
          ∃ mark body value, CharClass.quote.has mark ∧
            token.text.toList = mark :: (body ++ [mark]) ∧ token.value = some (.text value) ∧
            mark ∉ value.toList) ∧
      ∀ value, Expresses settings value ↔ ¬ ('"' ∈ value.toList ∧ '\'' ∈ value.toList) := by
  refine ⟨?_, ?_, fun value => ⟨?_, fun h => ?_⟩⟩
  · intro name mark value quote hmark
    exact tokenize_expressing escapes name quote hmark
  · intro source tokens left calls token hmem string
    exact exists_value_of_calls escapes calls hmem string
  · rintro ⟨source, tokens, left, calls, token, hmem, string, hvalue⟩ ⟨hdouble, hsingle⟩
    obtain ⟨mark, body, value', quote, -, hvalue', hmark⟩ :=
      exists_value_of_calls escapes calls hmem string
    obtain rfl : value = value' := by
      rw [hvalue] at hvalue'
      exact Value.text.inj (Option.some.inj hvalue')
    rcases eq_of_quote quote with rfl | rfl
    · exact hmark hdouble
    · exact hmark hsingle
  · -- One of the quotes is not in the text, and may stand around it.
    by_cases hdouble : '"' ∈ value.toList
    · exact expresses_of_not_mem escapes (show CharClass.quote.has '\'' by decide)
        fun hsingle => h ⟨hdouble, hsingle⟩
    · exact expresses_of_not_mem escapes (show CharClass.quote.has '"' by decide) hdouble

/-- A line feed and an apostrophe have a literal, but both quotes together have none. -/
theorem strings_of_escapes_standard :
    Settings.standard.decoder = .escapes ∧
      tokenize .standard ⟨"\"it's\\n\"", "a"⟩ =
        .ok [⟨.string, some (.text "it's\n"), "\"it's\\n\"", ⟨1, 1, "a"⟩⟩,
          ⟨.layout .eof, none, "", ⟨1, 9, "a"⟩⟩] ∧
      ¬ Expresses .standard "'\"" := by
  have escapes : Settings.standard.decoder = .escapes := rfl
  obtain ⟨literals, -, hiff⟩ := strings_of_escapes escapes
  refine ⟨escapes, literals "a" '"' "it's\n" (by decide) (by decide), fun expresses => ?_⟩
  exact (hiff "'\"").mp expresses (by decide)

end Lexer

end Offside
