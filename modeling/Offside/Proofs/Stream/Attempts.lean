import Offside.Proofs.Stream.Decoders
import Offside.Proofs.Stream.Locations

/-!
# Matchers take a lexeme or nothing

The matchers are tried one after another at the same place, which is sound only if an attempt that
comes to nothing leaves no trace.  `Attempt` lists how an attempt may end.  Without a token the
lexer is as before; an integer literal that is too large changes no more than the journal.  With a
token the lexer stands behind the text of the token, as many columns further on in the same line.
Where the decoder refuses the body of a string literal, the lexer is left as another decoder that
accepts the body would leave it.

## Strategy

Each matcher has a search that settles it (`Finds`), and each search finds lexemes that the unread
text begins with (`IsSound`).  No lexeme holds a line feed, a carriage return or a tab, so reading
one moves the lexer by as many columns as the lexeme has characters (`Consumes.of_passes`).
-/

namespace Offside

open Lexeme Lines

namespace Lexeme

/-- A search that finds nothing but lexemes that the text begins with. -/
def IsSound (search : List Char → Option Shape) : Prop :=
  ∀ text shape, search text = some shape → shape.IsValid ∧ shape.text <+: text

variable {search others : List Char → Option Shape}

theorem IsSound.or (h : IsSound search) (h' : IsSound others) :
    IsSound fun text => (search text).or (others text) := by
  intro text shape found
  rcases Option.or_eq_some_iff.mp found with hfirst | ⟨-, hsecond⟩
  · exact h text shape hfirst
  · exact h' text shape hsecond

theorem isSound_quoted? : IsSound quoted? := by
  intro text shape found
  cases text with
  | nil => simp [quoted?] at found
  | cons mark rest =>
      by_cases hmark : CharClass.quote.has mark
      · have longest := isLongest_quoted hmark found
        exact ⟨longest.valid, longest.prefixed⟩
      · rw [quoted?_eq_none (by simpa using hmark)] at found
        simp at found

theorem isSound_operator? (candidates : List Operator) (length : ℕ) :
    IsSound (operator? candidates length) := by
  intro text shape found
  obtain ⟨op, hfind, rfl⟩ := operator?_eq_some_iff.mp found
  have htext : (Shape.operator op).text = text.take length := (spelling_of_find? hfind).2
  refine ⟨trivial, ?_⟩
  rw [htext]
  exact List.take_prefix length text

theorem isSound_word? : IsSound word? := by
  intro text shape found
  cases text with
  | nil => simp [word?] at found
  | cons c rest =>
      simp only [word?, Option.ite_none_right_eq_some, Option.some.injEq] at found
      obtain ⟨hstart, rfl⟩ := found
      have longest := @isLongest_word c rest hstart
      exact ⟨longest.valid, longest.prefixed⟩

theorem isSound_integer? : IsSound fun text => (integer? text).map .integer := by
  intro text shape found
  cases text with
  | nil => simp [integer?] at found
  | cons c rest =>
      simp only [integer?, Option.map_eq_some_iff, Option.ite_none_right_eq_some,
        Option.some.injEq] at found
      obtain ⟨digits, ⟨hdigit, rfl⟩, rfl⟩ := found
      have longest := @isLongest_integer c rest hdigit
      exact ⟨longest.valid, longest.prefixed⟩

end Lexeme

namespace Lexer

variable {lexer left : Lexer} {text : List Char} {matcher : Action (Option Token)}

/-- The lexer is at the position that reading its text up to the cursor leads to. -/
def IsPlaced (lexer : Lexer) : Prop :=
  lexer.position = positionAt lexer.settings.tabWidth lexer.cursor.source lexer.cursor.offset

/-- `left` is the lexer behind `text`, which comes next in the line, and the same in all else. -/
structure Consumes (lexer left : Lexer) (text : List Char) : Prop where
  nonempty : text ≠ []
  holds : slice lexer.cursor.source lexer.cursor.offset
    (lexer.cursor.offset + text.length) = text
  source : left.cursor.source = lexer.cursor.source
  offset : left.cursor.offset = lexer.cursor.offset + text.length
  line : left.position.line = lexer.position.line
  column : left.position.column = lexer.position.column + text.length
  placed : left.IsPlaced
  same : left = { lexer with cursor := left.cursor }

/-- `left` is the lexer, with more in its journal. -/
def IsUntouched (lexer left : Lexer) : Prop := left = { lexer with journal := left.journal }

/-- How an attempt of a matcher may end. -/
inductive Attempt (matcher : Action (Option Token)) (lexer : Lexer) :
    EStateM.Result Error Lexer (Option Token) → Prop
  /-- There is no lexeme of the sort. -/
  | nothing : Attempt matcher lexer (.ok none lexer)
  /-- A lexeme is read and makes a token. -/
  | token {token : Token} {left : Lexer} (consumes : Consumes lexer left token.text.toList)
      (location : token.location = lexer.here) : Attempt matcher lexer (.ok (some token) left)
  /-- An integer literal is too large. -/
  | overflow {error : LexError} {left : Lexer} (category : error.category = .overflow)
      (location : error.location = some lexer.here) (untouched : IsUntouched lexer left) :
      Attempt matcher lexer (.error (.lexical error) left)
  /-- An integer literal is too large, at a place that cannot be written. -/
  | unwritable {left : Lexer} (unwritable : ¬ lexer.here.isWritable)
      (untouched : IsUntouched lexer left) : Attempt matcher lexer (.error (.decimal .tooLong) left)
  /-- The decoder refuses the body of a string literal, which is left behind as if another decoder
  had accepted it. -/
  | refused {mark : Char} {body : List Char} {cause : DecodeError} {left : Lexer}
      (refusal : lexer.settings.decoder.run (String.ofList body) = .error cause)
      (consumes : Consumes lexer left (mark :: (body ++ [mark])))
      (asRead : ∀ decoder value, decoder.run (String.ofList body) = .ok value →
        matcher (lexer.under (lexer.settings.withDecoder decoder)) =
          .ok (some ⟨.string, some (.text value), String.ofList (mark :: (body ++ [mark])),
            lexer.here⟩) (left.under (lexer.settings.withDecoder decoder))) :
      Attempt matcher lexer (.error (.decoding cause) left)

/-! ## Behind a lexeme -/

theorem IsPlaced.position_eq (placed : lexer.IsPlaced) :
    lexer.position =
      Position.start.after lexer.settings.tabWidth lexer.cursor.before.reverse := by
  rw [placed, positionAt, Cursor.take_source]

/-- Reading characters that have a width of one each, and nothing else, is going on by as many
columns. -/
theorem Consumes.of_passes (passes : Passes lexer left text) (nonempty : text ≠ [])
    (plain : ∀ c ∈ text, CharClass.stringStop.has c = false) (placed : lexer.IsPlaced)
    (same : left = { lexer with cursor := left.cursor }) : Consumes lexer left text := by
  have split : lexer.cursor.source =
      lexer.cursor.before.reverse ++ (text ++ left.cursor.rest) := by
    rw [← passes.rest]
    rfl
  have source : left.cursor.source = lexer.cursor.source := by
    rw [split, Cursor.source, passes.before, List.append_assoc]
  have hposition := passes.position
  rw [Position.after_of_not_stop plain] at hposition
  have line : left.position.line = lexer.position.line := by rw [hposition]
  have column : left.position.column = lexer.position.column + text.length := by rw [hposition]
  refine ⟨nonempty, slice_of_split split (List.length_reverse).symm, source, passes.offset_eq,
    line, column, ?_, same⟩
  calc left.position
      = lexer.position.after lexer.settings.tabWidth text := passes.position
    _ = Position.start.after lexer.settings.tabWidth (lexer.cursor.before.reverse ++ text) := by
        rw [placed.position_eq, Position.after_append]
    _ = positionAt left.settings.tabWidth left.cursor.source left.cursor.offset := by
        rw [positionAt, Cursor.take_source, passes.before, passes.settings]

theorem consumes_of_shape {shape : Shape} (valid : shape.IsValid)
    (prefixed : shape.text <+: lexer.cursor.rest) (placed : lexer.IsPlaced) :
    Consumes lexer (lexer.past shape) shape.text :=
  .of_passes (passes_of_shape prefixed) (Shape.text_ne_nil valid)
    (fun _ hc => Shape.not_stop_of_mem valid hc) placed rfl

/-! ## One attempt -/

/-- What a matcher does about the lexeme that its search has found. -/
theorem attempt_of_matched {shape : Shape} (valid : shape.IsValid)
    (prefixed : shape.text <+: lexer.cursor.rest) (placed : lexer.IsPlaced)
    (finds : ∀ other : Lexer, other.cursor = lexer.cursor → matcher other = other.matched shape) :
    Attempt matcher lexer (lexer.matched shape) := by
  have consumes := consumes_of_shape valid prefixed placed
  by_cases large : shape.IsTooLarge lexer.settings
  · rw [matched, if_pos large]
    simp only []
    by_cases writable : lexer.here.isWritable
    · rw [Error.at_of_isWritable writable]
      exact .overflow rfl rfl rfl
    · rw [Error.at_of_not_isWritable writable]
      exact .unwritable writable rfl
  · rw [matched, if_neg large]
    cases hvalue : shape.value lexer.settings with
    | ok value => exact .token (String.toList_ofList.symm ▸ consumes) rfl
    | error cause =>
        obtain ⟨mark, body, rfl, refusal⟩ := Shape.exists_body_of_refused hvalue
        refine .refused refusal consumes fun decoder value accepted => ?_
        have hother : (Shape.quoted mark body).value (lexer.settings.withDecoder decoder) =
            .ok (some (.text value)) := by
          simp only [Shape.value, Settings.withDecoder, accepted]
        have hmatcher := finds (lexer.under (lexer.settings.withDecoder decoder)) rfl
        have read := Shape.read_of_value lexer.here id hother
        exact hmatcher.trans (matched_of_read read)

theorem attempt_of_finds {search : List Char → Option Shape} (finds : Finds matcher search)
    (sound : IsSound search) (placed : lexer.IsPlaced) :
    Attempt matcher lexer (matcher lexer) := by
  have hmatcher := finds lexer
  cases found : search lexer.cursor.rest with
  | none =>
      simp only [found] at hmatcher
      rw [hmatcher]
      exact .nothing
  | some shape =>
      simp only [found] at hmatcher
      obtain ⟨valid, prefixed⟩ := sound _ shape found
      rw [hmatcher]
      apply attempt_of_matched valid prefixed placed
      intro other hcursor
      have hother := finds other
      rwa [hcursor, found] at hother

/-- Every matcher takes a lexeme and gives its token, or leaves the lexer as it is. -/
theorem attempt_of_matcher
    (among : matcher ∈ [string?, compound?, word?, integer?, simple?]) (placed : lexer.IsPlaced) :
    Attempt matcher lexer (matcher lexer) := by
  simp only [List.mem_cons, List.not_mem_nil, or_false] at among
  rcases among with rfl | rfl | rfl | rfl | rfl
  · exact attempt_of_finds string?_finds isSound_quoted? placed
  · exact attempt_of_finds (operatorOf?_finds (by decide)) (isSound_operator? _ 2) placed
  · exact attempt_of_finds word?_finds isSound_word? placed
  · exact attempt_of_finds integer?_finds isSound_integer? placed
  · exact attempt_of_finds simple?_finds ((isSound_operator? _ 2).or (isSound_operator? _ 1)) placed

/-- Behind a tab, a string literal that is read and then refused. -/
theorem attempt_of_matcher_refused :
    let lexer := (start (Settings.standard.withDecoder .strict) ⟨"\t'\\' x", "a"⟩).ahead 1
    string? ∈ [string?, compound?, word?, integer?, simple?] ∧ lexer.IsPlaced ∧
      Attempt string? lexer (string? lexer) ∧
      outcome string? lexer = .error (.decoding ⟨"bad escape in \\"⟩) ∧
      (leftBy string? lexer).position = ⟨1, 12⟩ := by
  intro lexer
  have among : string? ∈ [string?, compound?, word?, integer?, simple?] := List.mem_cons_self
  have placed : lexer.IsPlaced := by rfl
  exact ⟨among, placed, attempt_of_matcher among placed, by cbv, by cbv⟩

end Lexer

end Offside
