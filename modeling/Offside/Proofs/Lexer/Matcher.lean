import Offside.Lexer.Matcher
import Offside.Proofs.Cursor.Runs
import Offside.Proofs.Lexeme.Front

/-!
# What the matchers find

A matcher is settled by the unread text: it gives up without a trace, or it deals with the lexeme
that its search finds.  `Finds` says so for one matcher, `lexeme?_finds` for all of them together:
the lexeme dealt with is the longest that the unread text begins with.

What dealing with a lexeme means is `matched`.  The token is a function of the lexeme, the settings
and the location alone (`Shape.read`).  Only two sorts can fail.  An integer literal that is too
large fails before it is read, and the body of a string literal after the literal was read.  What is
wrong then is a `Fault`, and `Fault.reported` is what the lexer tells of it.
-/

namespace Offside

/-- The error that reporting `cause` at `location` ends in. -/
@[irreducible] def Lexer.Error.at (cause : LexError.Cause) (location : Location) : Lexer.Error :=
  match LexError.make cause (some location) with
  | .ok error => .lexical error
  | .error limit => .decimal limit

theorem LexError.make_of_isWritable {location : Location} (h : location.isWritable)
    (cause : LexError.Cause) :
    LexError.make cause (some location) = .ok ⟨cause, some location⟩ :=
  if_pos (by rw [Option.all_some, h])

/-- At a location that can be written, reporting gives the lexical error. -/
theorem Lexer.Error.at_of_isWritable {location : Location} (h : location.isWritable)
    (cause : LexError.Cause) : Lexer.Error.at cause location = .lexical ⟨cause, some location⟩ := by
  unfold Lexer.Error.at
  rw [LexError.make_of_isWritable h]

/-- Elsewhere reporting fails for want of a way to write the location. -/
theorem Lexer.Error.at_of_not_isWritable {location : Location} (h : ¬ location.isWritable)
    (cause : LexError.Cause) : Lexer.Error.at cause location = .decimal .tooLong := by
  have hmake : LexError.make cause (some location) = .error .tooLong :=
    if_neg (by rwa [Option.all_some])
  unfold Lexer.Error.at
  rw [hmake]

/-- A lexical error that is reported at a location carries the location. -/
theorem Lexer.Error.eq_of_at {cause : LexError.Cause} {location : Location} {error : LexError}
    (h : Lexer.Error.at cause location = .lexical error) : error = ⟨cause, some location⟩ := by
  unfold Lexer.Error.at LexError.make at h
  split at h
  · next heq =>
      split at heq
      · obtain rfl := Except.ok.inj heq
        exact (Lexer.Error.lexical.inj h).symm
      · simp at heq
  · simp at h

/-- What is reported is not the decoder's refusal. -/
theorem Lexer.Error.at_ne_decoding (cause : LexError.Cause) (location : Location)
    (refusal : DecodeError) : Lexer.Error.at cause location ≠ .decoding refusal := by
  by_cases writable : location.isWritable
  · simp [at_of_isWritable writable]
  · simp [at_of_not_isWritable writable]

/-- What is wrong with a text, said without a lexer: an error at a location, or a string literal
that the decoder refuses. -/
inductive Fault where
  | lexical (cause : LexError.Cause) (location : Location)
  | decoding (cause : DecodeError)
  deriving DecidableEq, Repr

/-- What the lexer makes of a fault.  The error is lost where its location cannot be written. -/
def Fault.reported : Fault → Lexer.Error
  | .lexical cause location => .at cause location
  | .decoding cause => .decoding cause

namespace Lexeme.Shape

/-- Whether the lexeme is an integer literal with too many digits or above the largest integer. -/
def IsTooLarge (settings : Settings) : Shape → Prop
  | .integer digits =>
      Decimal.digitLimit < digits.length ∨ settings.maxInt < Decimal.ofDigits digits
  | _ => False

instance (settings : Settings) (shape : Shape) : Decidable (shape.IsTooLarge settings) := by
  unfold IsTooLarge
  split <;> infer_instance

/-- The kind of the token that a lexeme makes. -/
def kind : Shape → Kind
  | .quoted _ _ => .string
  | .operator op => .operator op
  | .word letters =>
      match Keyword.ofText? (String.ofList letters) with
      | some keyword => .keyword keyword
      | none => .name
  | .integer _ => .number

/-- The value of the token that a lexeme makes, which the decoder may refuse to a string
literal. -/
def value (settings : Settings) : Shape → Except DecodeError (Option Value)
  | .quoted _ body =>
      match settings.decoder.run (String.ofList body) with
      | .ok value => .ok (some (.text value))
      | .error cause => .error cause
  | .operator _ => .ok none
  | .word letters =>
      match Keyword.ofText? (String.ofList letters) with
      | some _ => .ok none
      | none => .ok (some (.text (String.ofList letters)))
  | .integer digits => .ok (some (.int (Decimal.ofDigits digits)))

/-- The token of a lexeme that begins at `location`, or why there is none. -/
def read (settings : Settings) (location : Location) (shape : Shape) : Except Fault Token :=
  if shape.IsTooLarge settings then
    .error (.lexical (.outOfRange (String.ofList shape.text)) location)
  else
    match shape.value settings with
    | .ok value => .ok ⟨shape.kind, value, String.ofList shape.text, location⟩
    | .error cause => .error (.decoding cause)

/-- A lexeme never makes a token of the layout. -/
theorem isLayout_kind (shape : Shape) : shape.kind.isLayout = false := by
  cases shape with
  | word letters =>
      simp only [kind]
      split <;> rfl
  | _ => rfl

/-- A lexeme that is not too large gives its token, if it has a value. -/
theorem read_of_value {settings : Settings} {shape : Shape} {value : Option Value}
    (location : Location) (fits : ¬ shape.IsTooLarge settings)
    (hvalue : shape.value settings = .ok value) :
    shape.read settings location =
      .ok ⟨shape.kind, value, String.ofList shape.text, location⟩ := by
  rw [read, if_neg fits, hvalue]

/-- What is known of the token of a lexeme. -/
theorem exists_of_read {settings : Settings} {location : Location} {shape : Shape} {token : Token}
    (h : shape.read settings location = .ok token) :
    ¬ shape.IsTooLarge settings ∧ ∃ value, shape.value settings = .ok value ∧
      token = ⟨shape.kind, value, String.ofList shape.text, location⟩ := by
  unfold read at h
  split at h
  · simp at h
  · next hfits =>
      cases hvalue : shape.value settings with
      | ok value =>
          simp only [hvalue, Except.ok.injEq] at h
          exact ⟨hfits, value, rfl, h.symm⟩
      | error cause => simp [hvalue] at h

/-- Only the body of a string literal is refused. -/
theorem exists_body_of_refused {settings : Settings} {shape : Shape} {cause : DecodeError}
    (refusal : shape.value settings = .error cause) :
    ∃ mark body, shape = .quoted mark body ∧
      settings.decoder.run (String.ofList body) = .error cause := by
  cases shape with
  | quoted mark body =>
      refine ⟨mark, body, rfl, ?_⟩
      cases hrun : settings.decoder.run (String.ofList body) with
      | ok decoded => simp [value, hrun] at refusal
      | error other => simpa [value, hrun] using refusal
  | operator op => simp [value] at refusal
  | word letters =>
      simp only [value] at refusal
      split at refusal <;> simp at refusal
  | integer digits => simp [value] at refusal

theorem text_of_read {settings : Settings} {location : Location} {shape : Shape} {token : Token}
    (h : shape.read settings location = .ok token) : token.text = String.ofList shape.text := by
  obtain ⟨-, value, -, rfl⟩ := exists_of_read h
  rfl

theorem location_of_read {settings : Settings} {location : Location} {shape : Shape}
    {token : Token} (h : shape.read settings location = .ok token) :
    token.location = location := by
  obtain ⟨-, value, -, rfl⟩ := exists_of_read h
  rfl

theorem isLayout_of_read {settings : Settings} {location : Location} {shape : Shape}
    {token : Token} (h : shape.read settings location = .ok token) :
    token.kind.isLayout = false := by
  obtain ⟨-, value, -, rfl⟩ := exists_of_read h
  exact isLayout_kind shape

theorem isEof_of_read {settings : Settings} {location : Location} {shape : Shape} {token : Token}
    (h : shape.read settings location = .ok token) : token.isEof = false := by
  have hlayout := isLayout_of_read h
  unfold Token.isEof
  cases hkind : token.kind with
  | layout mark => simp [hkind, Kind.isLayout] at hlayout
  | _ => rfl

/-- The cursor behind a lexeme.  The end of a word is found by reading too far. -/
def pass (width : Int) (cursor : Cursor) (shape : Shape) : Cursor :=
  match shape with
  | .word letters => (cursor.ahead width letters.length).settled
  | _ => cursor.ahead width shape.text.length

@[simp] theorem rest_pass (width : Int) (cursor : Cursor) (shape : Shape) :
    (shape.pass width cursor).rest = cursor.rest.drop shape.text.length := by
  cases shape <;> simp [pass, Cursor.rest_ahead, text]

@[simp] theorem before_pass (width : Int) (cursor : Cursor) (shape : Shape) :
    (shape.pass width cursor).before =
      (cursor.rest.take shape.text.length).reverse ++ cursor.before := by
  cases shape <;> simp [pass, Cursor.before_ahead, text]

@[simp] theorem position_pass (width : Int) (cursor : Cursor) (shape : Shape) :
    (shape.pass width cursor).position =
      cursor.position.after width (cursor.rest.take shape.text.length) := by
  cases shape <;> simp [pass, Cursor.position_ahead, text]

end Lexeme.Shape

namespace Lexer

open Offside.Action Lexeme

/-! ## Parts of actions -/

/-- The lexer `count` characters on. -/
def ahead (lexer : Lexer) (count : ℕ) : Lexer :=
  { lexer with cursor := lexer.cursor.ahead lexer.settings.tabWidth count }

/-- The lexer with one more event in its journal. -/
def noting (lexer : Lexer) (event : Journal.Event) : Lexer :=
  { lexer with journal := event :: lexer.journal }

/-- The location of the next character. -/
def here (lexer : Lexer) : Location := lexer.locate lexer.position

/-- The lexer that a lexical error leaves behind. -/
def failing (lexer : Lexer) (cause : LexError.Cause) : Lexer :=
  lexer.noting (.failed lexer.here cause.message)

theorem reading_advanceBy {lexer : Lexer} {count : ℕ} (inside : count ≤ lexer.cursor.rest.length) :
    reading (Cursor.advanceBy · count) lexer =
      .ok (lexer.cursor.rest.take count) (lexer.ahead count) := by
  simp only [reading, Cursor.advanceBy_eq lexer.settings.tabWidth_ne_zero inside]
  rfl

/-- A front part of the unread text can be read. -/
theorem reading_front {lexer : Lexer} {text : List Char}
    (prefixed : text <+: lexer.cursor.rest) :
    reading (Cursor.advanceBy · text.length) lexer = .ok text (lexer.ahead text.length) := by
  rw [reading_advanceBy prefixed.length_le, ← List.prefix_iff_eq_take.mp prefixed]

theorem reading_readWhile (lexer : Lexer) (keep : Char → Option Char → Bool) :
    reading (Cursor.readWhile · keep) lexer =
      .ok (Cursor.keptRun keep lexer.cursor.rest)
        { lexer with
          cursor := (lexer.cursor.ahead lexer.settings.tabWidth
            (Cursor.keptRun keep lexer.cursor.rest).length).settled } := by
  simp only [reading, Cursor.readWhile_eq lexer.settings.tabWidth_ne_zero]

@[simp] theorem bind_note {α : Type} (lexer : Lexer) (event : Journal.Event)
    (f : Unit → Action α) : (note event >>= f) lexer = f () (lexer.noting event) := rfl

theorem fail_eq {α : Type} (lexer : Lexer) (cause : LexError.Cause) :
    (fail cause : Action α) lexer = .error (.at cause lexer.here) (lexer.failing cause) := by
  rw [fail, bind_get, bind_note]
  unfold Error.at here
  cases LexError.make cause (some (lexer.locate lexer.position)) <;> rfl

/-! ## One lexeme -/

/-- How a matcher deals with the lexeme that it found. -/
def matched (lexer : Lexer) (shape : Shape) : EStateM.Result Error Lexer (Option Token) :=
  if shape.IsTooLarge lexer.settings then
    let cause := .outOfRange (String.ofList shape.text)
    .error (.at cause lexer.here) (lexer.failing cause)
  else
    let behind := { lexer with cursor := shape.pass lexer.settings.tabWidth lexer.cursor }
    match shape.value lexer.settings with
    | .ok value => .ok (some ⟨shape.kind, value, String.ofList shape.text, lexer.here⟩) behind
    | .error cause => .error (.decoding cause) behind

/-- A matcher whose lexemes are those of a search of the unread text. -/
def Finds (matcher : Action (Option Token)) (search : List Char → Option Shape) : Prop :=
  ∀ lexer : Lexer, matcher lexer =
    match search lexer.cursor.rest with
    | none => .ok none lexer
    | some shape => lexer.matched shape

/-- The literal stands at the front of the text in which its body was found. -/
theorem text_prefix_of_quotedBody? {mark : Char} {rest body : List Char}
    (h : quotedBody? (mark :: rest) = some body) :
    (Shape.quoted mark body).text <+: mark :: rest := by
  have hmark : CharClass.quote.has mark := by
    by_contra hmark
    simp [quotedBody?, hmark] at h
  obtain ⟨-, more, hrest⟩ := (quotedBody?_eq_some_iff hmark).mp h
  exact ⟨more, by rw [← hrest, Shape.text, List.cons_append]⟩

theorem string?_finds : Finds string? quoted? := by
  intro lexer
  rw [string?, bind_get]
  cases hrest : lexer.cursor.rest with
  | nil => rfl
  | cons mark rest =>
      cases hbody : quotedBody? (mark :: rest) with
      | none => simp [quoted?, hbody]
      | some body =>
          have hlength : (Shape.quoted mark body).text.length = body.length + 2 := by
            simp [Shape.text]
          have hread := reading_front (hrest ▸ text_prefix_of_quotedBody? hbody)
          rw [hlength] at hread
          have hpass : (Shape.quoted mark body).pass lexer.settings.tabWidth lexer.cursor =
              lexer.cursor.ahead lexer.settings.tabWidth (body.length + 2) := by
            simp only [Shape.pass, hlength]
          simp only [quoted?, hbody, Option.map_some]
          rw [bind_ok hread, matched, if_neg (by simp [Shape.IsTooLarge]), hpass]
          simp only [Shape.value]
          cases hvalue : lexer.settings.decoder.run (String.ofList body) with
          | ok value =>
              have hdecode : decode body (lexer.ahead (body.length + 2)) =
                  .ok value (lexer.ahead (body.length + 2)) := by
                simp [decode, ahead, hvalue]
              rw [bind_ok hdecode]
              rfl
          | error cause =>
              have hdecode : decode body (lexer.ahead (body.length + 2)) =
                  .error (.decoding cause) (lexer.ahead (body.length + 2)) := by
                simp [decode, ahead, hvalue]
              rw [bind_error hdecode]
              rfl

/-- All candidates have to be as long as what is read for them, or the text might end before. -/
theorem operatorOf?_finds {candidates : List Operator} {length : ℕ}
    (lengths : ∀ op ∈ candidates, op.spelling.length = length) :
    Finds (operatorOf? candidates length) (operator? candidates length) := by
  intro lexer
  rw [operatorOf?, bind_get]
  cases hfind : Operator.find? candidates (lexer.cursor.rest.take length) with
  | none => simp [operator?, hfind]
  | some op =>
      obtain ⟨hmem, hspelling⟩ := spelling_of_find? hfind
      obtain rfl := lengths op hmem
      have hpass : (Shape.operator op).pass lexer.settings.tabWidth lexer.cursor =
          lexer.cursor.ahead lexer.settings.tabWidth op.spelling.length := rfl
      simp only [operator?, hfind, Option.map_some]
      rw [bind_ok (reading_front (List.prefix_iff_eq_take.mpr hspelling)), matched,
        if_neg (by simp [Shape.IsTooLarge]), hpass]
      rfl

theorem word?_finds : Finds Lexer.word? Lexeme.word? := by
  intro lexer
  rw [Lexer.word?, bind_get]
  cases hrest : lexer.cursor.rest with
  | nil => simp [Cursor.peek, hrest, Lexeme.word?]
  | cons c rest =>
      have hpeek : lexer.cursor.peek 0 = some c := by simp [Cursor.peek, hrest]
      simp only [hpeek, Lexeme.word?]
      cases hc : CharClass.wordStart.has c with
      | false => simp
      | true =>
          have hrun : Cursor.keptRun (fun c _ => CharClass.wordPart.has c) lexer.cursor.rest =
              (c :: rest).takeWhile CharClass.wordPart.has := by
            rw [Cursor.keptRun_eq_takeWhile, hrest]
          simp only [if_true]
          rw [bind_ok (reading_readWhile lexer _), hrun, matched,
            if_neg (by simp [Shape.IsTooLarge])]
          simp only [Shape.value, Shape.kind]
          cases Keyword.ofText? (String.ofList ((c :: rest).takeWhile CharClass.wordPart.has)) <;>
            rfl

theorem digits_prefix_of_integer? {text digits : List Char}
    (h : Lexeme.integer? text = some digits) : digits <+: text := by
  cases text with
  | nil => simp [Lexeme.integer?] at h
  | cons c rest =>
      rw [Lexeme.integer?, Option.ite_none_right_eq_some, Option.some.injEq] at h
      obtain ⟨-, rfl⟩ := h
      split
      · next hzero => exact ⟨rest, by rw [hzero]; rfl⟩
      · exact List.takeWhile_prefix _

theorem integer?_finds : Finds Lexer.integer? fun text => (Lexeme.integer? text).map .integer := by
  intro lexer
  rw [Lexer.integer?, bind_get]
  cases hdigits : Lexeme.integer? lexer.cursor.rest with
  | none => simp [hdigits]
  | some digits =>
      simp only [hdigits, Option.map_some, matched]
      by_cases hlarge : (Shape.integer digits).IsTooLarge lexer.settings
      · rw [if_pos hlarge, if_pos (by exact hlarge), fail_eq]
        rfl
      · rw [if_neg hlarge, if_neg (by exact hlarge),
          bind_ok (reading_front (digits_prefix_of_integer? hdigits))]
        rfl

/-! ## The matchers in order -/

theorem matched_ne_none (lexer left : Lexer) (shape : Shape) :
    lexer.matched shape ≠ .ok none left := by
  unfold matched
  split
  · simp
  · cases shape.value lexer.settings <;> simp

/-- Trying a matcher first is searching for its lexemes first. -/
theorem Finds.orElse {first second : Action (Option Token)}
    {search others : List Char → Option Shape} (hfirst : Finds first search)
    (hsecond : Finds second others) :
    Finds (do match ← first with
      | some token => return some token
      | none => second) fun text => (search text).or (others text) := by
  intro lexer
  have hstep := hfirst lexer
  cases hsearch : search lexer.cursor.rest with
  | none =>
      simp only [hsearch] at hstep
      rw [bind_ok hstep]
      simp [hsearch, hsecond lexer]
  | some shape =>
      simp only [hsearch] at hstep
      cases hmatched : lexer.matched shape with
      | ok found left =>
          cases found with
          | none => exact absurd hmatched (matched_ne_none lexer left shape)
          | some token =>
              rw [bind_ok (hstep.trans hmatched)]
              simp [hsearch, hmatched]
      | error cause left =>
          rw [bind_error (hstep.trans hmatched)]
          simp [hsearch, hmatched]

theorem firstOf_nil_finds : Finds (firstOf []) fun _ => none := fun _ => rfl

theorem firstOf_cons_finds {matcher : Action (Option Token)}
    {matchers : List (Action (Option Token))} {search others : List Char → Option Shape}
    (hfirst : Finds matcher search) (hothers : Finds (firstOf matchers) others) :
    Finds (firstOf (matcher :: matchers)) fun text => (search text).or (others text) :=
  hfirst.orElse hothers

theorem simple?_finds : Finds simple? fun text =>
    (operator? [.intDiv] 2 text).or (operator? Operator.single 1 text) :=
  (operatorOf?_finds (by decide)).orElse (operatorOf?_finds (by decide))

/-- The matchers together find the longest lexeme. -/
theorem lexeme?_finds : Finds lexeme? longest? := by
  have hfinds : Finds lexeme? _ :=
    firstOf_cons_finds string?_finds <| firstOf_cons_finds (operatorOf?_finds (by decide)) <|
      firstOf_cons_finds word?_finds <| firstOf_cons_finds integer?_finds <|
        firstOf_cons_finds simple?_finds firstOf_nil_finds
  intro lexer
  rw [hfinds lexer, ← front?_eq_longest?]
  simp [front?]

end Lexer

end Offside
