import Offside.Proofs.Lines.Separation
import Offside.Proofs.Stream.Outcomes

/-!
# The next lexeme

Wherever a lexer comes to in a text, a pull in front of a lexeme is settled by the unread text: the
longest lexeme that it begins with is read, whatever might follow, and if it begins with none, then
its first character is to blame.  What a lexeme gives depends on its spelling alone, which
`Shape.ofText?` takes apart: the kind, the value, and whether an integer literal is too large.

Errors are reported where the lexer stands.  A place that cannot be written takes the place of the
error, as for all errors (`Reports`).

So every token that does not belong to the layout is what some lexeme gives at the token's location
(`exists_shape_of_calls`), and a text that spells a lexeme gives that and no more (`tokenize_text`).
-/

namespace Offside.Lexer

open Lexeme Lines

variable {settings : Settings} {source : Source} {lexer : Lexer} {tokens : List Token}

/-- The next pull reports `cause` at the next character, if the place of it can be written. -/
def Reports (lexer : Lexer) (cause : LexError.Cause) : Prop :=
  next lexer = .error
    (if lexer.here.isWritable then .lexical ⟨cause, some lexer.here⟩ else .decimal .tooLong)
    (lexer.failing cause)

/-- What the next pull does about a lexeme: it is too large, or the decoder refuses it, or it is
read and gives a token. -/
def Deals (lexer : Lexer) (shape : Shape) : Prop :=
  if shape.IsTooLarge lexer.settings then Reports lexer (.outOfRange (String.ofList shape.text))
  else ∃ left, left.cursor.rest = lexer.cursor.rest.drop shape.text.length ∧
    next lexer =
      match shape.value lexer.settings with
      | .ok value => .ok ⟨shape.kind, value, String.ofList shape.text, lexer.here⟩ left
      | .error refusal => .error (.decoding refusal) left

/-! ## One pull -/

theorem reports_of_transition {cause : LexError.Cause} (running : lexer.ending = none)
    (h : Transition lexer (.error (.at cause lexer.here) (lexer.failing cause))) :
    Reports lexer cause := by
  unfold Reports
  by_cases writable : lexer.here.isWritable
  · rw [if_pos writable, next_of_error running h, Error.at_of_isWritable writable]
  · rw [if_neg writable, next_of_error running h, Error.at_of_not_isWritable writable]

/-- A lexeme is dealt with in one step. -/
theorem deals_of_longest? {shape : Shape} (running : lexer.ending = none)
    (mode : lexer.mode = .inLine) (content : IsContent lexer.cursor.rest)
    (found : longest? lexer.cursor.rest = some shape) : Deals lexer shape := by
  unfold Deals
  by_cases large : shape.IsTooLarge lexer.settings
  · rw [if_pos large]
    exact reports_of_transition running (.tooLarge mode content found large)
  · rw [if_neg large]
    refine ⟨{ lexer with cursor := shape.pass lexer.settings.tabWidth lexer.cursor },
      Shape.rest_pass .., ?_⟩
    cases hvalue : shape.value lexer.settings with
    | error refusal => exact next_of_error running (.refused mode content found large hvalue)
    | ok value =>
        apply next_of_token running
        exact .lexeme mode content found (Shape.read_of_value _ large hvalue)

/-! ## Any pull -/

/-- A lexer that stands in front of something has not ended its stream. -/
theorem Consistent.running (h : Consistent settings source lexer)
    (content : IsContent lexer.cursor.rest) : lexer.ending = none := by
  obtain ⟨c, rest, hrest, -⟩ := content
  exact h.running_of_ne_nil (hrest ▸ List.cons_ne_nil c rest)

/-- In front of a lexeme, the next pull deals with the longest one there is, and if there is none,
it reports the next character. -/
theorem lexeme_of_calls (calls : Calls (start settings source) tokens lexer)
    (mode : lexer.mode = .inLine) (content : IsContent lexer.cursor.rest) :
    lexer.settings = settings ∧
      ((∃ shape, IsLongest shape lexer.cursor.rest ∧ Shape.ofText? shape.text = some shape ∧
          Deals lexer shape) ∨
        ∃ c rest, lexer.cursor.rest = c :: rest ∧
          (∀ shape : Shape, shape.IsValid → ¬ shape.text <+: c :: rest) ∧
          Reports lexer (.unexpected c)) ∧
      (settings.Fits source → lexer.here.isWritable) := by
  have consistent := (consistent_start settings source).of_calls calls
  have running := consistent.running content
  refine ⟨consistent.settings, ?_, consistent.isWritable_of_fits⟩
  cases found : longest? lexer.cursor.rest with
  | some shape =>
      left
      have longest := isLongest_of_longest? found
      exact ⟨shape, longest, Shape.ofText?_text longest.valid,
        deals_of_longest? running mode content found⟩
  | none =>
      right
      obtain ⟨c, rest, hrest, -⟩ := id content
      refine ⟨c, rest, hrest, ?_,
        reports_of_transition running (.unexpected mode hrest content found)⟩
      intro shape valid
      rw [hrest] at found
      exact not_prefix_of_longest?_eq_none found valid

theorem lexeme_of_tab_and_operator :
    ∃ tokens lexer, Calls (start .standard (behindTab "a" '=')) tokens lexer ∧
      lexer.mode = .inLine ∧ lexer.cursor.rest = ['='] ∧ Deals lexer (.operator .assign) := by
  have content : IsContent ['='] := ⟨'=', [], rfl, by decide, by decide, by decide⟩
  obtain ⟨token, lexer, first, -, -, mode, hrest, -⟩ :=
    exists_next_behindTab .standard "a" content
  have calls := Calls.token first (.nil lexer)
  obtain ⟨-, hnext, -⟩ := lexeme_of_calls calls mode (hrest ▸ content)
  refine ⟨_, lexer, calls, mode, hrest, ?_⟩
  rcases hnext with ⟨shape, longest, -, deals⟩ | ⟨c, rest, hsplit, hnone, -⟩
  · have hshape : longest? ['='] = some (.operator .assign) := by decide
    rw [← hrest, longest?_eq_some longest] at hshape
    exact Option.some.inj hshape ▸ deals
  · rw [hrest] at hsplit
    rw [← hsplit] at hnone
    exact absurd List.prefix_rfl (hnone (.operator .assign) trivial)

/-- Behind a tab of the greatest width, the next character is not reported although no lexeme begins
with it. -/
theorem lexeme_of_wide_tab :
    ∃ tokens lexer left, Calls (start .wide (behindTab Location.unnamed '?')) tokens lexer ∧
      lexer.mode = .inLine ∧ lexer.cursor.rest = ['?'] ∧ longest? ['?'] = none ∧
      next lexer = .error (.decimal .tooLong) left := by
  have content : IsContent ['?'] := ⟨'?', [], rfl, by decide, by decide, by decide⟩
  have found : longest? ['?'] = none := by decide
  obtain ⟨token, middle, left, first, -, mode, hrest, failure⟩ :=
    exists_failure_behindTab Location.unnamed content found Settings.not_fits_wide
  exact ⟨_, middle, left, .token first (.nil middle), mode, hrest, found, failure⟩

/-! ## Tokens and lexemes -/

/-- What does not belong to the layout is made of a lexeme. -/
theorem exists_shape_of_next {token : Token} {left : Lexer}
    (consistent : Consistent settings source lexer) (first : next lexer = .ok token left)
    (content : token.kind.isLayout = false) :
    ∃ shape : Shape, shape.IsValid ∧ shape.read settings token.location = .ok token := by
  have inside : token.kind ≠ .layout .eof := fun h => by simp [h, Kind.isLayout] at content
  have running := consistent.running_of_next first inside
  obtain ⟨front, skipped, idles, last⟩ := exists_idles_of_next running first
  have consistent' := idles.consistent running consistent
  cases last with
  | @lexeme shape token mode content found read =>
      refine ⟨shape, (isLongest_of_longest? found).valid, ?_⟩
      rw [Shape.location_of_read read, ← consistent'.settings]
      exact read
  | _ => simp [mark, Kind.isLayout] at content

theorem exists_shape_of_calls {left : Lexer} {token : Token} (calls : Calls lexer tokens left)
    (consistent : Consistent settings source lexer) (hmem : token ∈ tokens)
    (content : token.kind.isLayout = false) :
    ∃ shape : Shape, shape.IsValid ∧ shape.read settings token.location = .ok token := by
  induction calls with
  | nil lexer => simp at hmem
  | token first more ih =>
      rcases List.mem_cons.mp hmem with rfl | hmem
      · exact exists_shape_of_next consistent first content
      · exact ih (consistent.of_next first) hmem
  | failed first more ih => exact ih (consistent.of_next_error first) hmem

/-- A text that spells a lexeme is read as this lexeme alone. -/
theorem tokenize_text (settings : Settings) (name : String) {shape : Shape}
    (valid : shape.IsValid) :
    tokenize settings ⟨String.ofList shape.text, name⟩ =
      ((shape.read settings ⟨1, 1, name⟩).mapError Fault.reported).map fun token =>
        [token, ⟨.layout .eof, none, "", ⟨1, 1 + shape.text.length, name⟩⟩] := by
  have content := isContent_text valid
  have found := longest?_eq_some (isLongest_text valid)
  have stop : Position.start.after settings.tabWidth shape.text = ⟨1, 1 + shape.text.length⟩ :=
    Position.after_of_not_stop (fun c hc => Shape.not_stop_of_mem valid hc) Position.start
  rw [tokenize_eq_reported, read_of_contents content (Shape.not_mem_text valid),
    contents_lexeme Position.start content found, List.drop_length, stop]
  cases hread : shape.read settings (.ofPosition name Position.start) with
  | ok token =>
      have hread : shape.read settings ⟨1, 1, name⟩ = .ok token := hread
      rw [hread, Reading.ofExcept_ok, Reading.pure_bind, Reading.emit_bind, contents_nil]
      rfl
  | error fault =>
      have hread : shape.read settings ⟨1, 1, name⟩ = .error fault := hread
      rw [hread]
      rfl

end Offside.Lexer
