import Offside.Proofs.Lexer.Stream

/-!
# Lexers under other settings

The largest integer and the decoder concern a lexer only in front of a lexeme.  Between lexemes,
lexers with settings of the same tab width do the same, and what they leave differs in nothing but
the settings (`transition_under`).  So a pull under other settings goes the same way up to the
first lexeme, or to its end if it comes to none.  `Arrival` lists what it may come to, and
`arrival_next` says that there is nothing else.  How a lexeme is dealt with under either settings
is then the only question left.
-/

namespace Offside.Lexer

open Offside.Action Lexeme Lines

variable {settings : Settings} {lexer left : Lexer} {α : Type}

/-- The lexer under other settings. -/
def under (lexer : Lexer) (settings : Settings) : Lexer := { lexer with settings }

/-- A result, with the lexer that is left put under other settings. -/
def resultUnder (settings : Settings) : EStateM.Result Error Lexer α → EStateM.Result Error Lexer α
  | .ok value left => .ok value (left.under settings)
  | .error cause left => .error cause (left.under settings)

/-- A lexer inside a line, in front of a lexeme. -/
structure Faces (lexer : Lexer) (shape : Shape) : Prop where
  mode : lexer.mode = .inLine
  content : IsContent lexer.cursor.rest
  found : longest? lexer.cursor.rest = some shape

theorem Faces.under {shape : Shape} (h : lexer.Faces shape) :
    (lexer.under settings).Faces shape :=
  ⟨h.mode, h.content, h.found⟩

/-! ## Steps between lexemes -/

theorem ahead_under (width : settings.tabWidth = lexer.settings.tabWidth) (count : ℕ) :
    (lexer.under settings).ahead count = (lexer.ahead count).under settings := by
  unfold under ahead
  rw [width]

theorem reaches_under (width : settings.tabWidth = lexer.settings.tabWidth) {run : List Char}
    {level : Int} (reaches : lexer.Reaches run level) :
    (lexer.under settings).Reaches run level := by
  unfold Reaches at reaches ⊢
  rw [← reaches, ← width]
  rfl

/-- Where a step does not deal with a lexeme, it is the same under other settings. -/
theorem transition_under {result : EStateM.Result Error Lexer (Option Token)}
    (width : settings.tabWidth = lexer.settings.tabWidth)
    (between : ∀ shape, ¬ lexer.Faces shape) (h : Transition lexer result) :
    Transition (lexer.under settings) (resultUnder settings result) := by
  have hahead := @ahead_under settings lexer width
  -- Each condition is about what the two lexers share, or about the width of a tab.
  cases h with
  | closeAtEnd mode ended opened => exact .closeAtEnd mode ended opened
  | finish mode ended opened => exact .finish mode ended opened
  | blankLine mode split blank =>
      have step := @Transition.blankLine (lexer.under settings) _ _ mode split blank
      rw [hahead] at step
      exact step
  | lastBlankLine mode nonempty blank =>
      have step := @Transition.lastBlankLine (lexer.under settings) mode nonempty blank
      rw [hahead] at step
      exact step
  | sameLevel mode indented content level =>
      have step := @Transition.sameLevel (lexer.under settings) _ _ mode indented content
        (reaches_under width level)
      rw [hahead] at step
      exact step
  | indent mode indented content reaches deeper =>
      have step := @Transition.indent (lexer.under settings) _ _ _ mode indented content
        (reaches_under width reaches) deeper
      rw [hahead] at step
      exact step
  | pend mode indented content reaches shallower =>
      exact .pend mode indented content (reaches_under width reaches) shallower
  | dedent mode indented reaches opened shallower =>
      exact .dedent mode indented (reaches_under width reaches) opened shallower
  | resolved mode indented level =>
      have step := @Transition.resolved (lexer.under settings) _ _ mode indented
        (reaches_under width level)
      rw [hahead] at step
      exact step
  | mismatch mode indented reaches deeper =>
      exact @Transition.mismatch (lexer.under settings) _ _ _ mode indented
        (reaches_under width reaches) deeper
  | blanks mode kept nonempty =>
      have step := @Transition.blanks (lexer.under settings) _ mode kept nonempty
      unfold under at step
      rw [width] at step
      exact step
  | openComment mode split closed =>
      have step := @Transition.openComment (lexer.under settings) _ mode split closed
      rw [hahead] at step
      exact step
  | newline mode ends =>
      have step := @Transition.newline (lexer.under settings) _ _ _ mode ends
      rw [hahead] at step
      exact step
  | lexeme mode content found read => exact absurd ⟨mode, content, found⟩ (between _)
  | refused mode content found fits refusal => exact absurd ⟨mode, content, found⟩ (between _)
  | tooLarge mode content found large => exact absurd ⟨mode, content, found⟩ (between _)
  | unexpected mode split content found =>
      exact @Transition.unexpected (lexer.under settings) _ _ mode split content found

/-- A token that is not made of a lexeme belongs to the layout. -/
theorem isLayout_of_between {token : Token} (between : ∀ shape, ¬ lexer.Faces shape)
    (h : Transition lexer (.ok (some token) left)) : token.kind.isLayout := by
  cases h with
  | lexeme mode content found read => exact absurd ⟨mode, content, found⟩ (between _)
  | _ => rfl

/-- Away from lexemes nothing is decoded. -/
theorem ne_decoding_of_between {cause : Error} (between : ∀ shape, ¬ lexer.Faces shape)
    (h : Transition lexer (.error cause left)) (refusal : DecodeError) :
    cause ≠ .decoding refusal := by
  cases h with
  | mismatch mode indented reaches deeper => exact Error.at_ne_decoding _ _ refusal
  | unexpected mode split content found => exact Error.at_ne_decoding _ _ refusal
  | refused mode content found fits refusal => exact absurd ⟨mode, content, found⟩ (between _)
  | tooLarge mode content found large => exact absurd ⟨mode, content, found⟩ (between _)

theorem settings_of_idle (h : Transition lexer (.ok none left)) :
    left.settings = lexer.settings := by
  cases h <;> rfl

/-! ## Pulls up to a lexeme -/

/-- What a pull comes to, of which other settings than those of the lexer know as well. -/
inductive Arrival (settings : Settings) (lexer : Lexer) : Prop
  /-- A lexeme is met, by a lexer that is the same under both settings. -/
  | lexeme {front : Lexer} {shape : Shape} (faces : front.Faces shape)
      (running : front.ending = none) (kept : front.settings = lexer.settings)
      (here : next lexer = next front)
      (other : next (lexer.under settings) = next (front.under settings))
  /-- A token of the layout is given. -/
  | token {token : Token} {left : Lexer} (layout : token.kind.isLayout)
      (here : next lexer = .ok token left)
      (other : next (lexer.under settings) = .ok token (left.under settings))
  /-- There is no lexeme where one has to be, or the indentation is wrong. -/
  | failure {cause : Error} {left : Lexer} (lexical : ∀ refusal, cause ≠ .decoding refusal)
      (here : next lexer = .error cause left)
      (other : next (lexer.under settings) = .error cause (left.under settings))

/-- A step without a token does not change what a pull comes to. -/
theorem Arrival.of_idle {middle : Lexer} (running : lexer.ending = none)
    (first : Transition lexer (.ok none middle))
    (other : Transition (lexer.under settings) (.ok none (middle.under settings)))
    (arrival : Arrival settings middle) : Arrival settings lexer := by
  have hnext : next lexer = next middle := next_of_idle running first
  have hother : next (lexer.under settings) = next (middle.under settings) :=
    next_of_idle running other
  cases arrival with
  | lexeme faces running kept here other =>
      exact .lexeme faces running (kept.trans (settings_of_idle first)) (hnext.trans here)
        (hother.trans other)
  | token layout here other => exact .token layout (hnext.trans here) (hother.trans other)
  | failure lexical here other => exact .failure lexical (hnext.trans here) (hother.trans other)

/-- In front of a lexeme the pull has come to it already. -/
theorem Arrival.of_between (running : lexer.ending = none)
    (h : (∀ shape, ¬ lexer.Faces shape) → Arrival settings lexer) : Arrival settings lexer := by
  by_cases faces : ∃ shape, lexer.Faces shape
  · obtain ⟨shape, faces⟩ := faces
    exact .lexeme faces running rfl rfl rfl
  · exact h (not_exists.mp faces)

theorem arrival_of_pull {result : EStateM.Result Error Lexer Token} (h : Pull lexer result)
    (running : lexer.ending = none) (width : settings.tabWidth = lexer.settings.tabWidth) :
    Arrival settings lexer := by
  induction h with
  | token last =>
      refine .of_between running fun between => ?_
      have other := transition_under width between last
      exact .token (isLayout_of_between between last) (next_of_token running last)
        (next_of_token running other)
  | failed last =>
      refine .of_between running fun between => ?_
      have other := transition_under width between last
      exact .failure (ne_decoding_of_between between last) (next_of_error running last)
        (next_of_error running other)
  | idle first more ih =>
      refine .of_between running fun between => ?_
      have other := transition_under width between first
      have arrival := ih ((ending_of_idle first).trans running)
        (width.trans (congrArg Settings.tabWidth (settings_of_idle first)).symm)
      exact arrival.of_idle running first other

/-- A pull comes to a lexeme, or to something that other settings make no difference to. -/
theorem arrival_next (running : lexer.ending = none)
    (width : settings.tabWidth = lexer.settings.tabWidth) : Arrival settings lexer :=
  arrival_of_pull (pull_next running) running width

end Offside.Lexer
