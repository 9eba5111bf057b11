import Offside.Proofs.Lexer.Passage
import Offside.Proofs.Lexer.Stream

/-!
# Lexers at work on a text

`Consistent` is the invariant of a lexer at work on a text: its cursor stands in the text, its
position is that of the cursor, and as long as a line has not begun, nothing of it has been read,
except perhaps a carriage return that belonged to the line break before it.  Steps keep the
invariant, and so do pulls, be they successful or not.

`Passage` says what a pull passes over: trivia, up to the place where its token is located, and from
there on what the step that gives the token passes over.
-/

namespace Offside.Lexer

open Lexeme Lines

variable {settings : Settings} {source : Source} {lexer middle left : Lexer} {text : List Char}

/-! ## The invariant -/

/-- A lexer at work on a text. -/
structure Consistent (settings : Settings) (source : Source) (lexer : Lexer) : Prop where
  settings : lexer.settings = settings
  name : lexer.name = source.name
  text : lexer.cursor.before.reverse ++ lexer.cursor.rest = source.text.toList
  position : lexer.position =
    Position.start.after lexer.settings.tabWidth lexer.cursor.before.reverse
  /-- Nothing of a line is read before its indentation is dealt with. -/
  unread : lexer.mode ≠ .inLine → lexer.cursor.rest ≠ [] →
    ∀ c ∈ lastLine lexer.cursor.before.reverse, c = '\r'
  closes : lexer.ClosesForContent
  /-- The stream ends behind the text. -/
  ended : ∀ token, lexer.ending = some token →
    token = lexer.mark .eof ∧ lexer.cursor.rest = []

theorem consistent_start (settings : Settings) (source : Source) :
    Consistent settings source (start settings source) where
  settings := rfl
  name := rfl
  text := rfl
  position := rfl
  unread _ _ := by simp [start, Cursor.start, lastLine]
  closes h := by simp [start] at h
  ended _ h := by simp [start] at h

namespace Consistent

/-- Reading on keeps the invariant, if what follows is dealt with as a line should be. -/
theorem of_passes (h : Consistent settings source lexer) (passes : Passes lexer left text)
    (restarts : Restarts lexer left text) (closes : left.ClosesForContent)
    (ended : ∀ token, left.ending = some token → token = left.mark .eof ∧ left.cursor.rest = []) :
    Consistent settings source left where
  settings := passes.settings.trans h.settings
  name := passes.name.trans h.name
  text := by rw [passes.before, List.append_assoc, ← passes.rest, h.text]
  position := by
    rw [passes.position, passes.before, passes.settings, h.position, Position.after_append]
  unread hmode hrest := by
    rcases restarts hmode with ended | ⟨rfl, hlexer⟩ | ⟨line, more, hline, rfl⟩
    · exact absurd ended hrest
    · have hsame : lexer.cursor.rest = left.cursor.rest := passes.rest
      rw [passes.before, List.append_nil]
      exact h.unread hlexer (hsame ▸ hrest)
    · have hreturn : '\n' ∉ leadingReturn more :=
        not_mem_of_blank (blank_of_mem_leadingReturn more)
      rw [passes.before, ← List.append_assoc, lastLine_feed hreturn]
      exact fun c hc => eq_of_mem_leadingReturn hc
  closes := closes
  ended := ended

theorem closes_of_transition {found : Option Token} (h : Consistent settings source lexer)
    (transition : Transition lexer (.ok found left)) : left.ClosesForContent := by
  intro hleft
  cases transition with
  | closeAtEnd mode ended opened => exact absurd hleft mode
  | finish mode ended opened => exact absurd hleft mode
  | pend mode indented content reaches shallower => exact ⟨_, _, indented, content⟩
  | dedent mode indented reaches opened shallower => exact h.closes mode
  | blankLine mode | lastBlankLine mode | openComment mode | blanks mode | lexeme mode =>
      exact absurd (mode.symm.trans hleft) (by decide)
  | sameLevel | indent | resolved | newline => simp [entering, noting] at hleft

theorem ended_of_transition {found : Option Token} (running : lexer.ending = none)
    (transition : Transition lexer (.ok found left)) {token : Token}
    (ended : left.ending = some token) : token = left.mark .eof ∧ left.cursor.rest = [] := by
  cases transition with
  | finish mode ended' opened => exact ⟨(Option.some.inj ended).symm, ended'⟩
  | _ => exact absurd (running.symm.trans ended) (by simp)

/-- Steps keep the invariant. -/
theorem of_transition {found : Option Token} (h : Consistent settings source lexer)
    (running : lexer.ending = none) (transition : Transition lexer (.ok found left)) :
    Consistent settings source left := by
  have closes := h.closes_of_transition transition
  have ended := fun token => @ended_of_transition lexer left found running transition token
  cases found with
  | none =>
      obtain ⟨text, skips⟩ := exists_skips transition
      exact h.of_passes skips.passes skips.restarts closes ended
  | some token =>
      obtain ⟨lead, gives⟩ := exists_gives transition h.closes
      exact h.of_passes gives.passes gives.restarts closes ended

/-- Steps that fail keep it as well. -/
theorem of_failure {cause : Error} (h : Consistent settings source lexer)
    (running : lexer.ending = none) (transition : Transition lexer (.error cause left)) :
    Consistent settings source left := by
  generalize hresult : EStateM.Result.error cause left = result at transition
  have same : ∀ cause, Consistent settings source (lexer.failing cause) :=
    fun _ => ⟨h.settings, h.name, h.text, h.position, h.unread, h.closes, h.ended⟩
  cases transition with
  | mismatch | tooLarge | unexpected =>
      obtain ⟨-, rfl⟩ := EStateM.Result.error.inj hresult
      exact same _
  | @refused shape cause' mode content found fits refusal =>
      obtain ⟨-, rfl⟩ := EStateM.Result.error.inj hresult
      exact h.of_passes (passes_of_shape (isLongest_of_longest? found).prefixed) (absurd mode)
        (fun h => absurd (mode.symm.trans h) (by decide))
        fun token ended => absurd (running.symm.trans ended) (by simp)
  | _ => simp at hresult

end Consistent

/-! ## Steps without a token -/

/-- Steps without a token, over `text`. -/
inductive Idles : Lexer → Lexer → List Char → Prop
  | nil (lexer : Lexer) : Idles lexer lexer []
  | cons {lexer middle left : Lexer} {text more : List Char}
      (first : Transition lexer (.ok none middle)) (skips : Skips lexer middle text)
      (idles : Idles middle left more) : Idles lexer left (text ++ more)

namespace Idles

theorem passes (h : Idles lexer left text) : Passes lexer left text := by
  induction h with
  | nil lexer => exact .refl lexer
  | cons first skips idles ih => exact skips.passes.trans ih

theorem running (h : Idles lexer left text) (running : lexer.ending = none) :
    left.ending = none := by
  induction h with
  | nil lexer => exact running
  | cons first skips idles ih => exact ih ((ending_of_idle first).trans running)

/-- What a step without a token keeps, any number of them keeps. -/
theorem preserves {P : Lexer → Prop} (idles : Idles lexer left text)
    (running : lexer.ending = none)
    (step : ∀ {lexer left}, P lexer → lexer.ending = none → Transition lexer (.ok none left) →
      P left)
    (h : P lexer) : P left := by
  induction idles with
  | nil lexer => exact h
  | cons first skips idles ih =>
      exact ih ((ending_of_idle first).trans running) (step h running first)

theorem consistent (h : Idles lexer left text) (running : lexer.ending = none)
    (consistent : Consistent settings source lexer) : Consistent settings source left :=
  h.preserves running Consistent.of_transition consistent

/-- What steps without a token pass over is trivia. -/
theorem trivia (h : Idles lexer left text) : Trivia text left.cursor.rest := by
  induction h with
  | nil lexer => exact .nil _
  | cons first skips idles ih => exact (idles.passes.rest ▸ skips.trivia).append ih

theorem mode_of_idle (h : Transition lexer (.ok none middle)) (mode : middle.mode = .lineStart) :
    lexer.mode = .lineStart := by
  cases h with
  | blankLine mode | lastBlankLine mode => exact mode
  | sameLevel | pend | resolved => simp [entering] at mode
  | blanks | openComment => exact mode

/-- A line feed that is passed over without a token ends a line without lexemes. -/
theorem isBlank (h : Idles lexer left text) (running : lexer.ending = none)
    (consistent : Consistent settings source lexer) {front behind : List Char}
    (hsplit : text = front ++ '\n' :: behind) :
    lexer.mode = .lineStart ∧ IsBlank (lastLine (lexer.cursor.before.reverse ++ front)) := by
  induction h generalizing front with
  | nil lexer => simp at hsplit
  | @cons lexer middle left text more first skips idles ih =>
      have later : ∀ front', more = front' ++ '\n' :: behind →
          lexer.mode = .lineStart ∧
            IsBlank (lastLine (lexer.cursor.before.reverse ++ (text ++ front'))) := by
        intro front' hmore
        obtain ⟨mode, blank⟩ := ih ((ending_of_idle first).trans running)
          (consistent.of_transition running first) hmore
        rw [skips.passes.before, List.append_assoc] at blank
        exact ⟨mode_of_idle first mode, blank⟩
      rcases List.append_eq_append_iff.mp hsplit with ⟨front', rfl, hmore⟩ | ⟨line', htext, hmore⟩
      · exact later front' hmore
      · cases line' with
        | nil =>
            rw [List.append_nil] at htext
            have hlater := later [] hmore.symm
            rwa [List.append_nil, htext] at hlater
        | cons c line' =>
            obtain ⟨rfl, -⟩ := List.cons.inj hmore
            obtain ⟨mode, line, more', hline, blank⟩ := skips.feed (by simp [htext])
            have hreturn : '\n' ∉ leadingReturn more' :=
              not_mem_of_blank (blank_of_mem_leadingReturn more')
            obtain rfl := eq_of_append_feed blank.not_mem hreturn (hline.symm.trans htext)
            have hnonempty : lexer.cursor.rest ≠ [] := by simp [skips.passes.rest, htext]
            have hunread := consistent.unread (by simp [mode]) hnonempty
            refine ⟨mode, ?_⟩
            rw [lastLine_append blank.not_mem]
            refine (isBlank_of_blank fun c hc => ?_).append blank
            rw [hunread c hc]
            decide

end Idles

/-! ## The way to the end of a line -/

/-- The current line is still to begin, or the lexer is in front of its first lexeme. -/
def IsFresh (lexer : Lexer) : Prop := lexer.mode ≠ .inLine ∨ IsContent lexer.cursor.rest

/-- No blanks are skipped in front of a lexeme. -/
theorem keptRun_of_isContent (h : IsContent text) : Cursor.keptRun isInnerBlank text = [] := by
  obtain ⟨c, rest, rfl, hblank, -⟩ := h
  exact Cursor.keptRun_cons_of_not_keep (by simp [isInnerBlank, hblank])

theorem isFresh_of_idle (h : Transition lexer (.ok none middle)) (closes : lexer.ClosesForContent)
    (fresh : lexer.IsFresh) : middle.IsFresh := by
  cases h with
  | blankLine mode | lastBlankLine mode => exact Or.inl (by simp [mode])
  | sameLevel mode indented begins level =>
      exact Or.inr ((rest_ahead_of_split indented.split).symm ▸ begins)
  | pend => exact Or.inl (by simp)
  | resolved mode indented level =>
      have begins := closes.isContent mode indented
      exact Or.inr ((rest_ahead_of_split indented.split).symm ▸ begins)
  | blanks mode kept nonempty =>
      have begins := fresh.resolve_left (absurd mode)
      exact absurd ((keptRun_of_isContent begins).symm.trans kept).symm nonempty
  | openComment mode split closed =>
      obtain ⟨c, rest, hrest, -, -, hmark⟩ := fresh.resolve_left (absurd mode)
      exact absurd (List.cons.inj (hrest.symm.trans split)).1 hmark

theorem Idles.isFresh (h : Idles lexer left text) (running : lexer.ending = none)
    (consistent : Consistent settings source lexer) (fresh : lexer.IsFresh) : left.IsFresh := by
  induction h with
  | nil lexer => exact fresh
  | cons first skips idles ih =>
      exact ih ((ending_of_idle first).trans running) (consistent.of_transition running first)
        (isFresh_of_idle first consistent.closes fresh)

/-- The way to the end of a line leads over blanks. -/
theorem Idles.blank (h : Idles lexer left text) (running : lexer.ending = none)
    (consistent : Consistent settings source lexer) (fresh : ¬ left.IsFresh)
    (nonempty : left.cursor.rest ≠ []) : ∀ c ∈ text, CharClass.blank.has c := by
  induction h with
  | nil lexer => simp
  | @cons lexer middle left text more first skips idles ih =>
      have running' := (ending_of_idle first).trans running
      have consistent' := consistent.of_transition running first
      have hmiddle : ¬ middle.IsFresh := fun h => fresh (idles.isFresh running' consistent' h)
      obtain ⟨mode, -⟩ := not_or.mp fun h => hmiddle (isFresh_of_idle first consistent.closes h)
      have hrest : middle.cursor.rest ≠ [] := by
        rw [idles.passes.rest]
        exact List.append_ne_nil_of_right_ne_nil _ nonempty
      have htext := (skips.blank (not_not.mp mode)).resolve_left hrest
      have hmore := ih running' consistent' fresh nonempty
      exact fun c hc => (List.mem_append.mp hc).elim (htext c) (hmore c)

/-! ## Pulls -/

/-- A pull is made of steps without a token and a last one. -/
theorem Pull.exists_idles {token : Token} (h : Pull lexer (.ok token left)) :
    ∃ middle text, Idles lexer middle text ∧ Transition middle (.ok (some token) left) := by
  apply h.backwards
  · intro lexer last
    exact ⟨lexer, [], .nil lexer, last⟩
  · rintro lexer behind first ⟨middle, text, idles, last⟩
    obtain ⟨front, skips⟩ := exists_skips first
    exact ⟨middle, front ++ text, .cons first skips idles, last⟩

theorem Pull.exists_idles_of_error {cause : Error} (h : Pull lexer (.error cause left)) :
    ∃ middle text, Idles lexer middle text ∧ Transition middle (.error cause left) := by
  generalize hresult : EStateM.Result.error cause left = result at h
  induction h with
  | token last => simp at hresult
  | @failed lexer left' cause' last =>
      obtain ⟨rfl, rfl⟩ := EStateM.Result.error.inj hresult
      exact ⟨lexer, [], .nil lexer, last⟩
  | idle first more ih =>
      obtain ⟨middle, text, idles, last⟩ := ih hresult
      obtain ⟨front, skips⟩ := exists_skips first
      exact ⟨middle, front ++ text, .cons first skips idles, last⟩

/-- What an open stream gives, the last step of a pull gives. -/
theorem exists_idles_of_next {token : Token} (running : lexer.ending = none)
    (h : next lexer = .ok token left) :
    ∃ middle text, Idles lexer middle text ∧ Transition middle (.ok (some token) left) :=
  (h ▸ pull_next running).exists_idles

/-- Only an open stream fails, at the last step of a pull. -/
theorem exists_idles_of_next_error {cause : Error} (h : next lexer = .error cause left) :
    ∃ middle text, lexer.ending = none ∧ Idles lexer middle text ∧
      Transition middle (.error cause left) := by
  cases running : lexer.ending with
  | none =>
      obtain ⟨middle, text, idles, last⟩ := (h ▸ pull_next running).exists_idles_of_error
      exact ⟨middle, text, rfl, idles, last⟩
  | some ending => simp [next_of_ended running] at h

/-- How a pull comes to its token: over `skipped` to the place where the token is located, and then
over `lead` to its text. -/
structure Passage (settings : Settings) (source : Source) (lexer middle left : Lexer)
    (token : Token) (skipped lead : List Char) : Prop where
  before : Consistent settings source lexer
  idles : Idles lexer middle skipped
  inside : Consistent settings source middle
  gives : Gives middle left token lead

/-- Every pull that gives a token has a passage. -/
theorem exists_passage {token : Token} (consistent : Consistent settings source lexer)
    (h : next lexer = .ok token left) :
    ∃ middle skipped lead, Passage settings source lexer middle left token skipped lead := by
  cases running : lexer.ending with
  | none =>
      obtain ⟨middle, skipped, idles, last⟩ := exists_idles_of_next running h
      have consistent' := idles.consistent running consistent
      obtain ⟨lead, gives⟩ := exists_gives last consistent'.closes
      exact ⟨middle, skipped, lead, consistent, idles, consistent', gives⟩
  | some ending =>
      obtain ⟨rfl, rfl⟩ := eq_of_next_of_ended running h
      obtain ⟨hending, ended⟩ := consistent.ended _ running
      subst hending
      exact ⟨lexer, [], [], consistent, .nil lexer, consistent,
        gives_of_silent rfl (.refl lexer) (by simp) (fun _ => Or.inl ended) rfl
          (.ending (Or.inr rfl) ended) (fun _ => ended) fun _ => ended⟩

/-- Pulls keep the invariant. -/
theorem Consistent.of_next {token : Token} (h : Consistent settings source lexer)
    (pull : next lexer = .ok token left) : Consistent settings source left := by
  cases running : lexer.ending with
  | none =>
      obtain ⟨middle, skipped, idles, last⟩ := exists_idles_of_next running pull
      exact (idles.consistent running h).of_transition (idles.running running) last
  | some ending =>
      obtain ⟨-, rfl⟩ := eq_of_next_of_ended running pull
      exact h

/-- In front of unread text the stream is open. -/
theorem Consistent.running_of_ne_nil (h : Consistent settings source lexer)
    (nonempty : lexer.cursor.rest ≠ []) : lexer.ending = none := by
  cases running : lexer.ending with
  | none => rfl
  | some ending => exact absurd (h.ended ending running).2 nonempty

/-- Behind the token that ends the stream there is no other. -/
theorem Consistent.running_of_next {token : Token} (h : Consistent settings source lexer)
    (pull : next lexer = .ok token left) (inside : token.kind ≠ .layout .eof) :
    lexer.ending = none := by
  cases running : lexer.ending with
  | none => rfl
  | some ending =>
      obtain ⟨rfl, -⟩ := eq_of_next_of_ended running pull
      rw [(h.ended _ running).1] at inside
      exact absurd rfl inside

/-- Pulls that fail keep it as well. -/
theorem Consistent.of_next_error {cause : Error} (h : Consistent settings source lexer)
    (pull : next lexer = .error cause left) : Consistent settings source left := by
  obtain ⟨middle, skipped, running, idles, last⟩ := exists_idles_of_next_error pull
  exact (idles.consistent running h).of_failure (idles.running running) last

theorem Consistent.of_calls {tokens : List Token} (h : Consistent settings source lexer)
    (calls : Calls lexer tokens left) : Consistent settings source left := by
  induction calls with
  | nil lexer => exact h
  | token first more ih => exact ih (h.of_next first)
  | failed first more ih => exact ih (h.of_next_error first)

end Offside.Lexer
