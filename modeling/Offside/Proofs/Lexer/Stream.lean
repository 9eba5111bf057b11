import Offside.Proofs.Lexer.Pull
import Offside.Proofs.Lines.Reading

/-!
# Streams of tokens

`Pulls lexer tokens left` says that pulling gives `tokens` and leads to `left`.  `Reads lexer
reading` is the whole account of a lexer: every token up to the last, or up to the error that stops
it.  `tokenize` gives what the account says (`tokenize_eq_whole`), and where pulls come to an error,
the account ends with that error behind the tokens that they gave (`Reads.eq_of_failed`).

Accounts are put together transition by transition, which is how a lexer is compared with a reading
of its text.
-/

namespace Offside.Lexer

open Offside.Action

/-- Pulls that give tokens. -/
inductive Pulls : Lexer → List Token → Lexer → Prop
  | nil (lexer : Lexer) : Pulls lexer [] lexer
  | cons {lexer middle left : Lexer} {token : Token} {tokens : List Token}
      (first : next lexer = .ok token middle) (more : Pulls middle tokens left) :
      Pulls lexer (token :: tokens) left

/-- Pulls of which some may fail; the others give tokens. -/
inductive Calls : Lexer → List Token → Lexer → Prop
  | nil (lexer : Lexer) : Calls lexer [] lexer
  | token {lexer middle left : Lexer} {token : Token} {tokens : List Token}
      (first : next lexer = .ok token middle) (more : Calls middle tokens left) :
      Calls lexer (token :: tokens) left
  | failed {lexer middle left : Lexer} {cause : Error} {tokens : List Token}
      (first : next lexer = .error cause middle) (more : Calls middle tokens left) :
      Calls lexer tokens left

/-- Pulls up to the last token or the first error. -/
inductive Reads : Lexer → Reading Error Unit → Prop
  | ended {lexer left : Lexer} {token : Token} (last : next lexer = .ok token left)
      (eof : token.isEof = true) : Reads lexer ⟨[token], .ok ()⟩
  | token {lexer left : Lexer} {token : Token} {reading : Reading Error Unit}
      (first : next lexer = .ok token left) (running : token.isEof = false)
      (more : Reads left reading) : Reads lexer (reading.preceded [token])
  | failed {lexer left : Lexer} {cause : Error} (failure : next lexer = .error cause left) :
      Reads lexer ⟨[], .error cause⟩

theorem Pulls.calls {lexer left : Lexer} {tokens : List Token} (h : Pulls lexer tokens left) :
    Calls lexer tokens left := by
  induction h with
  | nil lexer => exact .nil lexer
  | cons first more ih => exact .token first ih

/-! ## Accounts, transition by transition -/

variable {lexer left : Lexer} {reading : Reading Error Unit}

theorem Reads.of_idle (running : lexer.ending = none) (h : Transition lexer (.ok none left))
    (more : Reads left reading) : Reads lexer reading := by
  have hnext := next_of_idle running h
  cases more with
  | ended last eof => exact .ended (hnext.trans last) eof
  | token first running more => exact .token (hnext.trans first) running more
  | failed failure => exact .failed (hnext.trans failure)

theorem Reads.of_token {token : Token} (running : lexer.ending = none)
    (h : Transition lexer (.ok (some token) left)) (eof : token.isEof = false)
    (more : Reads left reading) : Reads lexer (reading.preceded [token]) :=
  .token (next_of_token running h) eof more

theorem Reads.of_eof {token : Token} (running : lexer.ending = none)
    (h : Transition lexer (.ok (some token) left)) (eof : token.isEof = true) :
    Reads lexer ⟨[token], .ok ()⟩ :=
  .ended (next_of_token running h) eof

theorem Reads.of_error {cause : Error} (running : lexer.ending = none)
    (h : Transition lexer (.error cause left)) : Reads lexer ⟨[], .error cause⟩ :=
  .failed (next_of_error running h)

/-! ## What a pull keeps -/

/-- What a pull from an open stream keeps. -/
theorem Pull.keeps {token : Token} (h : Pull lexer (.ok token left))
    (increasing : lexer.levels.Increasing) :
    left.levels.Increasing ∧ (left.tokenLimit < lexer.tokenLimit ∨ token.isEof = true) := by
  revert increasing
  apply h.backwards
  · intro lexer last increasing
    exact ⟨increasing_of_transition increasing last, tokenLimit_lt_of_token increasing last⟩
  · intro lexer middle first ih increasing
    have hle := tokenLimit_le_of_idle first
    obtain ⟨hincreasing, hlimit⟩ := ih (increasing_of_transition increasing first)
    exact ⟨hincreasing, hlimit.imp_left (Nat.lt_of_lt_of_le · hle)⟩

theorem Pull.running {token : Token} (h : Pull lexer (.ok token left))
    (running : lexer.ending = none) (eof : token.isEof = false) : left.ending = none := by
  revert running
  apply h.backwards
  · intro lexer last running
    cases last with
    | finish mode ended opened => simp [mark, Token.isEof] at eof
    | _ => exact running
  · intro lexer middle first ih running
    exact ih ((ending_of_idle first).trans running)

/-- The token that ends the stream is kept. -/
theorem Pull.ended {token : Token} (h : Pull lexer (.ok token left)) (eof : token.isEof = true) :
    left.ending = some token := by
  apply h.backwards (P := fun _ => left.ending = some token)
  · intro lexer last
    cases last with
    | finish mode ended opened => rfl
    | lexeme mode content found read =>
        exact absurd eof (by simp [Lexeme.Shape.isEof_of_read read])
    | _ => simp [mark, Token.isEof] at eof
  · exact fun _ ih => ih

/-- Once the stream has ended, calls change nothing. -/
theorem Calls.eq_of_ended {tokens : List Token} {ending : Token} (h : Calls lexer tokens left)
    (ended : lexer.ending = some ending) : left = lexer := by
  induction h with
  | nil lexer => rfl
  | token first more ih =>
      obtain ⟨-, rfl⟩ := eq_of_next_of_ended ended first
      exact ih ended
  | failed first more ih => simp [next_of_ended ended] at first

/-- Where pulls end in an error, the tokens before it are the whole account. -/
theorem Reads.eq_of_failed {tokens : List Token} {final : Lexer} {cause : Error}
    (pulls : Pulls lexer tokens left) (h : Reads lexer reading) (running : lexer.ending = none)
    (failure : next left = .error cause final) : reading = ⟨tokens, .error cause⟩ := by
  induction pulls generalizing reading with
  | nil lexer =>
      cases h with
      | ended last eof => simp [last] at failure
      | token first eof more => simp [first] at failure
      | failed failure' =>
          obtain ⟨rfl, -⟩ := EStateM.Result.error.inj (failure'.symm.trans failure)
          rfl
  | @cons lexer middle left token tokens first more ih =>
      have pull := pull_next running
      rw [first] at pull
      cases h with
      | ended last eof =>
          obtain ⟨rfl, rfl⟩ := EStateM.Result.ok.inj (first.symm.trans last)
          have ended := pull.ended eof
          rw [more.calls.eq_of_ended ended, next_of_ended ended] at failure
          simp at failure
      | token first' eof more' =>
          obtain ⟨rfl, rfl⟩ := EStateM.Result.ok.inj (first.symm.trans first')
          rw [ih more' (pull.running running eof) failure]
          rfl
      | failed failure' => simp [first] at failure'

/-! ## Draining a lexer -/

theorem exists_of_outcome {α : Type} {action : Action α} {value : α}
    (h : outcome action lexer = .ok value) : ∃ left, action lexer = .ok value left := by
  unfold outcome at h
  split at h
  · next left heq =>
      obtain rfl := Except.ok.inj h
      exact ⟨left, heq⟩
  · simp at h

theorem leftBy_of_ok {α : Type} {action : Action α} {value : α}
    (h : action lexer = .ok value left) : leftBy action lexer = left := by
  simp only [leftBy, h]

theorem drainWithin_of_eof {token : Token} (h : next lexer = .ok token left)
    (eof : token.isEof = true) (limit : ℕ) : drainWithin (limit + 1) lexer = .ok [token] left := by
  rw [drainWithin, bind_ok h, if_pos eof]
  rfl

theorem drainWithin_of_error {cause : Error} (h : next lexer = .error cause left) (limit : ℕ) :
    drainWithin (limit + 1) lexer = .error cause left := by
  rw [drainWithin, bind_error h]

theorem drainWithin_of_token {token : Token} (h : next lexer = .ok token left)
    (eof : token.isEof = false) (limit : ℕ) :
    drainWithin (limit + 1) lexer =
      (do
        let tokens ← drainWithin limit
        return token :: tokens) left := by
  rw [drainWithin, bind_ok h, eof, if_neg Bool.false_ne_true]

/-- Draining gives what the account says. -/
theorem outcome_drainWithin (h : Reads lexer reading) (running : lexer.ending = none)
    (increasing : lexer.levels.Increasing) {limit : ℕ} (hlimit : lexer.tokenLimit ≤ limit) :
    outcome (drainWithin limit) lexer = reading.whole := by
  have hpositive : 0 < lexer.tokenLimit := Nat.succ_pos _
  induction h generalizing limit with
  | ended last eof =>
      obtain ⟨limit, rfl⟩ := Nat.exists_eq_succ_of_ne_zero (n := limit) (by omega)
      rw [outcome, drainWithin_of_eof last eof]
      rfl
  | @token lexer left token reading first eof more ih =>
      obtain ⟨limit, rfl⟩ := Nat.exists_eq_succ_of_ne_zero (n := limit) (by omega)
      have pull := pull_next running
      rw [first] at pull
      obtain ⟨hincreasing, hless⟩ := pull.keeps increasing
      have hless : left.tokenLimit < lexer.tokenLimit := by
        simpa [eof] using hless
      have hrest : outcome (drainWithin limit) left = reading.whole :=
        ih (pull.running running eof) hincreasing (by omega) (Nat.succ_pos _)
      rw [outcome, drainWithin_of_token first eof]
      unfold outcome at hrest
      cases hdrain : drainWithin limit left with
      | ok tokens final =>
          rw [hdrain] at hrest
          rw [bind_ok hdrain, Reading.whole_preceded, ← hrest]
          rfl
      | error cause final =>
          rw [hdrain] at hrest
          rw [bind_error hdrain, Reading.whole_preceded, ← hrest]
          rfl
  | failed failure =>
      obtain ⟨limit, rfl⟩ := Nat.exists_eq_succ_of_ne_zero (n := limit) (by omega)
      rw [outcome, drainWithin_of_error failure]
      rfl

/-- Draining pulls all tokens, of which the last one ends the stream. -/
theorem pulls_of_drainWithin {limit : ℕ} {tokens : List Token}
    (h : drainWithin limit lexer = .ok tokens left) : Pulls lexer tokens left := by
  induction limit generalizing lexer tokens with
  | zero => simp [drainWithin] at h
  | succ limit ih =>
      cases hnext : next lexer with
      | error cause middle => simp [drainWithin_of_error hnext] at h
      | ok token middle =>
          cases eof : token.isEof with
          | true =>
              rw [drainWithin_of_eof hnext eof] at h
              obtain ⟨rfl, rfl⟩ := EStateM.Result.ok.inj h
              exact .cons hnext (.nil middle)
          | false =>
              rw [drainWithin_of_token hnext eof] at h
              cases hdrain : drainWithin limit middle with
              | error cause final => simp [bind_error hdrain] at h
              | ok more final =>
                  rw [bind_ok hdrain] at h
                  obtain ⟨rfl, rfl⟩ := EStateM.Result.ok.inj h
                  exact .cons hnext (ih hdrain)

/-- So does taking a number of tokens. -/
theorem pulls_of_take {count : ℕ} {tokens : List Token} (h : take count lexer = .ok tokens left) :
    Pulls lexer tokens left := by
  induction count generalizing lexer tokens with
  | zero =>
      obtain ⟨rfl, rfl⟩ := EStateM.Result.ok.inj h
      exact .nil _
  | succ count ih =>
      cases hnext : next lexer with
      | error cause middle =>
          rw [take, bind_error hnext] at h
          simp at h
      | ok token middle =>
          rw [take, bind_ok hnext] at h
          split at h
          · obtain ⟨rfl, rfl⟩ := EStateM.Result.ok.inj h
            exact .cons hnext (.nil _)
          · cases hmore : take count middle with
            | error cause final => simp [bind_error hmore] at h
            | ok more final =>
                rw [bind_ok hmore] at h
                obtain ⟨rfl, rfl⟩ := EStateM.Result.ok.inj h
                exact .cons hnext (ih hmore)

theorem exists_pulls_of_outcome {count : ℕ} {tokens : List Token}
    (h : outcome (take count) lexer = .ok tokens) :
    ∃ left, Pulls lexer tokens left ∧ leftBy (take count) lexer = left := by
  obtain ⟨left, taken⟩ := exists_of_outcome h
  exact ⟨left, pulls_of_take taken, leftBy_of_ok taken⟩

/-- The tokens of a text are pulled from its lexer. -/
theorem exists_pulls_of_tokenize {settings : Settings} {source : Source} {tokens : List Token}
    (h : tokenize settings source = .ok tokens) :
    ∃ left, Pulls (start settings source) tokens left := by
  obtain ⟨left, hdrain⟩ := exists_of_outcome h
  exact ⟨left, pulls_of_drainWithin hdrain⟩

theorem tokenize_eq_whole {settings : Settings} {source : Source}
    (h : Reads (start settings source) reading) : tokenize settings source = reading.whole := by
  rw [tokenize, ← outcome_drainWithin h rfl Levels.increasing_initial (Nat.le_refl _)]
  rfl

end Offside.Lexer
