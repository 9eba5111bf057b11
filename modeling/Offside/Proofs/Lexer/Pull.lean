import Offside.Lexer.Stream
import Offside.Proofs.Indentation.Levels
import Offside.Proofs.Lexer.Transition

/-!
# Pulls

A pull takes steps until one of them gives a token.  The steps are counted so that pulls are total,
and the first half of this file shows that the count never runs out: a step without a token uses up
`idleness`, and steps beyond those needed are inert.  So a pull is a sequence of idle transitions
and one that gives a token or fails (`Pull`), and `pull_next` and `next_eq_of_pull` say that `next`
is that relation.

A token other than the last uses up `tokenLimit`, which does for streams of tokens what `idleness`
does for pulls (`tokenLimit_lt`).  This needs the open blocks to be increasing: only then does a
line that opens a block have blanks to read.
-/

namespace Offside.Lexer

open Offside.Action Lexeme Lines

/-! ## Idle steps come to an end -/

/-- How many moves towards the inside of a line are left. -/
def distance : Mode → ℕ
  | .lineStart => 2
  | .dedent => 1
  | .inLine => 0

/-- A bound on the steps without a token that are still to come. -/
def idleness (lexer : Lexer) : ℕ := lexer.cursor.rest.length + distance lexer.mode

@[simp] theorem rest_entering (lexer : Lexer) (mode : Mode) :
    (lexer.entering mode).cursor.rest = lexer.cursor.rest := rfl

@[simp] theorem mode_entering (lexer : Lexer) (mode : Mode) :
    (lexer.entering mode).mode = mode := rfl

@[simp] theorem mode_ahead (lexer : Lexer) (count : ℕ) :
    (lexer.ahead count).mode = lexer.mode := rfl

/-- A step without a token leaves the stream open and uses up idleness. -/
theorem idleness_lt {lexer left : Lexer} (h : Transition lexer (.ok none left)) :
    left.idleness < lexer.idleness := by
  cases h with
  | blankLine mode split blank =>
      simp only [idleness, rest_ahead, mode_ahead, split, List.length_drop, List.length_append,
        List.length_cons]
      omega
  | lastBlankLine mode nonempty blank =>
      have := List.length_pos_iff.mpr nonempty
      simp only [idleness, rest_ahead, mode_ahead, List.length_drop]
      omega
  | sameLevel mode indented content level =>
      simp only [idleness, rest_entering, rest_ahead, mode_entering, mode, distance,
        List.length_drop]
      omega
  | pend mode indented content reaches shallower =>
      simp [idleness, mode, distance]
  | resolved mode indented level =>
      simp only [idleness, rest_entering, rest_ahead, mode_entering, mode, distance,
        List.length_drop]
      omega
  | blanks mode kept nonempty =>
      have := List.length_pos_iff.mpr nonempty
      have hle := (kept ▸ Cursor.keptRun_prefix isInnerBlank lexer.cursor.rest).length_le
      simp [idleness, Cursor.rest_ahead]
      omega
  | openComment mode split closed =>
      simp [idleness, split]

theorem ending_of_idle {lexer left : Lexer} (h : Transition lexer (.ok none left)) :
    left.ending = lexer.ending := by
  cases h <;> rfl

/-! ## Steps beyond those needed are inert -/

theorem searchWithin_of_idle {lexer left : Lexer} (h : step lexer = .ok none left) (limit : ℕ) :
    searchWithin (limit + 1) lexer = searchWithin limit left := by
  rw [searchWithin, bind_ok h]

theorem searchWithin_of_token {lexer left : Lexer} {token : Token}
    (h : step lexer = .ok (some token) left) (limit : ℕ) :
    searchWithin (limit + 1) lexer = .ok token left := by
  rw [searchWithin, bind_ok h]
  rfl

theorem searchWithin_of_error {lexer left : Lexer} {cause : Error}
    (h : step lexer = .error cause left) (limit : ℕ) :
    searchWithin (limit + 1) lexer = .error cause left := by
  rw [searchWithin, bind_error h]

/-- Any two limits that both suffice find the same token. -/
theorem searchWithin_eq_of_le {limit larger : ℕ} (hle : limit ≤ larger) {lexer : Lexer}
    (hlimit : lexer.idleness < limit) : searchWithin larger lexer = searchWithin limit lexer := by
  induction limit generalizing larger lexer with
  | zero => exact absurd hlimit (Nat.not_lt_zero _)
  | succ limit ih =>
      obtain ⟨larger, rfl⟩ : ∃ smaller, larger = smaller + 1 := ⟨larger - 1, by omega⟩
      have transition := transition_step lexer
      cases hstep : step lexer with
      | ok found left =>
          cases found with
          | none =>
              rw [hstep] at transition
              have hidle := idleness_lt transition
              rw [searchWithin_of_idle hstep, searchWithin_of_idle hstep]
              exact ih (by omega) (by omega)
          | some token => rw [searchWithin_of_token hstep, searchWithin_of_token hstep]
      | error cause left => rw [searchWithin_of_error hstep, searchWithin_of_error hstep]

theorem searchAlong_eq (upcoming : List Char) :
    searchAlong upcoming = searchWithin (upcoming.length + 3) := by
  induction upcoming with
  | nil => rfl
  | cons c upcoming ih =>
      rw [searchAlong, ih, List.length_cons, Nat.add_right_comm]
      rfl

theorem idleness_lt_limit (lexer : Lexer) : lexer.idleness < lexer.cursor.rest.length + 3 := by
  unfold idleness distance
  split <;> omega

theorem next_eq_searchWithin {lexer : Lexer} (running : lexer.ending = none) {limit : ℕ}
    (hlimit : lexer.idleness < limit) : next lexer = searchWithin limit lexer := by
  rw [next, bind_get]
  simp only [running, searchAlong_eq]
  rcases Nat.le_total limit (lexer.cursor.rest.length + 3) with hle | hle
  · exact searchWithin_eq_of_le hle hlimit
  · exact (searchWithin_eq_of_le hle lexer.idleness_lt_limit).symm

/-! ## A pull as a sequence of transitions -/

/-- Idle transitions, and then one that gives a token or fails. -/
inductive Pull : Lexer → EStateM.Result Error Lexer Token → Prop
  | token {lexer left : Lexer} {token : Token} (last : Transition lexer (.ok (some token) left)) :
      Pull lexer (.ok token left)
  | failed {lexer left : Lexer} {cause : Error} (last : Transition lexer (.error cause left)) :
      Pull lexer (.error cause left)
  | idle {lexer middle : Lexer} {result : EStateM.Result Error Lexer Token}
      (first : Transition lexer (.ok none middle)) (more : Pull middle result) : Pull lexer result

/-- What holds before the step that gives the token, and before an idle step if it does behind it,
holds before the pull. -/
theorem Pull.backwards {lexer left : Lexer} {token : Token} {P : Lexer → Prop}
    (h : Pull lexer (.ok token left))
    (last : ∀ {lexer}, Transition lexer (.ok (some token) left) → P lexer)
    (idle : ∀ {lexer middle}, Transition lexer (.ok none middle) → P middle → P lexer) :
    P lexer := by
  generalize hresult : EStateM.Result.ok token left = result at h
  induction h with
  | token given =>
      obtain ⟨rfl, rfl⟩ := EStateM.Result.ok.inj hresult
      exact last given
  | failed failure => simp at hresult
  | idle first more ih => exact idle first (ih hresult)

theorem next_of_idle {lexer left : Lexer} (running : lexer.ending = none)
    (h : Transition lexer (.ok none left)) : next lexer = next left := by
  have hidle := idleness_lt h
  rw [next_eq_searchWithin running (Nat.lt_succ_self _),
    next_eq_searchWithin ((ending_of_idle h).trans running) hidle,
    searchWithin_of_idle (step_eq_of_transition h)]

theorem next_of_token {lexer left : Lexer} {token : Token} (running : lexer.ending = none)
    (h : Transition lexer (.ok (some token) left)) : next lexer = .ok token left := by
  rw [next_eq_searchWithin running (Nat.lt_succ_self _),
    searchWithin_of_token (step_eq_of_transition h)]

theorem next_of_error {lexer left : Lexer} {cause : Error} (running : lexer.ending = none)
    (h : Transition lexer (.error cause left)) : next lexer = .error cause left := by
  rw [next_eq_searchWithin running (Nat.lt_succ_self _),
    searchWithin_of_error (step_eq_of_transition h)]

/-- A pull does what its transitions say. -/
theorem next_eq_of_pull {lexer : Lexer} {result : EStateM.Result Error Lexer Token}
    (h : Pull lexer result) (running : lexer.ending = none) : next lexer = result := by
  induction h with
  | token last => exact next_of_token running last
  | failed last => exact next_of_error running last
  | idle first more ih =>
      rw [next_of_idle running first]
      exact ih ((ending_of_idle first).trans running)

theorem exists_pull (lexer : Lexer) : ∃ result, Pull lexer result := by
  induction hidle : lexer.idleness using Nat.strong_induction_on generalizing lexer with
  | h idle ih =>
      have transition := transition_step lexer
      cases hstep : step lexer with
      | ok found left =>
          rw [hstep] at transition
          cases found with
          | none =>
              obtain ⟨result, more⟩ := ih left.idleness (hidle ▸ idleness_lt transition) left rfl
              exact ⟨result, .idle transition more⟩
          | some token => exact ⟨_, .token transition⟩
      | error cause left =>
          rw [hstep] at transition
          exact ⟨_, .failed transition⟩

/-- Every pull from an open stream is a sequence of transitions. -/
theorem pull_next {lexer : Lexer} (running : lexer.ending = none) : Pull lexer (next lexer) := by
  obtain ⟨result, h⟩ := exists_pull lexer
  exact (next_eq_of_pull h running).symm ▸ h

/-- Once the stream has ended, pulls give its last token and change nothing. -/
theorem next_of_ended {lexer : Lexer} {ending : Token} (ended : lexer.ending = some ending) :
    next lexer = .ok ending lexer := by
  rw [next, bind_get]
  simp only [ended]
  rfl

theorem eq_of_next_of_ended {lexer left : Lexer} {ending token : Token}
    (ended : lexer.ending = some ending) (h : next lexer = .ok token left) :
    ending = token ∧ lexer = left :=
  EStateM.Result.ok.inj ((next_of_ended ended).symm.trans h)

/-! ## Streams come to an end -/

theorem ne_nil_of_deeper {lexer : Lexer} {run : List Char} {level : Int}
    (increasing : lexer.levels.Increasing) (reaches : lexer.Reaches run level)
    (deeper : lexer.levels.top < level) : run ≠ [] := by
  rintro rfl
  have hlevel : level = 1 := (Except.ok.inj reaches).symm
  have hbase := increasing.base_le_top
  simp only [Levels.base] at hbase
  omega

/-- Every token ends the stream or uses up the limit. -/
theorem tokenLimit_lt_of_token {lexer left : Lexer} {token : Token}
    (increasing : lexer.levels.Increasing) (h : Transition lexer (.ok (some token) left)) :
    left.tokenLimit < lexer.tokenLimit ∨ token.isEof := by
  cases h with
  | closeAtEnd mode ended opened =>
      left
      simp [tokenLimit, Levels.depth, opened, within, noting]
  | finish mode ended opened => exact Or.inr rfl
  | indent mode indented content reaches deeper =>
      left
      have := List.length_pos_iff.mpr (ne_nil_of_deeper increasing reaches deeper)
      simp [tokenLimit, Levels.depth, indented.split, within, noting, entering]
      omega
  | dedent mode indented reaches opened shallower =>
      left
      simp [tokenLimit, Levels.depth, opened, within, noting]
  | newline mode ends =>
      left
      simp [tokenLimit, Levels.depth, ends.split, entering, ahead, Cursor.rest_ahead]
      omega
  | lexeme mode content found read =>
      left
      have longest := isLongest_of_longest? found
      have := List.length_pos_iff.mpr (Shape.text_ne_nil longest.valid)
      have hle := longest.prefixed.length_le
      simp [tokenLimit, Levels.depth]
      omega

theorem tokenLimit_le_of_idle {lexer left : Lexer} (h : Transition lexer (.ok none left)) :
    left.tokenLimit ≤ lexer.tokenLimit := by
  have hlevels : left.levels = lexer.levels := by cases h <;> rfl
  have hrest : left.cursor.rest.length ≤ lexer.cursor.rest.length := by
    cases h <;> simp [ahead, entering, Cursor.rest_ahead]
  rw [tokenLimit, tokenLimit, hlevels]
  omega

/-! ## What transitions keep -/

theorem increasing_of_transition {lexer left : Lexer} {found : Option Token}
    (increasing : lexer.levels.Increasing) (h : Transition lexer (.ok found left)) :
    left.levels.Increasing := by
  cases h with
  | closeAtEnd mode ended opened =>
      exact increasing.close opened
  | indent mode indented content reaches deeper => exact increasing.open deeper
  | dedent mode indented reaches opened shallower =>
      exact increasing.close opened
  | _ => exact increasing

end Offside.Lexer
