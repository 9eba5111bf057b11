import Mathlib
import Offside.Cursor.Ahead
import Offside.Cursor.Command
import Offside.Proofs.Action
import Offside.Proofs.Position.Order
import Offside.Proofs.Slices

/-!
# Cursors under commands

Whatever is asked of a cursor, it keeps in step with its text: it stands where reading the text up
to its offset leads, and the undo slot is empty or holds the place one character before that
(`InStep`).  The slot is filled exactly while something has been read that no command took back
since (`Command.readSince` counts it), which decides how the next `unconsume` ends.  `Moves` says
what each kind of command does from there.

## Strategy

A command takes a character back, or it moves the cursor ahead, by no character at all if it only
looks or fails (`Command.left_exec`).  So there are two ways to go on, and both lead to cursors in
step: `InStep.ahead` follows the characters read one by one, and a place of the text is in step with
nothing to undo (`inStep_ofPlace`).  `Tracks` adds the count to the invariant; one command keeps it
(`Tracks.exec`), and so does any sequence of them (`tracks_leftByAll`).
-/

namespace Offside.Cursor

open Offside.Action

variable {width : Int} {text : List Char} {cursor : Cursor} {count : ℕ}

/-! ## In step with a text -/

/-- The place behind the first `offset` characters of a text. -/
def placeAt (width : Int) (text : List Char) (offset : ℕ) : Place :=
  ⟨(text.take offset).reverse, text.drop offset, Position.start.after width (text.take offset)⟩

/-- A cursor over `text` that stands where its offset says, and can go back by one character if at
all. -/
structure InStep (width : Int) (text : List Char) (cursor : Cursor) : Prop where
  inside : cursor.offset ≤ text.length
  place : cursor.place = placeAt width text cursor.offset
  undo : cursor.undo = none ∨
    0 < cursor.offset ∧ cursor.undo = some (placeAt width text (cursor.offset - 1))

theorem offset_ofPlace {offset : ℕ} (inside : offset ≤ text.length) :
    (ofPlace (placeAt width text offset)).offset = offset := by
  rw [Cursor.offset, ofPlace, placeAt, List.length_reverse, List.length_take]
  exact Nat.min_eq_left inside

theorem inStep_ofPlace {offset : ℕ} (inside : offset ≤ text.length) :
    InStep width text (ofPlace (placeAt width text offset)) where
  inside := by rwa [offset_ofPlace inside]
  place := by
    rw [offset_ofPlace inside]
    rfl
  undo := Or.inl rfl

theorem inStep_start (width : Int) (text : List Char) : InStep width text (start text) :=
  inStep_ofPlace (Nat.zero_le text.length)

namespace InStep

theorem rest_eq (h : InStep width text cursor) : cursor.rest = text.drop cursor.offset :=
  congrArg Place.rest h.place

theorem position_eq (h : InStep width text cursor) :
    cursor.position = Position.start.after width (text.take cursor.offset) :=
  congrArg Place.position h.place

/-- Reading a character leads to the next place, and the slot holds the one before. -/
theorem past (h : InStep width text cursor) {c : Char} {rest : List Char}
    (hrest : cursor.rest = c :: rest) : InStep width text (cursor.past width c rest) := by
  have hdrop : text.drop cursor.offset = c :: rest := h.rest_eq.symm.trans hrest
  have htake : text.take (cursor.offset + 1) = text.take cursor.offset ++ [c] := by
    rw [List.take_add, hdrop]
    rfl
  refine ⟨?_, ?_, Or.inr ⟨Nat.succ_pos _, congrArg some h.place⟩⟩
  · have hlength := congrArg List.length hdrop
    rw [List.length_drop, List.length_cons] at hlength
    change cursor.offset + 1 ≤ text.length
    omega
  · have hbefore : cursor.before = (text.take cursor.offset).reverse :=
      congrArg Place.before h.place
    change (⟨c :: cursor.before, rest, cursor.position.moved width (.ofChar c)⟩ : Place) =
      placeAt width text (cursor.offset + 1)
    rw [placeAt, htake, ← List.drop_drop, hdrop, List.reverse_append, ← hbefore,
      Position.after_append, ← h.position_eq]
    rfl

theorem ahead (h : InStep width text cursor) (count : ℕ) :
    InStep width text (cursor.ahead width count) := by
  induction count generalizing cursor with
  | zero => exact h
  | succ count ih =>
      cases hrest : cursor.rest with
      | nil => simpa [Cursor.ahead, hrest] using h
      | cons c rest => simpa [Cursor.ahead, hrest] using ih (h.past hrest)

/-- Going back leads to the place one character before. -/
theorem unconsume (h : InStep width text cursor) {place : Place}
    (saved : cursor.undo = some place) : 0 < cursor.offset ∧
      Cursor.unconsume cursor = .ok () (ofPlace (placeAt width text (cursor.offset - 1))) := by
  rcases h.undo with empty | ⟨positive, filled⟩
  · exact absurd (saved.symm.trans empty) (by simp)
  · exact ⟨positive, by simp only [Cursor.unconsume, filled]⟩

end InStep

theorem unconsume_of_empty (empty : cursor.undo = none) :
    unconsume cursor = .error .nothingToUndo cursor := by
  simp only [unconsume, empty]

/-- The slot is filled by reading, and stays filled. -/
theorem undo_ahead_ne_none (width : Int) (count : ℕ) (cursor : Cursor) :
    (cursor.ahead width count).undo ≠ none ↔
      cursor.undo ≠ none ∨ cursor.offset < (cursor.ahead width count).offset := by
  induction count generalizing cursor with
  | zero => simp [ahead]
  | succ count ih =>
      cases hrest : cursor.rest with
      | nil => simp [ahead, hrest]
      | cons c rest =>
          have hpast : (cursor.past width c rest).undo ≠ none := by simp [past, step]
          have hoffset := offset_ahead width count (cursor.past width c rest)
          have hnext : (cursor.past width c rest).offset = cursor.offset + 1 := rfl
          simp only [ahead, hrest]
          -- The first character fills the slot, so both sides hold.
          constructor
          · intro _
            right
            omega
          · intro _
            exact (ih _).mpr (Or.inl hpast)

/-! ## One command -/

namespace Command

/-- The commands that only look. -/
def IsLook : Command → Prop
  | .peek _ | .atEnd | .runEnd _ _ => True
  | .advance | .advanceTo _ | .unconsume => False

/-- How far a command reads, as far as there is text. -/
def distance (cursor : Cursor) : Command → ℕ
  | .advance => 1
  | .advanceTo stop => (stop - cursor.offset).toNat
  | .peek _ | .atEnd | .runEnd _ _ | .unconsume => 0

/-- How many characters have been read since one was taken back, after one more command. -/
def tally (width : Int) (cursor : Cursor) (count : ℕ) (command : Command) : ℕ :=
  match command, command.exec width cursor with
  | .unconsume, .ok _ _ => 0
  | _, result => count + ((left result).offset - cursor.offset)

/-- How many characters have been read since one was taken back, or since the beginning, after a
sequence of commands, if it was `count` before them. -/
def readSince (width : Int) (cursor : Cursor) (count : ℕ) : List Command → ℕ
  | [] => count
  | command :: commands =>
    readSince width (left (command.exec width cursor)) (command.tally width cursor count) commands

variable {command : Command}

/-- Reading a number of characters leads ahead, whether or not there are as many. -/
theorem left_advanceBy (nonzero : width ≠ 0) (count : ℕ) (cursor : Cursor) :
    left (advanceBy width count cursor) = cursor.ahead width count := by
  by_cases inside : count ≤ cursor.rest.length
  · rw [advanceBy_eq nonzero inside]
    rfl
  · rw [advanceBy_of_short nonzero (Nat.lt_of_not_le inside)]
    rfl

/-- What is done with the value of an action does not move the cursor. -/
theorem left_map {α β : Type} (f : α → β) (action : Action α) (cursor : Cursor) :
    left ((f <$> action) cursor) = left (action cursor) := by
  simp only [Functor.map, EStateM.map]
  cases action cursor <;> rfl

/-- Every command but one moves the cursor ahead. -/
theorem left_exec (nonzero : width ≠ 0) (forward : command ≠ .unconsume) (cursor : Cursor) :
    left (command.exec width cursor) = cursor.ahead width (command.distance cursor) := by
  cases command with
  | peek shift =>
      rw [exec, bind_get]
      cases cursor.peekAt shift <;> rfl
  | advance =>
      rw [exec, bind_ok (advance_eq nonzero cursor)]
      rfl
  | advanceTo stop => exact (left_map _ _ cursor).trans (left_advanceBy nonzero _ cursor)
  | unconsume => exact absurd rfl forward
  | atEnd => rfl
  | runEnd members first =>
      rw [exec, bind_get]
      cases cursor.runEndFrom (members.contains ·) (first.getD cursor.offset) <;> rfl

theorem distance_of_isLook (look : command.IsLook) (cursor : Cursor) :
    command.distance cursor = 0 := by
  cases command with
  | advance | advanceTo | unconsume => exact absurd look id
  | peek | atEnd | runEnd => rfl

theorem tally_of_forward (forward : command ≠ .unconsume) (width : Int) (cursor : Cursor)
    (count : ℕ) : command.tally width cursor count =
      count + ((left (command.exec width cursor)).offset - cursor.offset) := by
  cases command with
  | unconsume => exact absurd rfl forward
  | _ => rfl

end Command

/-! ## Sequences of commands -/

/-- A cursor in step with its text, of which `count` characters have been read since one was taken
back. -/
structure Tracks (width : Int) (text : List Char) (count : ℕ) (cursor : Cursor) : Prop where
  inStep : InStep width text cursor
  filled : cursor.undo ≠ none ↔ 0 < count

/-- One command keeps a cursor in step and the count right. -/
theorem Tracks.exec (nonzero : width ≠ 0) (h : Tracks width text count cursor)
    (command : Command) : Tracks width text (command.tally width cursor count)
      (left (command.exec width cursor)) := by
  by_cases forward : command = .unconsume
  · subst forward
    -- Going back empties the slot if it succeeds, and changes nothing if it fails.
    cases saved : cursor.undo with
    | none =>
        have hexec : Command.unconsume.exec width cursor = .error .nothingToUndo cursor :=
          bind_error (unconsume_of_empty saved) _
        simpa [Command.tally, hexec, left] using h
    | some place =>
        obtain ⟨positive, hback⟩ := h.inStep.unconsume saved
        have hexec : Command.unconsume.exec width cursor =
            .ok .done (ofPlace (placeAt width text (cursor.offset - 1))) := bind_ok hback _
        have inside := h.inStep.inside
        simp only [Command.tally, hexec, left]
        exact ⟨inStep_ofPlace (by omega), by simp [ofPlace]⟩
  · rw [Command.tally_of_forward forward, Command.left_exec nonzero forward]
    refine ⟨h.inStep.ahead _, ?_⟩
    rw [undo_ahead_ne_none, h.filled]
    -- The count grows by what the offset grows by.
    omega

/-- Any sequence of commands does. -/
theorem tracks_leftByAll (nonzero : width ≠ 0) (commands : List Command)
    (h : Tracks width text count cursor) :
    Tracks width text (Command.readSince width cursor count commands)
      (Command.leftByAll width cursor commands) := by
  induction commands generalizing cursor count with
  | nil => exact h
  | cons command commands ih => exact ih (h.exec nonzero command)

/-! ## What a cursor does next -/

/-- How a cursor over `text` moves, of which `count` characters have been read since one was taken
back. -/
structure Moves (width : Int) (text : List Char) (count : ℕ) (cursor : Cursor) : Prop where
  /-- Looking changes nothing, be it successful or not. -/
  look : ∀ command : Command, command.IsLook → left (command.exec width cursor) = cursor
  /-- Reading gives the next character and leads behind it. -/
  advance : ∀ c, text[cursor.offset]? = some c → ∃ next,
    Cursor.advance width cursor = .ok (some c) next ∧ next.offset = cursor.offset + 1 ∧
      InStep width text next
  /-- At the end of the text there is nothing to read, and nothing changes. -/
  stay : cursor.offset = text.length → Cursor.advance width cursor = .ok none cursor
  /-- Reading up to an offset gives what stands in between, and leads there unless it is behind. -/
  advanceTo : ∀ stop : ℤ, stop ≤ text.length → ∃ next : Cursor,
    Cursor.advanceTo width stop cursor = .ok (slice text cursor.offset next.offset) next ∧
      (next.offset : ℤ) = max (cursor.offset : ℤ) stop ∧ InStep width text next
  /-- Going back succeeds if something was read that was not taken back since. -/
  undoable : (∃ back, unconsume cursor = .ok () back) ↔ 0 < count
  /-- It leads to the place one character before, and from there not further back. -/
  goBack : ∀ back, unconsume cursor = .ok () back →
    back.offset + 1 = cursor.offset ∧ back.undo = none ∧ InStep width text back
  /-- Otherwise it fails, and nothing changes. -/
  refuse : ¬ 0 < count → unconsume cursor = .error .nothingToUndo cursor

theorem Tracks.moves (nonzero : width ≠ 0) (h : Tracks width text count cursor) :
    Moves width text count cursor where
  look command look := by
    have forward : command ≠ .unconsume := by
      rintro rfl
      exact look
    rw [Command.left_exec nonzero forward, Command.distance_of_isLook look, ahead]
  advance c hc := by
    have hhead : cursor.rest.head? = some c := by
      rw [h.inStep.rest_eq, List.head?_drop, hc]
    obtain ⟨rest, hrest⟩ := List.head?_eq_some_iff.mp hhead
    exact ⟨_, advance_cons nonzero hrest, rfl, h.inStep.past hrest⟩
  stay ended := by
    apply advance_nil
    rw [h.inStep.rest_eq, ended, List.drop_length]
  advanceTo stop inside := by
    have hlength : cursor.rest.length = text.length - cursor.offset := by
      rw [h.inStep.rest_eq, List.length_drop]
    have hoffset := h.inStep.inside
    refine ⟨_, ?_, ?_, h.inStep.ahead (stop - cursor.offset).toNat⟩
    · rw [advanceTo_eq nonzero (by omega), offset_ahead, slice, List.drop_take, h.inStep.rest_eq]
      congr 1
      rw [Nat.add_sub_cancel_left, List.take_eq_take_iff]
      omega
    · rw [offset_ahead]
      omega
  undoable := by
    rw [← h.filled]
    constructor
    · rintro ⟨back, hback⟩ empty
      simp [unconsume_of_empty empty] at hback
    · intro filled
      obtain ⟨place, saved⟩ := Option.ne_none_iff_exists'.mp filled
      exact ⟨_, (h.inStep.unconsume saved).2⟩
  goBack back hback := by
    cases saved : cursor.undo with
    | none => simp [unconsume_of_empty saved] at hback
    | some place =>
        obtain ⟨positive, hplace⟩ := h.inStep.unconsume saved
        obtain ⟨-, rfl⟩ := EStateM.Result.ok.inj (hplace.symm.trans hback)
        have inside : cursor.offset - 1 ≤ text.length := by
          have := h.inStep.inside
          omega
        refine ⟨?_, rfl, inStep_ofPlace inside⟩
        rw [offset_ofPlace inside]
        omega
  refuse hcount := unconsume_of_empty (not_ne_iff.mp (h.filled.not.mpr hcount))

/-- After any sequence of commands a cursor is in step with its text, and moves accordingly. -/
theorem moves_of_commands {width : Int} (positive : 1 ≤ width) (text : List Char)
    (commands : List Command) :
    let cursor := Command.leftByAll width (start text) commands
    InStep width text cursor ∧
      (cursor.position.line = 1 + (text.take cursor.offset).count '\n' ∧
        1 ≤ cursor.position.column) ∧
      Moves width text (Command.readSince width (start text) 0 commands) cursor := by
  intro cursor
  have nonzero : width ≠ 0 := by omega
  have fresh : Tracks width text 0 (start text) := ⟨inStep_start width text, by simp [start]⟩
  have tracks := tracks_leftByAll nonzero commands fresh
  have first : Position.start.IsWithin 1 := ⟨by decide, by decide⟩
  have within := first.after (Int.lt_of_lt_of_le Int.zero_lt_one positive) (text.take cursor.offset)
  refine ⟨tracks.inStep, ⟨?_, ?_⟩, tracks.moves nonzero⟩
  · rw [tracks.inStep.position_eq, Position.line_after]
    rfl
  · rw [tracks.inStep.position_eq]
    exact within.column.1

/-- Back over a line feed, once, and forward again to the end of the text and no further. -/
theorem moves_of_commands_at_end :
    let text := ['a', '\t', 'b', '\n']
    let commands : List Command :=
      [.unconsume, .advanceTo 4, .unconsume, .unconsume, .peek (-9), .advance, .advance]
    let cursor : Cursor :=
      ⟨['\n', 'b', '\t', 'a'], [], ⟨2, 1⟩, some ⟨['b', '\t', 'a'], ['\n'], ⟨1, 6⟩⟩⟩
    (1 : Int) ≤ 4 ∧ Command.leftByAll 4 (start text) commands = cursor ∧
      InStep 4 text cursor ∧ (cursor.position.line = 2 ∧ 1 ≤ cursor.position.column) ∧
        Moves 4 text 1 cursor := by
  intro text commands cursor
  have reached : Command.leftByAll 4 (start text) commands = cursor := by decide +kernel
  have count : Command.readSince 4 (start text) 0 commands = 1 := by decide +kernel
  have h := moves_of_commands (by decide : (1 : Int) ≤ 4) text commands
  rw [reached, count] at h
  exact ⟨by decide, reached, h⟩

end Offside.Cursor
