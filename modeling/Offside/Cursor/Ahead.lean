import Offside.Cursor.Basic

/-!
# Moves that cannot fail

With a tab width that has stops, reading characters that are there always succeeds.  `Cursor.ahead`
is the cursor that such a move leads to, and `advanceBy_eq` says that reading leads there; where the
text is too short, the read fails at its end (`advanceBy_of_short`).  The lemmas after them describe
that cursor by what was read: the text moves from one side of the cursor to the other, and the
position follows it.
-/

namespace Offside.Cursor

/-- The cursor `count` characters on, or at the end of the text if that is nearer, for a tab width
that has stops. -/
def ahead (width : Int) : Nat → Cursor → Cursor
  | 0, cursor => cursor
  | count + 1, cursor =>
    match cursor.rest with
    | [] => cursor
    | c :: rest => ahead width count (cursor.past width c rest)

theorem advanceBy_succ_nil {width : Int} {count : Nat} {cursor : Cursor}
    (h : cursor.rest = []) : advanceBy width (count + 1) cursor = .error .endless cursor := by
  simp only [advanceBy, bind, EStateM.bind, advance_nil h]
  rfl

theorem advanceBy_succ_cons {width : Int} (nonzero : width ≠ 0) {count : Nat} {cursor : Cursor}
    {c : Char} {rest : List Char} (h : cursor.rest = c :: rest) :
    advanceBy width (count + 1) cursor =
      match advanceBy width count (cursor.past width c rest) with
      | .ok text left => .ok (c :: text) left
      | .error cause left => .error cause left := by
  simp only [advanceBy, bind, EStateM.bind, advance_cons nonzero h]
  cases advanceBy width count (cursor.past width c rest) <;> rfl

/-- Reading `count` characters that are there gives just those characters and leads ahead by as
many. -/
theorem advanceBy_eq {width : Int} (nonzero : width ≠ 0) {count : Nat} {cursor : Cursor}
    (inside : count ≤ cursor.rest.length) :
    advanceBy width count cursor = .ok (cursor.rest.take count) (cursor.ahead width count) := by
  induction count generalizing cursor with
  | zero => rfl
  | succ count ih =>
    cases h : cursor.rest with
    | nil => simp [h] at inside
    | cons c rest =>
      have hrest : count ≤ (cursor.past width c rest).rest.length := by
        simpa [h, past, step] using inside
      rw [advanceBy_succ_cons nonzero h, ih hrest]
      simp [ahead, h, past, step]

/-- Reading more characters than there are fails at the end of the text. -/
theorem advanceBy_of_short {width : Int} (nonzero : width ≠ 0) {count : Nat} {cursor : Cursor}
    (short : cursor.rest.length < count) :
    advanceBy width count cursor = .error .endless (cursor.ahead width count) := by
  induction count generalizing cursor with
  | zero => simp at short
  | succ count ih =>
    cases h : cursor.rest with
    | nil => rw [advanceBy_succ_nil h]; simp [ahead, h]
    | cons c rest =>
      have hrest : (cursor.past width c rest).rest.length < count := by
        simpa [h, past, step] using short
      rw [advanceBy_succ_cons nonzero h, ih hrest]
      simp [ahead, h]

theorem advance_eq {width : Int} (nonzero : width ≠ 0) (cursor : Cursor) :
    advance width cursor = .ok cursor.rest.head? (cursor.ahead width 1) := by
  cases h : cursor.rest with
  | nil => rw [advance_nil h]; simp [ahead, h]
  | cons c rest => rw [advance_cons nonzero h]; simp [ahead, h]

/-- Reading up to an offset in the text leads ahead by what is missing to it. -/
theorem advanceTo_eq {width : Int} (nonzero : width ≠ 0) {stop : Int} {cursor : Cursor}
    (inside : (stop - cursor.offset).toNat ≤ cursor.rest.length) :
    advanceTo width stop cursor = .ok (cursor.rest.take (stop - cursor.offset).toNat)
      (cursor.ahead width (stop - cursor.offset).toNat) :=
  advanceBy_eq nonzero inside

theorem rest_ahead (width : Int) (count : Nat) (cursor : Cursor) :
    (cursor.ahead width count).rest = cursor.rest.drop count := by
  induction count generalizing cursor with
  | zero => rfl
  | succ count ih =>
    cases h : cursor.rest with
    | nil => simp [ahead, h]
    | cons c rest => simp [ahead, h, ih, past, step]

theorem before_ahead (width : Int) (count : Nat) (cursor : Cursor) :
    (cursor.ahead width count).before = (cursor.rest.take count).reverse ++ cursor.before := by
  induction count generalizing cursor with
  | zero => rfl
  | succ count ih =>
    cases h : cursor.rest with
    | nil => simp [ahead, h]
    | cons c rest => simp [ahead, h, ih, past, step]

theorem position_ahead (width : Int) (count : Nat) (cursor : Cursor) :
    (cursor.ahead width count).position =
      cursor.position.after width (cursor.rest.take count) := by
  induction count generalizing cursor with
  | zero => rfl
  | succ count ih =>
    cases h : cursor.rest with
    | nil => simp [ahead, h]
    | cons c rest => simp [ahead, h, ih, past, step]

theorem offset_ahead (width : Int) (count : Nat) (cursor : Cursor) :
    (cursor.ahead width count).offset = cursor.offset + min count cursor.rest.length := by
  rw [offset, before_ahead, List.length_append, List.length_reverse, List.length_take, offset]
  omega

/-- The text as a whole stays the same. -/
theorem source_ahead (width : Int) (count : Nat) (cursor : Cursor) :
    (cursor.ahead width count).source = cursor.source := by
  simp [source, rest_ahead, before_ahead]

end Offside.Cursor
