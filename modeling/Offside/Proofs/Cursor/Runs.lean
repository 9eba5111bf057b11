import Offside.Cursor.Ahead
import Offside.Proofs.Action

/-!
# Reading a run by reading too far

`Cursor.readWhile` finds the end of a run by reading one character too many and putting it back.
`readWhile_eq` says where that leads: over the same characters that `keptRun` finds by looking
ahead, with the undo slot used up unless the text ended first.
-/

namespace Offside.Cursor

open Offside.Action

/-- The longest run at the front of `text` of which every character, seen with the one after it,
is to be kept. -/
def keptRun (keep : Char → Option Char → Bool) : List Char → List Char
  | [] => []
  | c :: rest => if keep c rest.head? then c :: keptRun keep rest else []

/-- The cursor after a character was read too many and put back, which does not happen at the end
of the text. -/
def settled (cursor : Cursor) : Cursor :=
  match cursor.rest with
  | [] => cursor
  | _ :: _ => { cursor with undo := none }

@[simp] theorem rest_settled (cursor : Cursor) : cursor.settled.rest = cursor.rest := by
  unfold settled
  split <;> rfl

@[simp] theorem before_settled (cursor : Cursor) : cursor.settled.before = cursor.before := by
  unfold settled
  split <;> rfl

@[simp] theorem position_settled (cursor : Cursor) :
    cursor.settled.position = cursor.position := by
  unfold settled
  split <;> rfl

@[simp] theorem rest_past (width : Int) (cursor : Cursor) (c : Char) (rest : List Char) :
    (cursor.past width c rest).rest = rest := rfl

theorem keptRun_cons_of_keep {keep : Char → Option Char → Bool} {c : Char} {rest : List Char}
    (h : keep c rest.head? = true) : keptRun keep (c :: rest) = c :: keptRun keep rest := by
  simp [keptRun, h]

theorem keptRun_cons_of_not_keep {keep : Char → Option Char → Bool} {c : Char}
    {rest : List Char} (h : keep c rest.head? = false) : keptRun keep (c :: rest) = [] := by
  simp [keptRun, h]

/-- A run is a front part of its text. -/
theorem keptRun_prefix (keep : Char → Option Char → Bool) (text : List Char) :
    keptRun keep text <+: text := by
  induction text with
  | nil => exact List.prefix_rfl
  | cons c rest ih =>
      cases hkeep : keep c rest.head? with
      | true =>
          rw [keptRun_cons_of_keep hkeep]
          exact (List.prefix_cons_inj c).mpr ih
      | false =>
          rw [keptRun_cons_of_not_keep hkeep]
          exact List.nil_prefix

/-- Every character of a run is to be kept before the one that follows it in the text. -/
theorem keep_of_keptRun {keep : Char → Option Char → Bool} {front more tail : List Char} {c : Char}
    (h : keptRun keep (front ++ c :: more ++ tail) = front ++ c :: more) :
    keep c (more ++ tail).head? = true := by
  induction front with
  | nil =>
      cases hkeep : keep c (more ++ tail).head? with
      | true => rfl
      | false =>
          rw [List.nil_append, List.cons_append, keptRun_cons_of_not_keep hkeep] at h
          exact absurd h.symm (List.cons_ne_nil _ _)
  | cons d front ih =>
      rw [List.cons_append, List.cons_append] at h
      cases hkeep : keep d (front ++ c :: more ++ tail).head? with
      | true =>
          rw [keptRun_cons_of_keep hkeep] at h
          exact ih (List.cons.inj h).2
      | false =>
          rw [keptRun_cons_of_not_keep hkeep] at h
          exact absurd h.symm (List.cons_ne_nil _ _)

/-- A run that does not look at the following character is an ordinary one. -/
theorem keptRun_eq_takeWhile (member : Char → Bool) (text : List Char) :
    keptRun (fun c _ => member c) text = text.takeWhile member := by
  induction text with
  | nil => rfl
  | cons c rest ih => simp [keptRun, List.takeWhile_cons, ih]

theorem ahead_add (width : Int) (count more : Nat) (cursor : Cursor) :
    cursor.ahead width (count + more) = (cursor.ahead width count).ahead width more := by
  induction count generalizing cursor with
  | zero => simp [ahead]
  | succ count ih =>
      rw [Nat.succ_add]
      cases h : cursor.rest with
      | nil => cases more <;> simp [ahead, h]
      | cons c rest => simp [ahead, h, ih]

/-! ## Reading a run -/

theorem unconsume_past (width : Int) (cursor : Cursor) (c : Char) (rest : List Char) :
    unconsume (cursor.past width c rest) = .ok () { cursor with undo := none } := rfl

/-- Reading too far and going back reads just the run. -/
theorem readWhileAlong_eq {width : Int} (nonzero : width ≠ 0) (keep : Char → Option Char → Bool)
    {text : List Char} {cursor : Cursor} (h : cursor.rest = text) :
    readWhileAlong width keep text cursor =
      .ok (keptRun keep text) (cursor.ahead width (keptRun keep text).length).settled := by
  induction text generalizing cursor with
  | nil =>
      have hsettled : cursor.settled = cursor := by simp [settled, h]
      simp [readWhileAlong, keptRun, ahead, hsettled]
  | cons c rest ih =>
      have hpeek : (cursor.past width c rest).peek 0 = rest.head? := by
        simp [peek, List.head?_eq_getElem?]
      rw [readWhileAlong, bind_ok (advance_cons nonzero h)]
      simp only [bind_get, hpeek]
      cases hkeep : keep c rest.head? with
      | true =>
          have hahead : cursor.ahead width ((keptRun keep rest).length + 1) =
              (cursor.past width c rest).ahead width (keptRun keep rest).length := by
            simp [ahead, h]
          rw [if_pos rfl, bind_ok (ih (rest_past width cursor c rest)),
            keptRun_cons_of_keep hkeep, List.length_cons, hahead]
          rfl
      | false =>
          have hsettled : cursor.settled = { cursor with undo := none } := by simp [settled, h]
          rw [if_neg Bool.false_ne_true, bind_ok (unconsume_past width cursor c rest),
            keptRun_cons_of_not_keep hkeep, List.length_nil, ahead, hsettled]
          rfl

theorem readWhile_eq {width : Int} (nonzero : width ≠ 0) (keep : Char → Option Char → Bool)
    (cursor : Cursor) :
    readWhile width keep cursor = .ok (keptRun keep cursor.rest)
      (cursor.ahead width (keptRun keep cursor.rest).length).settled := by
  simp only [readWhile, bind_get]
  exact readWhileAlong_eq nonzero keep rfl

end Offside.Cursor
