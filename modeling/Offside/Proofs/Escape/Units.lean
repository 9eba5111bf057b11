import Mathlib.Algebra.Ring.Parity
import Mathlib.Data.List.Basic
import Offside.Proofs.Escape

/-!
# Decoding unit by unit

A body is read in units from the left: a backslash together with the character behind it, or a
character alone.  Decoding deals with each unit on its own (`decode_eq_flatMap`), so a body may be
cut between two units and decoded in pieces.  A known escape becomes one character shorter, and
every other unit stays as it is; hence the length of a decoded body counts the known escapes.

A cut falls between two units exactly where no backslash waits for its character.  After a text
that ends in an even number of backslashes none does, since these are paired with one another,
whatever stands in front of them (`odd_of_mem_units`).
-/

namespace Offside.Escape

/-- The units of a body, from left to right. -/
def units : List Char → List (List Char)
  | [] => []
  | '\\' :: c :: rest => ['\\', c] :: units rest
  | c :: rest => [c] :: units rest

/-- Whether a unit is an escape that stands for a character. -/
def isKnown : List Char → Bool
  | ['\\', c] => (meaning? c).isSome
  | _ => false

/-- How many backslashes a text ends with. -/
def slashesBehind (text : List Char) : ℕ := (text.reverse.takeWhile (· == '\\')).length

/-! ## The cut into units -/

/-- A body is its units in order. -/
theorem flatten_units (text : List Char) : (units text).flatten = text := by
  fun_induction units text with
  | case1 => rfl
  | case2 c rest ih => rw [List.flatten_cons, ih]; rfl
  | case3 c rest _ ih => rw [List.flatten_cons, ih]; rfl

theorem units_cons_of_ne {c : Char} (h : c ≠ '\\') (rest : List Char) :
    units (c :: rest) = [c] :: units rest := by
  rw [units]
  rintro d more rfl
  exact absurd rfl h

/-- Behind a text in which no backslash is left alone, a new unit begins. -/
theorem units_append {text : List Char} (h : ['\\'] ∉ units text) (more : List Char) :
    units (text ++ more) = units text ++ units more := by
  fun_induction units text with
  | case1 => rfl
  | case2 c rest ih =>
      rw [List.cons_append, List.cons_append, units, ih fun hmem => h (List.mem_cons_of_mem _ hmem),
        List.cons_append]
  | case3 c rest hpair ih =>
      have hc : c ≠ '\\' := by
        rintro rfl
        cases rest with
        | nil => exact h (List.mem_cons_self ..)
        | cons d rest => exact hpair d rest rfl rfl
      rw [List.cons_append, units_cons_of_ne hc, ih fun hmem => h (List.mem_cons_of_mem _ hmem),
        List.cons_append]

/-! ## Backslashes at the end of a text -/

/-- The backslashes at the end of a text go on into what stands in front of it only if the text is
made of backslashes. -/
theorem slashesBehind_append (front text : List Char) :
    slashesBehind (front ++ text) =
      slashesBehind text + if slashesBehind text = text.length then slashesBehind front else 0 := by
  unfold slashesBehind
  rw [List.reverse_append, List.takeWhile_append, List.length_reverse]
  split
  · next hall => rw [List.length_append, List.length_reverse, hall]
  · rw [Nat.add_zero]

/-- A unit of two characters ends in no backslash or in two. -/
theorem even_slashesBehind_pair (c : Char) : Even (slashesBehind ['\\', c]) := by
  by_cases hc : c = '\\'
  · subst hc
    decide
  · simp [slashesBehind, hc]

/-- A backslash that is left alone stands at the end of an odd number of them. -/
theorem odd_of_mem_units {text : List Char} (h : ['\\'] ∈ units text) :
    Odd (slashesBehind text) := by
  fun_induction units text with
  | case1 => simp at h
  | case2 c rest ih =>
      have hrest : ['\\'] ∈ units rest := by simpa using h
      have hodd := ih hrest
      rw [show '\\' :: c :: rest = ['\\', c] ++ rest from rfl, slashesBehind_append]
      split
      · exact hodd.add_even (even_slashesBehind_pair c)
      · exact hodd
  | case3 c rest hpair ih =>
      by_cases hc : c = '\\'
      · subst hc
        cases rest with
        | nil => decide
        | cons d rest => exact absurd rfl (hpair d rest rfl)
      · have hrest : ['\\'] ∈ units rest := by
          rcases List.mem_cons.mp h with heq | hrest
          · exact absurd (List.singleton_inj.mp heq).symm hc
          · exact hrest
        have hsingle : slashesBehind [c] = 0 := by simp [slashesBehind, hc]
        rw [show c :: rest = [c] ++ rest from rfl, slashesBehind_append, hsingle, ite_self,
          Nat.add_zero]
        exact ih hrest

/-! ## What becomes of a unit -/

/-- A character alone stands for itself, even if it is a backslash. -/
theorem decode_singleton (c : Char) : decode [c] = [c] := by
  rw [decode, decode]
  simp

/-- Units are decoded one by one. -/
theorem decode_eq_flatMap (text : List Char) : decode text = (units text).flatMap decode := by
  fun_induction units text with
  | case1 => rfl
  | case2 c rest ih =>
      rw [List.flatMap_cons, ← ih]
      cases hmeaning : meaning? c with
      | some meant => rw [decode_of_meaning hmeaning, decode_of_meaning hmeaning]; rfl
      | none => simp [decode, hmeaning]
  | case3 c rest hpair ih =>
      rw [List.flatMap_cons, ← ih, decode_singleton, decode, List.singleton_append]
      exact hpair

/-- Only known escapes change their length, and each of them by one. -/
theorem length_decode (text : List Char) :
    (decode text).length + (units text).countP isKnown = text.length := by
  fun_induction units text with
  | case1 => rfl
  | case2 c rest ih =>
      cases hmeaning : meaning? c with
      | some meant =>
          have hknown : isKnown ['\\', c] = true := by simp [isKnown, hmeaning]
          rw [decode_of_meaning hmeaning, List.countP_cons_of_pos hknown]
          simp only [List.length_cons]
          omega
      | none =>
          have hknown : ¬ isKnown ['\\', c] = true := by simp [isKnown, hmeaning]
          rw [decode, hmeaning, List.countP_cons_of_neg hknown]
          simp only [List.length_cons]
          omega
  | case3 c rest hpair ih =>
      have hknown : ¬ isKnown [c] = true := by simp [isKnown]
      rw [decode, List.countP_cons_of_neg hknown, List.length_cons, List.length_cons]
      · omega
      · exact hpair

/-- A body without known escapes stands for itself. -/
theorem decode_eq_self {text : List Char} (h : (units text).countP isKnown = 0) :
    decode text = text := by
  fun_induction units text with
  | case1 => rfl
  | case2 c rest ih =>
      rw [List.countP_eq_zero, List.forall_mem_cons] at h
      obtain ⟨hunit, hrest⟩ := h
      have hmeaning : meaning? c = none := by simpa [isKnown] using hunit
      rw [decode, hmeaning]
      exact congrArg (['\\', c] ++ ·) (ih (List.countP_eq_zero.mpr hrest))
  | case3 c rest hpair ih =>
      rw [List.countP_eq_zero, List.forall_mem_cons] at h
      rw [decode, ih (List.countP_eq_zero.mpr h.2)]
      exact hpair

/-- A text that ends in an even number of backslashes is decoded on its own. -/
theorem decode_append {text : List Char} (even : Even (slashesBehind text)) (more : List Char) :
    decode (text ++ more) = decode text ++ decode more := by
  have hwhole : ['\\'] ∉ units text := fun hmem =>
    Nat.not_even_iff_odd.mpr (odd_of_mem_units hmem) even
  calc decode (text ++ more)
      = (units text ++ units more).flatMap decode := by
        rw [decode_eq_flatMap, units_append hwhole]
    _ = (units text).flatMap decode ++ (units more).flatMap decode := List.flatMap_append
    _ = decode text ++ decode more := by rw [← decode_eq_flatMap, ← decode_eq_flatMap]

/-! ## Decoding texts -/

/-- A text may be cut behind an even number of backslashes and decoded in two pieces.  Decoding
makes no text longer, keeps the length of those alone that it keeps, and takes away one character
for every known escape among the units. -/
theorem decodeText_by_units :
    (∀ text more : String, Even (slashesBehind text.toList) →
      decodeText (text ++ more) = decodeText text ++ decodeText more) ∧
    ∀ raw : String, (units raw.toList).flatten = raw.toList ∧
      (decodeText raw).length ≤ raw.length ∧
      ((decodeText raw).length = raw.length ↔ decodeText raw = raw) ∧
      raw.length - (decodeText raw).length = (units raw.toList).countP isKnown := by
  refine ⟨fun text more even => ?_, fun raw => ?_⟩
  · apply String.toList_injective
    simp only [toList_decodeText, String.toList_append]
    exact decode_append even more.toList
  · have hlength : (decodeText raw).length + (units raw.toList).countP isKnown = raw.length := by
      rw [← String.length_toList, toList_decodeText, length_decode, String.length_toList]
    refine ⟨flatten_units raw.toList, by omega, ⟨fun hsame => ?_, fun hsame => by rw [hsame]⟩,
      by omega⟩
    apply String.toList_injective
    rw [toList_decodeText]
    exact decode_eq_self (by omega)

/-- Behind two backslashes a letter is not an escape, and a third backslash waits for its
character. -/
theorem decodeText_by_units_slashes :
    Even (slashesBehind "a\\\\".toList) ∧ ¬ Even (slashesBehind "a\\\\\\".toList) ∧
      decodeText ("a\\\\" ++ "n") = decodeText "a\\\\" ++ decodeText "n" ∧
      decodeText ("a\\\\\\" ++ "n") ≠ decodeText "a\\\\\\" ++ decodeText "n" := by
  have even : Even (slashesBehind "a\\\\".toList) := by decide
  exact ⟨even, by decide, decodeText_by_units.1 "a\\\\" "n" even, by decide⟩

end Offside.Escape
