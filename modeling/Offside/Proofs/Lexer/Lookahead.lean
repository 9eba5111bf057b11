import Mathlib
import Offside.Proofs.Lexer.Transition
import Offside.Proofs.Slices

/-!
# Reading too far and looking ahead

Words and the blanks between lexemes are read one character too far, and that character is put
back.  Neither shows: the lexer ends where looking ahead finds the end of the run, at the position
to which reading up to that offset leads (`StopsAt`), and there always is a character to put back
unless the text has ended.  Blanks stop one character earlier if they end in the carriage return of
a line break.

## Strategy

Where reading too far ends is known for any run (`Cursor.readWhile_eq`), so that only the runs are
compared.  The run of a word does not look at the following character.  The run of blanks does
(`keptRun_isInnerBlank`), but only its last character can stand in front of a line feed.
-/

namespace Offside.Lexer

open Cursor Lexeme

variable {lexer : Lexer} {cursor : Cursor} {run : List Char}

/-! ## The runs -/

theorem isInnerBlank_of_blank {c : Char} {following : Option Char}
    (blank : CharClass.blank.has c) (inside : ¬ (c = '\r' ∧ following = some '\n')) :
    isInnerBlank c following = true := by
  simpa [isInnerBlank, blank] using not_and_or.mp inside

/-- The blanks that are read are all that follow each other, less the carriage return of a line
break. -/
theorem keptRun_isInnerBlank (text : List Char) :
    keptRun isInnerBlank text =
      if (text.takeWhile CharClass.blank.has).getLast? = some '\r' ∧
          text[(text.takeWhile CharClass.blank.has).length]? = some '\n' then
        (text.takeWhile CharClass.blank.has).dropLast
      else text.takeWhile CharClass.blank.has := by
  induction text with
  | nil => rfl
  | cons c rest ih =>
      cases hblank : CharClass.blank.has c with
      | false =>
          have hkeep : isInnerBlank c rest.head? = false := by simp [isInnerBlank, hblank]
          rw [keptRun_cons_of_not_keep hkeep, List.takeWhile_cons_of_neg (by simp [hblank])]
          simp
      | true =>
          rw [List.takeWhile_cons_of_pos hblank]
          by_cases hbreak : c = '\r' ∧ rest.head? = some '\n'
          · -- A line feed is no blank, so this carriage return is the whole run.
            obtain ⟨rfl, hfeed⟩ := hbreak
            obtain ⟨more, rfl⟩ := List.head?_eq_some_iff.mp hfeed
            rfl
          · rw [keptRun_cons_of_keep (isInnerBlank_of_blank hblank hbreak), ih]
            -- If other blanks follow, they decide how the run ends.
            cases hrun : rest.takeWhile CharClass.blank.has with
            | nil =>
                rw [List.head?_eq_getElem?] at hbreak
                simp [hbreak]
            | cons d run =>
                rw [List.getLast?_cons_cons, List.dropLast_cons_cons, List.length_cons (a := c),
                  List.getElem?_cons_succ]
                split_ifs <;> rfl

theorem keptRun_ne_nil {c : Char} {rest : List Char} (hrest : cursor.rest = c :: rest)
    (blank : CharClass.blank.has c) (inside : ¬ (c = '\r' ∧ cursor.peek 1 = some '\n')) :
    keptRun isInnerBlank cursor.rest ≠ [] := by
  have hpeek : cursor.peek 1 = rest.head? := by
    rw [peek, hrest, List.getElem?_cons_succ, List.head?_eq_getElem?]
  rw [hpeek] at inside
  rw [hrest, keptRun_cons_of_keep (isInnerBlank_of_blank blank inside)]
  exact List.cons_ne_nil _ _

/-- Where the blanks that are read end: at the end of their run, or one character before that. -/
theorem offset_add_keptRun {c : Char} {rest : List Char} (hrest : cursor.rest = c :: rest)
    (blank : CharClass.blank.has c) :
    let behind := cursor.runEnd CharClass.blank.has cursor.offset
    cursor.offset + (keptRun isInnerBlank cursor.rest).length =
      if cursor.source[behind - 1]? = some '\r' ∧ cursor.source[behind]? = some '\n' then
        behind - 1
      else behind := by
  intro behind
  rw [keptRun_isInnerBlank]
  have hbehind : behind = cursor.offset + (cursor.rest.takeWhile CharClass.blank.has).length :=
    runEnd_offset _ _
  have hpositive : 0 < (cursor.rest.takeWhile CharClass.blank.has).length := by
    rw [hrest, List.takeWhile_cons_of_pos blank]
    exact Nat.succ_pos _
  have hprefix := List.takeWhile_prefix CharClass.blank.has (l := cursor.rest)
  generalize cursor.rest.takeWhile CharClass.blank.has = run at hbehind hpositive hprefix ⊢
  have hlast : cursor.source[behind - 1]? = run.getLast? := by
    obtain ⟨tail, htail⟩ := hprefix
    calc cursor.source[behind - 1]?
        = cursor.source[cursor.offset + (run.length - 1)]? := by
          rw [hbehind, Nat.add_sub_assoc hpositive]
      _ = (run ++ tail)[run.length - 1]? := by rw [getElem?_source, peek, htail]
      _ = run[run.length - 1]? := List.getElem?_append_left (by omega)
      _ = run.getLast? := List.getLast?_eq_getElem?.symm
  have hfollowing : cursor.source[behind]? = cursor.rest[run.length]? := by
    rw [hbehind, getElem?_source, peek]
  rw [hlast, hfollowing]
  split_ifs
  · rw [List.length_dropLast, hbehind, Nat.add_sub_assoc hpositive]
  · exact hbehind.symm

/-! ## Where they lead -/

/-- `left` is the lexer with `text` read, up to the offset `stop`, and the same in all else.  Its
cursor is the one that reading up to there leads to, but for the undo slot: where a character was
put back, nothing is left to undo. -/
structure StopsAt (lexer left : Lexer) (stop : ℕ) (text : List Char) : Prop where
  forward : lexer.cursor.offset < stop
  holds : text = slice lexer.cursor.source lexer.cursor.offset stop
  offset : left.cursor.offset = stop
  moved : ∃ there, advanceTo lexer.settings.tabWidth stop lexer.cursor = .ok text there ∧
    left.position = there.position ∧ left = { lexer with cursor := there.settled }

/-- Passing over a front part of the unread text is reading up to its end. -/
theorem stopsAt_of_prefix (nonempty : run ≠ []) (prefixed : run <+: lexer.cursor.rest) :
    StopsAt lexer
      { lexer with
        cursor := (lexer.cursor.ahead lexer.settings.tabWidth run.length).settled }
      (lexer.cursor.offset + run.length) run := by
  have htake : lexer.cursor.rest.take run.length = run :=
    (List.prefix_iff_eq_take.mp prefixed).symm
  have hdistance : ((lexer.cursor.offset + run.length : ℕ) - lexer.cursor.offset : ℤ).toNat =
      run.length := by omega
  refine ⟨?_, ?_, ?_, lexer.cursor.ahead lexer.settings.tabWidth run.length, ?_, ?_, rfl⟩
  · have := List.length_pos_of_ne_nil nonempty
    omega
  · rw [slice, List.drop_take, drop_source, Nat.add_sub_cancel_left, htake]
  · rw [Cursor.offset, before_settled, before_ahead, htake, List.length_append, List.length_reverse,
      Cursor.offset, Nat.add_comm]
  · have inside := hdistance.trans_le prefixed.length_le
    rw [advanceTo_eq lexer.settings.tabWidth_ne_zero inside, hdistance, htake]
  · exact position_settled _

/-- A word is read up to the end of its run. -/
theorem exists_word {c : Char} {rest : List Char} (hrest : lexer.cursor.rest = c :: rest)
    (starts : CharClass.wordStart.has c)
    (letters : lexer.cursor.rest.takeWhile CharClass.wordPart.has = run) :
    ∃ token, token.text = String.ofList run ∧ Lexer.word? lexer = .ok (some token)
      { lexer with
        cursor := (lexer.cursor.ahead lexer.settings.tabWidth run.length).settled } := by
  have found : Lexeme.word? lexer.cursor.rest = some (.word run) := by
    rw [← letters, hrest]
    exact if_pos starts
  have hvalue : ∃ value, (Shape.word run).value lexer.settings = .ok value := by
    simp only [Shape.value]
    split <;> exact ⟨_, rfl⟩
  obtain ⟨value, hvalue⟩ := hvalue
  have hword := word?_finds lexer
  simp only [found, matched_of_read (Shape.read_of_value lexer.here id hvalue)] at hword
  exact ⟨_, rfl, hword⟩

/-- The words and the blanks that are read too far end where looking ahead says. -/
theorem stopsAt_runEnd (lexer : Lexer) {c : Char} (next : lexer.cursor.peek 0 = some c) :
    (CharClass.wordStart.has c →
      ∃ token left letters, Lexer.word? lexer = .ok (some token) left ∧
        token.text = String.ofList letters ∧
        StopsAt lexer left (lexer.cursor.runEnd CharClass.wordPart.has lexer.cursor.offset)
          letters) ∧
    (CharClass.blank.has c → ¬ (c = '\r' ∧ lexer.cursor.peek 1 = some '\n') →
      let behind := lexer.cursor.runEnd CharClass.blank.has lexer.cursor.offset
      ∃ left blanks, skipBlanks lexer = .ok () left ∧
        StopsAt lexer left
          (if lexer.cursor.source[behind - 1]? = some '\r' ∧
              lexer.cursor.source[behind]? = some '\n' then behind - 1 else behind) blanks) := by
  obtain ⟨rest, hrest⟩ : ∃ rest, lexer.cursor.rest = c :: rest := by
    rw [peek, ← List.head?_eq_getElem?] at next
    exact List.head?_eq_some_iff.mp next
  constructor
  · intro starts
    have nonempty : lexer.cursor.rest.takeWhile CharClass.wordPart.has ≠ [] := by
      rw [hrest, List.takeWhile_cons_of_pos (wordPart_of_wordStart starts)]
      exact List.cons_ne_nil _ _
    obtain ⟨token, htext, hword⟩ := exists_word hrest starts rfl
    rw [runEnd_offset]
    exact ⟨token, _, _, hword, htext, stopsAt_of_prefix nonempty (List.takeWhile_prefix _)⟩
  · intro blank inside behind
    have nonempty := keptRun_ne_nil hrest blank inside
    rw [← offset_add_keptRun hrest blank]
    exact ⟨_, _, skipBlanks_eq lexer, stopsAt_of_prefix nonempty <| keptRun_prefix _ _⟩

/-- A word that the text ends with, and blanks that end in two carriage returns, of which the second
belongs to the line break. -/
theorem stopsAt_runEnd_of_word_and_blanks :
    let word := (start .standard ⟨"if\tb2", "a"⟩).ahead 3
    let blanks := (start .standard ⟨"x \t\r\r\n", "a"⟩).ahead 1
    (word.cursor.peek 0 = some 'b' ∧ CharClass.wordStart.has 'b' ∧
      ∃ token left letters, Lexer.word? word = .ok (some token) left ∧
        token.text = String.ofList letters ∧ StopsAt word left 5 letters) ∧
    blanks.cursor.peek 0 = some ' ' ∧ CharClass.blank.has ' ' ∧
      ¬ (' ' = '\r' ∧ blanks.cursor.peek 1 = some '\n') ∧
      ∃ left text, skipBlanks blanks = .ok () left ∧ StopsAt blanks left 4 text := by
  intro word blanks
  have hword : word.cursor.peek 0 = some 'b' := by cbv
  have hblanks : blanks.cursor.peek 0 = some ' ' := by cbv
  have inside : ¬ (' ' = '\r' ∧ blanks.cursor.peek 1 = some '\n') :=
    fun h => absurd h.1 (by decide)
  exact ⟨⟨hword, by decide, (stopsAt_runEnd word hword).1 (by decide)⟩, hblanks, by decide, inside,
    (stopsAt_runEnd blanks hblanks).2 (by decide) inside⟩

end Offside.Lexer
