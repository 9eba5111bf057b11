import Offside.Proofs.Stream.States

/-!
# The texts of line breaks

Where carriage returns and line feeds come in pairs only (`IsPaired`), as in a text whose lines end
in `\r\n`, the token for a line break has `\r\n` as its text, unless an empty line follows.  A
carriage return behind the line feed is read with the break, and so the one of the empty line is:
the text is `\r\n\r` then, and only a line feed is left of the break that follows
(`newline_of_paired`).

## Strategy

A line break is read without its carriage return only by a lexer that stands between the two
characters.  Inside a line none does (`IsWhole`), because blanks are not skipped that far and no
lexeme ends in a carriage return.  In front of an empty line one may, but that line is skipped.
-/

namespace Offside

open Lexeme Lines

/-- Every carriage return has a line feed right behind it, and every line feed has a carriage return
right in front of it. -/
structure IsPaired (text : List Char) : Prop where
  followed : ∀ front more, text = front ++ '\r' :: more → more.head? = some '\n'
  preceded : ∀ front more, text = front ++ '\n' :: more → front.getLast? = some '\r'

/-- It is enough to look at neighbours, and at both ends. -/
theorem isPaired_of_isChain {text : List Char} (head : text.head? ≠ some '\n')
    (last : text.getLast? ≠ some '\r') (chain : text.IsChain fun c d => c = '\r' ↔ d = '\n') :
    IsPaired text where
  followed front more split := by
    cases more with
    | nil => exact absurd (by simp [split]) last
    | cons c more =>
        rw [split, List.isChain_append_cons_cons] at chain
        exact congrArg some (chain.2.1.mp rfl)
  preceded front more split := by
    cases hfront : front.getLast? with
    | none =>
        rw [List.getLast?_eq_none_iff] at hfront
        exact absurd (by simp [split, hfront]) head
    | some c =>
        obtain ⟨front, rfl⟩ := List.getLast?_eq_some_iff.mp hfront
        rw [split, List.append_assoc, List.singleton_append, List.isChain_append_cons_cons] at chain
        exact congrArg some (chain.2.1.mpr rfl)

/-- A paired text goes on with a whole line break, if with a carriage return. -/
theorem IsPaired.cases_behind {front more : List Char} (paired : IsPaired (front ++ more)) :
    more.head? ≠ some '\r' ∨ ∃ lines, more = '\r' :: '\n' :: lines := by
  by_cases hreturn : more.head? = some '\r'
  · right
    obtain ⟨others, rfl⟩ := List.head?_eq_some_iff.mp hreturn
    obtain ⟨lines, rfl⟩ := List.head?_eq_some_iff.mp (paired.followed front others rfl)
    exact ⟨lines, rfl⟩
  · exact Or.inl hreturn

namespace Lexer

variable {settings : Settings} {source : Source} {lexer left : Lexer} {token : Token}
  {tokens : List Token} {text : List Char}

/-! ## Inside a line -/

/-- Inside a line the lexer does not stand between the two characters of a line break. -/
def IsWhole (lexer : Lexer) : Prop :=
  lexer.mode = .inLine → lexer.cursor.before.head? = some '\r' →
    lexer.cursor.rest.head? ≠ some '\n'

theorem isWhole_of_mode (mode : left.mode ≠ .inLine) : IsWhole left :=
  fun inLine => absurd inLine mode

theorem isWhole_of_ended (ended : left.cursor.rest = []) : IsWhole left := by
  intro _ _
  simp [ended]

theorem isWhole_of_isContent (content : IsContent left.cursor.rest) : IsWhole left := by
  obtain ⟨c, rest, hrest, -, hfeed, -⟩ := content
  intro _ _
  simpa [hrest] using hfeed

/-- What was read decides it. -/
theorem isWhole_of_passes (passes : Passes lexer left text) (nonempty : text ≠ [])
    (last : left.cursor.rest.head? = some '\n' → text.getLast? ≠ some '\r') : IsWhole left := by
  have hbefore : left.cursor.before.head? = text.getLast? := by
    calc left.cursor.before.head?
        = left.cursor.before.reverse.getLast? := List.getLast?_reverse.symm
      _ = (lexer.cursor.before.reverse ++ text).getLast? := by rw [passes.before]
      _ = text.getLast? := List.getLast?_append_of_ne_nil _ nonempty
  intro _ hreturn hfeed
  exact last hfeed (hbefore.symm.trans hreturn)

/-- Lexemes hold no carriage returns. -/
theorem isWhole_of_shape {shape : Shape} (found : longest? lexer.cursor.rest = some shape) :
    IsWhole { lexer with cursor := shape.pass lexer.settings.tabWidth lexer.cursor } := by
  have longest := isLongest_of_longest? found
  refine isWhole_of_passes (passes_of_shape longest.prefixed) (Shape.text_ne_nil longest.valid) ?_
  intro _ hlast
  have hmem : '\r' ∈ shape.text := List.mem_of_getLast? hlast
  exact absurd (Shape.not_stop_of_mem longest.valid hmem) (by decide)

namespace AtWork

theorem isWhole_of_transition {found : Option Token} (atWork : AtWork settings source lexer)
    (transition : Transition lexer (.ok found left)) : IsWhole left := by
  cases transition with
  | closeAtEnd mode ended opened => exact isWhole_of_ended ended
  | finish mode ended opened => exact isWhole_of_ended ended
  | blankLine mode split blank => exact isWhole_of_mode (by simp [ahead, mode])
  | lastBlankLine mode nonempty blank => exact isWhole_of_ended (by simp)
  | sameLevel mode indented content level =>
      exact isWhole_of_isContent ((rest_ahead_of_split indented.split).symm ▸ content)
  | indent mode indented content reaches deeper =>
      exact isWhole_of_isContent ((rest_ahead_of_split indented.split).symm ▸ content)
  | pend mode indented content reaches shallower => exact isWhole_of_mode (by simp [entering])
  | dedent mode indented reaches opened shallower =>
      exact isWhole_of_mode (by simp [noting, within, mode])
  | @resolved run tail mode indented level =>
      have content := atWork.closes.isContent mode indented
      exact isWhole_of_isContent ((rest_ahead_of_split indented.split).symm ▸ content)
  | @blanks run mode kept nonempty =>
      have passes := passes_of_blanks kept
      exact isWhole_of_passes passes nonempty (blank_of_keptRun (passes.rest ▸ kept)).2
  | openComment mode split closed => exact isWhole_of_ended (by simp)
  | newline mode ends => exact isWhole_of_mode (by simp [entering])
  | lexeme mode content found read => exact isWhole_of_shape found

end AtWork

theorem IsWhole.of_failure {cause : Error} (h : IsWhole lexer)
    (transition : Transition lexer (.error cause left)) : IsWhole left := by
  cases transition with
  | mismatch mode indented reaches deeper => exact isWhole_of_mode (by simp [failing, noting, mode])
  | refused mode content found fits refusal => exact isWhole_of_shape found
  | tooLarge mode content found large => exact h
  | unexpected mode split content found => exact h

theorem isWhole_of_calls (calls : Calls (start settings source) tokens lexer) : IsWhole lexer :=
  calls.preserves_atWork (fun atWork _ _ transition => atWork.isWhole_of_transition transition)
    (fun _ whole _ transition => whole.of_failure transition) (isWhole_of_mode (by simp [start]))

/-! ## The end of a line -/

theorem exists_isEnd_of_newline (transition : Transition lexer (.ok (some token) left))
    (newline : token.kind = .layout .newline) :
    ∃ comment before more, lexer.mode = .inLine ∧ IsEnd lexer.cursor.rest comment before more ∧
      token.text.toList = before ++ '\n' :: leadingReturn more ∧
      left.cursor.rest = more.drop (leadingReturn more).length := by
  cases transition with
  | @newline comment before more mode ends =>
      refine ⟨comment, before, more, mode, ends, String.toList_ofList, ?_⟩
      rw [← List.length_append]
      exact rest_ahead_of_split ends.split_break
  | lexeme mode content found read =>
      have hkind := Shape.isLayout_of_read read
      simp [newline, Kind.isLayout] at hkind
  | _ => simp [mark] at newline

/-- In a paired text the lexer comes to a line break in front of its carriage return. -/
theorem IsWhole.before_eq {comment before more : List Char} (whole : IsWhole lexer)
    (paired : IsPaired lexer.cursor.source) (mode : lexer.mode = .inLine)
    (ends : IsEnd lexer.cursor.rest comment before more) : before = ['\r'] := by
  rcases ends.isReturn with ⟨rfl, hcomment⟩ | rfl
  · exfalso
    have split : lexer.cursor.source =
        (lexer.cursor.before.reverse ++ comment) ++ '\n' :: more := by
      simp [Cursor.source, ends.split]
    have hreturn := paired.preceded _ more split
    by_cases nonempty : comment = []
    · -- The line ends where the lexer stands, between the two characters.
      rw [nonempty, List.append_nil, List.getLast?_reverse] at hreturn
      exact whole mode hreturn (by simp [ends.split, nonempty])
    · rw [List.getLast?_append_of_ne_nil _ nonempty] at hreturn
      exact hcomment hreturn
  · rfl

/-- The break that ends a line, in a paired text, and the carriage return that is read behind it. -/
theorem exists_break_of_newline (paired : IsPaired source.text.toList)
    (calls : Calls (start settings source) tokens lexer) (pull : next lexer = .ok token left)
    (newline : token.kind = .layout .newline) :
    ∃ front more, source.text.toList = front ++ '\r' :: '\n' :: more ∧
      token.text.toList = '\r' :: '\n' :: leadingReturn more ∧
      left.cursor.rest = more.drop (leadingReturn more).length := by
  have atWork := (atWork_start settings source).of_calls calls
  have running := atWork.running_of_next pull (by simp [newline])
  obtain ⟨inner, skipped, way, last⟩ := exists_idles_of_next running pull
  obtain ⟨atWork', whole⟩ : AtWork settings source inner ∧ IsWhole inner :=
    way.preserves (P := fun lexer => AtWork settings source lexer ∧ IsWhole lexer) running
      (fun h running idle => ⟨h.1.of_transition running idle, h.1.isWhole_of_transition idle⟩)
      ⟨atWork, isWhole_of_calls calls⟩
  obtain ⟨comment, before, more, mode, ends, htext, hrest⟩ := exists_isEnd_of_newline last newline
  have hsource : inner.cursor.source = source.text.toList := atWork'.text
  obtain rfl := whole.before_eq (hsource.symm ▸ paired) mode ends
  refine ⟨inner.cursor.before.reverse ++ comment, more, ?_, htext, hrest⟩
  rw [← hsource, Cursor.source, ends.split]
  simp

/-- Where the line breaks of a text are all `\r\n`, and none follows another at once, the tokens for
line breaks have just that as their text.  Otherwise the text is still that of one line break,
unless another one follows at once.  That one loses its carriage return to the token, and nothing
but its line feed is left of it. -/
theorem newline_of_paired (paired : IsPaired source.text.toList)
    (calls : Calls (start settings source) tokens lexer) (pull : next lexer = .ok token left)
    (newline : token.kind = .layout .newline) :
    (¬ ['\r', '\n', '\r', '\n'] <:+: source.text.toList → token.text = "\r\n") ∧
      ∃ front more, source.text.toList = front ++ '\r' :: '\n' :: more ∧
        (token.text = "\r\n" ∧ left.cursor.rest = more ∧ more.head? ≠ some '\r' ∨
          ∃ lines, more = '\r' :: '\n' :: lines ∧
            token.text = "\r\n\r" ∧ left.cursor.rest = '\n' :: lines) := by
  obtain ⟨front, more, split, htext, hrest⟩ := exists_break_of_newline paired calls pull newline
  have hbehind : source.text.toList = (front ++ ['\r', '\n']) ++ more := by simp [split]
  rcases (hbehind ▸ paired).cases_behind with hreturn | ⟨lines, rfl⟩
  · rw [leadingReturn_eq_nil hreturn] at htext hrest
    have hbreak : token.text = "\r\n" := String.toList_injective htext
    exact ⟨fun _ => hbreak, front, more, split, Or.inl ⟨hbreak, hrest, hreturn⟩⟩
  · have hbreak : token.text = "\r\n\r" := String.toList_injective htext
    refine ⟨fun apart => ?_, front, _, split, Or.inr ⟨lines, rfl, hbreak, hrest⟩⟩
    exact absurd ⟨front, lines, by simp [split]⟩ apart

/-- A break behind a comment, with a line of blanks and another break behind it. -/
theorem newline_of_paired_blank :
    IsPaired "a#b\r\n \r\nc".toList ∧
      ¬ ['\r', '\n', '\r', '\n'] <:+: "a#b\r\n \r\nc".toList ∧
      ∃ tokens lexer token left, Calls (start .standard ⟨"a#b\r\n \r\nc", "a"⟩) tokens lexer ∧
        next lexer = .ok token left ∧ token.kind = .layout .newline ∧ token.text = "\r\n" ∧
        ∃ front more, "a#b\r\n \r\nc".toList = front ++ '\r' :: '\n' :: more ∧
          (token.text = "\r\n" ∧ left.cursor.rest = more ∧ more.head? ≠ some '\r' ∨
            ∃ lines, more = '\r' :: '\n' :: lines ∧
              token.text = "\r\n\r" ∧ left.cursor.rest = '\n' :: lines) := by
  have paired : IsPaired "a#b\r\n \r\nc".toList :=
    isPaired_of_isChain (by decide) (by decide) (by decide)
  have apart : ¬ ['\r', '\n', '\r', '\n'] <:+: "a#b\r\n \r\nc".toList := by decide
  have given : outcome (take 1) (start .standard ⟨"a#b\r\n \r\nc", "a"⟩) =
      .ok [⟨.name, some (.text "a"), "a", ⟨1, 1, "a"⟩⟩] := by
    cbv
  have second : outcome next (leftBy (take 1) (start .standard ⟨"a#b\r\n \r\nc", "a"⟩)) =
      .ok ⟨.layout .newline, none, "\r\n", ⟨1, 2, "a"⟩⟩ := by
    cbv
  obtain ⟨lexer, pulls, hlexer⟩ := exists_pulls_of_outcome given
  rw [hlexer] at second
  obtain ⟨left, pull⟩ := exists_of_outcome second
  have hbreak := newline_of_paired paired pulls.calls pull rfl
  exact ⟨paired, apart, _, lexer, _, left, pulls.calls, pull, rfl, hbreak.1 apart, hbreak.2⟩

/-- The carriage return of an empty line is read with the break in front of it. -/
theorem newline_before_break :
    IsPaired "a\r\n\r\nb".toList ∧
      tokenize .standard ⟨"a\r\n\r\nb", Location.unnamed⟩ =
        .ok [⟨.name, some (.text "a"), "a", ⟨1, 1, Location.unnamed⟩⟩,
          ⟨.layout .newline, none, "\r\n\r", ⟨1, 2, Location.unnamed⟩⟩,
          ⟨.name, some (.text "b"), "b", ⟨3, 1, Location.unnamed⟩⟩,
          ⟨.layout .eof, none, "", ⟨3, 2, Location.unnamed⟩⟩] := by
  refine ⟨isPaired_of_isChain (by decide) (by decide) (by decide), ?_⟩
  cbv

end Lexer

end Offside
