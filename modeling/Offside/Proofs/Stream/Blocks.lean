import Mathlib
import Offside.Proofs.Lexer.Consistency
import Offside.Proofs.Lines.Agreement
import Offside.Proofs.Lines.Grammar

/-!
# Blocks

The tokens of a text form a stream of lines, in which every block that is opened is closed again
(`IsBalanced`).  The form is read off the lines of the text (`isOrderly_readLines`), the balance off
the steps of the lexer: after any pulls, as many blocks are open as the tokens have opened and not
closed (`depth_of_calls`).  Tokens in front of an error are the beginning of such a stream: a lexeme
in the place of the error, the marks that close the open blocks, and the end complete them.
-/

namespace Offside

open Lines

/-- How often a mark of the layout is among tokens. -/
def countOf (layout : Layout) (tokens : List Token) : ℕ :=
  tokens.countP (·.kind == .layout layout)

/-- Blocks are closed after they are opened, and in the end none is left. -/
structure IsBalanced (tokens : List Token) : Prop where
  opened : ∀ front, front <+: tokens → countOf .dedent front ≤ countOf .indent front
  closed : countOf .dedent tokens = countOf .indent tokens

/-! ## Counting marks -/

section Counting

variable {tokens more : List Token} {token : Token} {layout : Layout}

@[simp] theorem countOf_append (layout : Layout) (tokens more : List Token) :
    countOf layout (tokens ++ more) = countOf layout tokens + countOf layout more :=
  List.countP_append

theorem countOf_cons (layout : Layout) (token : Token) (tokens : List Token) :
    countOf layout (token :: tokens) = countOf layout [token] + countOf layout tokens :=
  countOf_append layout [token] tokens

theorem countOf_eq_zero (h : ∀ token ∈ tokens, token.kind ≠ .layout layout) :
    countOf layout tokens = 0 :=
  List.countP_eq_zero.mpr fun token hmem => by simpa using h token hmem

theorem countOf_lexeme (layout : Layout) (content : token.kind.isLayout = false) :
    countOf layout [token] = 0 := by
  refine countOf_eq_zero fun other hmem hkind => ?_
  rw [List.mem_singleton.mp hmem] at hkind
  simp [hkind, Kind.isLayout] at content

/-- Tokens whose beginnings open what they close are balanced with what closes the rest. -/
theorem isBalanced_append
    (opened : ∀ front, front <+: tokens → countOf .dedent front ≤ countOf .indent front)
    (hmore : countOf .indent more = 0)
    (closed : countOf .dedent (tokens ++ more) = countOf .indent (tokens ++ more)) :
    IsBalanced (tokens ++ more) where
  opened front hfront := by
    rcases List.prefix_or_prefix_of_prefix hfront (List.prefix_append tokens more) with
      hshort | ⟨rest, rfl⟩
    · exact opened front hshort
    · have hrest := (List.prefix_append_right_inj tokens).mp hfront
      have hle : countOf .dedent rest ≤ countOf .dedent more := hrest.sublist.countP_le
      simp only [countOf_append] at closed ⊢
      omega
  closed := closed

end Counting

namespace Lexer

variable {settings : Settings} {source : Source} {lexer left : Lexer} {token : Token}
  {tokens : List Token} {reading : Reading Error Unit}

/-! ## Open blocks -/

/-- A step opens or closes the block that its token says. -/
theorem depth_of_transition {found : Option Token} (h : Transition lexer (.ok found left)) :
    left.levels.depth + countOf .dedent found.toList =
      lexer.levels.depth + countOf .indent found.toList := by
  cases h with
  | closeAtEnd mode ended opened => simp [Levels.depth, opened, within, noting, countOf, mark]
  | indent mode indented content reaches deeper =>
      simp [Levels.depth, within, noting, entering, countOf, mark]
  | dedent mode indented reaches opened shallower =>
      simp [Levels.depth, opened, within, noting, countOf, mark]
  | lexeme mode content found read =>
      have hzero := fun layout => countOf_lexeme layout (Lexeme.Shape.isLayout_of_read read)
      simp only [Option.toList_some, hzero]
  | _ => rfl

theorem levels_of_idle (h : Transition lexer (.ok none left)) : left.levels = lexer.levels := by
  cases h <;> rfl

theorem levels_of_failure {cause : Error} (h : Transition lexer (.error cause left)) :
    left.levels = lexer.levels := by
  cases h <;> rfl

theorem Pull.depth (h : Pull lexer (.ok token left)) :
    left.levels.depth + countOf .dedent [token] = lexer.levels.depth + countOf .indent [token] ∧
      (token.isEof → left.levels.depth = 0) := by
  apply h.backwards
  · intro lexer last
    refine ⟨depth_of_transition last, fun eof => ?_⟩
    cases last with
    | finish mode ended opened => simp [Levels.depth, opened, noting]
    | lexeme mode content found read => simp [Lexeme.Shape.isEof_of_read read] at eof
    | _ => simp [mark, Token.isEof] at eof
  · intro lexer middle first ih
    rw [← levels_of_idle first]
    exact ih

/-- A pull opens or closes the block that its token says. -/
theorem depth_of_next (consistent : Consistent settings source lexer)
    (h : next lexer = .ok token left) :
    left.levels.depth + countOf .dedent [token] =
      lexer.levels.depth + countOf .indent [token] := by
  cases running : lexer.ending with
  | none => exact (h ▸ pull_next running).depth.1
  | some ending =>
      obtain ⟨rfl, rfl⟩ := eq_of_next_of_ended running h
      obtain ⟨rfl, -⟩ := consistent.ended _ running
      rfl

theorem levels_of_next_error {cause : Error} (h : next lexer = .error cause left) :
    left.levels = lexer.levels := by
  obtain ⟨middle, skipped, running, idles, last⟩ := exists_idles_of_next_error h
  rw [levels_of_failure last]
  exact idles.preserves (P := fun middle => middle.levels = lexer.levels) running
    (fun same _ idle => (levels_of_idle idle).trans same) rfl

/-- After any pulls, the blocks that are open are those that were opened and not closed. -/
theorem depth_of_calls (consistent : Consistent settings source lexer)
    (calls : Calls lexer tokens left) :
    left.levels.depth + countOf .dedent tokens = lexer.levels.depth + countOf .indent tokens := by
  induction calls with
  | nil lexer => rfl
  | @token lexer middle left token tokens first more ih =>
      have hfirst := depth_of_next consistent first
      have hmore := ih (consistent.of_next first)
      rw [countOf_cons .dedent, countOf_cons .indent]
      omega
  | failed first more ih =>
      rw [← levels_of_next_error first]
      exact ih (consistent.of_next_error first)

theorem Calls.of_prefix {front : List Token} (calls : Calls lexer tokens left)
    (h : front <+: tokens) : ∃ middle, Calls lexer front middle := by
  induction calls generalizing front with
  | nil lexer => exact ⟨lexer, List.prefix_nil.mp h ▸ .nil lexer⟩
  | @token lexer middle left token tokens first more ih =>
      rcases List.prefix_cons_iff.mp h with rfl | ⟨rest, rfl, hrest⟩
      · exact ⟨lexer, .nil lexer⟩
      · obtain ⟨last, calls⟩ := ih hrest
        exact ⟨last, .token first calls⟩
  | failed first more ih =>
      obtain ⟨last, calls⟩ := ih h
      exact ⟨last, .failed first calls⟩

/-- No pulls close more blocks than they open. -/
theorem opened_of_calls (calls : Calls (start settings source) tokens left) :
    ∀ front, front <+: tokens → countOf .dedent front ≤ countOf .indent front := by
  intro front hfront
  obtain ⟨middle, calls'⟩ := calls.of_prefix hfront
  have hdepth := depth_of_calls (consistent_start settings source) calls'
  have hstart : (start settings source).levels.depth = 0 := rfl
  omega

/-- An account without an error closes all blocks. -/
theorem Reads.closed {value : Unit} (h : Reads lexer reading) (running : lexer.ending = none)
    (hvalue : reading.result = .ok value) :
    countOf .dedent reading.tokens = lexer.levels.depth + countOf .indent reading.tokens := by
  induction h with
  | ended last eof =>
      have pull := pull_next running
      rw [last] at pull
      obtain ⟨hdepth, hclosed⟩ := pull.depth
      rw [hclosed eof, Nat.zero_add] at hdepth
      exact hdepth
  | @token lexer left token reading first eof more ih =>
      have pull := pull_next running
      rw [first] at pull
      have hfirst := pull.depth.1
      have hmore := ih (pull.running running eof) hvalue
      simp only [Reading.preceded, countOf_append]
      omega
  | failed failure => simp at hvalue

/-! ## Streams of blocks -/

theorem countOf_closing (name : String) (position : Position) (levels : Levels) :
    countOf .dedent (closing name position levels) = levels.depth ∧
      countOf .indent (closing name position levels) = 0 := by
  constructor
  · simp [closing, countOf, Lines.mark, Levels.depth, List.countP_replicate]
  · simp [closing, countOf, Lines.mark]

theorem isOrderly_read (settings : Settings) (source : Source) :
    IsOrderly 0 (read settings source) :=
  isOrderly_readLines Int.zero_lt_one (fun _ => not_mem_of_mem_splitOn)
    (List.splitOn_ne_nil _ _)

/-- The tokens of a text are a stream of blocks. -/
theorem isStream_of_tokenize (h : tokenize settings source = .ok tokens) :
    IsStream 0 tokens ∧ IsBalanced tokens := by
  have hread := read_of_tokenize h
  obtain ⟨left, pulls⟩ := exists_pulls_of_tokenize h
  have hclosed := (reads_start settings source).closed rfl (by rw [hread]; rfl)
  have hstream := (isOrderly_read settings source).whole () (congrArg Reading.result hread)
  rw [Reading.tokens_reported, hread] at hclosed
  rw [hread] at hstream
  exact ⟨hstream, opened_of_calls pulls.calls, hclosed.trans (Nat.zero_add _)⟩

/-- Tokens in front of an error begin a stream of blocks. -/
theorem exists_isStream_of_error {cause : Error} {final : Lexer}
    (pulls : Pulls (start settings source) tokens left) (failure : next left = .error cause final) :
    ∃ more, IsStream 0 (tokens ++ more) ∧ IsBalanced (tokens ++ more) := by
  obtain ⟨fault, -, hreading⟩ := Reading.exists_of_reported_error
    ((reads_start settings source).eq_of_failed pulls rfl failure)
  have orderly := isOrderly_read settings source
  rw [hreading] at orderly
  obtain ⟨number, hstream⟩ := orderly.cut fault rfl
  let lexeme : Token := ⟨.name, none, "", ⟨number, 1, source.name⟩⟩
  obtain ⟨hdedent, hindent⟩ := countOf_closing source.name ⟨number, 1⟩ left.levels
  refine ⟨lexeme :: closing source.name ⟨number, 1⟩ left.levels,
    hstream lexeme _ rfl rfl (isClosing_closing ⟨number, 1⟩ left.levels), ?_⟩
  have hdepth := depth_of_calls (consistent_start settings source) pulls.calls
  have hstart : (start settings source).levels.depth = 0 := rfl
  refine isBalanced_append (opened_of_calls pulls.calls) ?_ ?_
  · rw [countOf_cons, hindent]
    rfl
  · rw [countOf_append, countOf_append, countOf_cons .dedent, countOf_cons .indent, hdedent,
      hindent, countOf_lexeme .dedent rfl, countOf_lexeme .indent rfl]
    omega

/-- The tokens of a text are a stream of blocks, and those in front of an error begin one.  After
any pulls, as many blocks are open as were opened and not closed. -/
theorem blocks_of_tokens (settings : Settings) (source : Source) :
    (∀ tokens, tokenize settings source = .ok tokens → IsStream 0 tokens ∧ IsBalanced tokens) ∧
      (∀ tokens left cause final, Pulls (start settings source) tokens left →
        next left = .error cause final →
        ∃ more, IsStream 0 (tokens ++ more) ∧ IsBalanced (tokens ++ more)) ∧
      ∀ tokens left, Calls (start settings source) tokens left →
        (countOf .indent tokens : ℤ) - countOf .dedent tokens = left.levels.toList.length - 1 := by
  refine ⟨fun tokens h => isStream_of_tokenize h,
    fun tokens left cause final pulls failure => exists_isStream_of_error pulls failure, ?_⟩
  intro tokens left calls
  have hdepth := depth_of_calls (consistent_start settings source) calls
  have hstart : (start settings source).levels.depth = 0 := rfl
  rw [Levels.length_toList]
  omega

theorem blocks_of_block_and_character :
    (IsStream 0 [⟨.name, some (.text "x"), "x", ⟨1, 1, "a"⟩⟩,
        ⟨.layout .newline, none, "\n", ⟨1, 2, "a"⟩⟩, ⟨.layout .indent, none, "", ⟨2, 1, "a"⟩⟩,
        ⟨.name, some (.text "y"), "y", ⟨2, 2, "a"⟩⟩, ⟨.layout .dedent, none, "", ⟨2, 3, "a"⟩⟩,
        ⟨.layout .eof, none, "", ⟨2, 3, "a"⟩⟩] ∧
      IsBalanced [⟨.name, some (.text "x"), "x", ⟨1, 1, "a"⟩⟩,
        ⟨.layout .newline, none, "\n", ⟨1, 2, "a"⟩⟩, ⟨.layout .indent, none, "", ⟨2, 1, "a"⟩⟩,
        ⟨.name, some (.text "y"), "y", ⟨2, 2, "a"⟩⟩, ⟨.layout .dedent, none, "", ⟨2, 3, "a"⟩⟩,
        ⟨.layout .eof, none, "", ⟨2, 3, "a"⟩⟩]) ∧
      ∃ left : Lexer, left.levels.toList = [1, 2] ∧
        (∃ more, IsStream 0 (⟨.layout .indent, none, "", ⟨1, 1, "a"⟩⟩ :: more) ∧
          IsBalanced (⟨.layout .indent, none, "", ⟨1, 1, "a"⟩⟩ :: more)) ∧
        (1 : ℤ) - 0 = left.levels.toList.length - 1 := by
  refine ⟨(blocks_of_tokens .standard ⟨"x\n y", "a"⟩).1 _ (by cbv), ?_⟩
  have content : IsContent ['?'] := ⟨'?', [], rfl, by decide, by decide, by decide⟩
  have indented : Indented [' ', '?'] [' '] ['?'] :=
    @indented_of_isContent [' '] _ (by simp [CharClass.has]) content
  have first := @Transition.indent (start .standard ⟨" ?", "a"⟩) [' '] ['?'] 2 rfl indented content
    rfl (by decide)
  have last := @Transition.unexpected
    (((((start .standard ⟨" ?", "a"⟩).ahead 1).within [2]).entering .inLine).noting (.indent 2 1))
    '?' [] rfl rfl content (by decide)
  have pulls := Pulls.cons (next_of_token rfl first) (.nil _)
  have failure := next_of_error rfl last
  obtain ⟨-, hcut, hdepth⟩ := blocks_of_tokens .standard ⟨" ?", "a"⟩
  exact ⟨_, rfl, hcut _ _ _ _ pulls failure, hdepth _ _ pulls.calls⟩

end Lexer

end Offside
