import Offside.Proofs.Lines.Agreement
import Offside.Proofs.Lines.Correspondence
import Offside.Proofs.Lines.Occurrence
import Offside.Proofs.Stream.Locations

/-!
# Blanks and comments inside lines

A text that has tokens keeps them where blanks are put in behind a lexeme, and where a comment is
put in in front of a line feed or at the end (`tokenize_insert_trivia`).  The tokens behind such a
place may move within their lines, but every token keeps its gist and its line.

## Strategy

Only one line changes.  That positions stay in the same line is a relation that reading on keeps,
so it is enough that this line agrees with itself.  Lexemes in front of the place stay the longest
ones where they are, because no longer lexeme could begin in front of a blank or a comment and go
on behind it; only string literals can hold such characters, and these end at their second quotes.

Blanks behind a lexeme do no harm even if the line has an error further on.  A comment could
complete a string literal that is not ended, so for comments it matters that there is no error
(`linesAgree_comment`).
-/

namespace Offside

open Lexeme Lines

/-- Whether positions are in the same line. -/
def IsSameLine (position position' : Position) : Prop := position.line = position'.line

theorem IsSameLine.refl (position : Position) : IsSameLine position position := rfl

theorem isSteady_sameLine (width width' : Int) : IsSteady width width' IsSameLine := by
  intro position position' c hc h
  unfold IsSameLine at h ⊢
  rw [position.line_moved width hc, position'.line_moved width' hc, h]

/-- The gist of a token, and the line where it stands. -/
def Token.lined (token : Token) : Gist × Int := (token.gist, token.location.line)

theorem Token.Agrees.lined_eq {token token' : Token} (h : Token.Agrees IsSameLine token token') :
    token'.lined = token.lined :=
  Prod.ext h.gist.symm h.near.symm

/-- The token is located behind `before`, and its text is between that and `after`. -/
structure Token.IsBetween (settings : Settings) (source : Source) (token : Token)
    (before after : List Char) : Prop where
  split : source.text.toList = before ++ (token.text.toList ++ after)
  position : Position.start.after settings.tabWidth before = token.location.position

/-- The text with the same name as the source has tokens with the same gists in the same lines. -/
def Source.KeepsTokens (settings : Settings) (source : Source) (tokens : List Token)
    (text : List Char) : Prop :=
  ∃ tokens', Lexer.tokenize settings ⟨String.ofList text, source.name⟩ = .ok tokens' ∧
    tokens'.map Token.lined = tokens.map Token.lined

namespace Lines

variable {settings : Settings} {name : String} {position : Position} {token : Token} {number : Int}

/-! ## Blanks behind a lexeme -/

/-- In front of a lexeme there is nothing if it stands where reading begins. -/
theorem eq_nil_of_after {before text : List Char} (begins : IsContent (before ++ text))
    (stands : position.after settings.tabWidth before = position) : before = [] := by
  cases before with
  | nil => rfl
  | cons c before =>
      obtain ⟨d, rest, hsplit, hblank, -, -⟩ := begins
      obtain ⟨rfl, -⟩ := List.cons.inj hsplit
      have hreturn : c ≠ '\r' := by
        rintro rfl
        exact absurd hblank (by decide)
      have hlt := Position.lt_after settings.tabWidth_pos
        (List.mem_cons_self (a := c) (l := before)) hreturn position
      exact absurd stands hlt.ne'

/-- A lexeme of a line is the first, and then nothing is in front of it, or the first is in front of
it. -/
theorem cases_of_mem {first shape : Shape} {before after : List Char}
    (longest : IsLongest first (before ++ (shape.text ++ after)))
    (htext : token.text = String.ofList shape.text)
    (stands : position.after settings.tabWidth before = token.location.position)
    (hmem : token ∈ (contents settings name position (before ++ (shape.text ++ after))).tokens) :
    before = [] ∧ shape.text = first.text ∨
      ∃ more, before = first.text ++ more ∧
        token ∈ (contents settings name (position.after settings.tabWidth first.text)
          (more ++ (shape.text ++ after))).tokens := by
  rw [contents_of_isLongest longest] at hmem
  cases hread : first.read settings (.ofPosition name position) with
  | error cause =>
      rw [hread] at hmem
      exact absurd hmem List.not_mem_nil
  | ok token' =>
      rw [hread] at hmem
      rcases List.mem_cons.mp hmem with rfl | hmem
      · left
        rw [Shape.location_of_read hread] at stands
        refine ⟨eq_nil_of_after (isContent_of_isLongest longest) stands, ?_⟩
        exact String.ofList_injective (htext.symm.trans (Shape.text_of_read hread))
      · right
        have hle := le_position_of_mem hmem
        rw [← stands] at hle
        obtain ⟨more, rfl⟩ := prefix_of_le_after longest.valid longest.prefixed
          (List.prefix_append before _) hle
        rw [List.append_assoc, List.drop_left] at hmem
        exact ⟨more, rfl, hmem⟩

/-- Blanks behind one of the lexemes of a line leave each of them in the line. -/
theorem agrees_contents_insert {shape : Shape} (valid : shape.IsValid)
    (htext : token.text = String.ofList shape.text) {before after run : List Char}
    (hrun : ∀ c ∈ run, CharClass.blank.has c) (hafter : '\n' ∉ after)
    (stands : position.after settings.tabWidth before = token.location.position)
    (hmem : token ∈ (contents settings name position (before ++ (shape.text ++ after))).tokens) :
    Reading.Agrees IsSameLine IsSameLine
      (contents settings name position (before ++ (shape.text ++ after)))
      (contents settings name position (before ++ (shape.text ++ (run ++ after)))) := by
  have steady := isSteady_sameLine settings.tabWidth settings.tabWidth
  generalize hsplit : before ++ (shape.text ++ after) = text at hmem ⊢
  fun_induction contents settings name position text generalizing before with
  | case1 position => exact absurd hmem List.not_mem_nil
  | case2 position c rest hc ih =>
      cases before with
      | nil =>
          obtain ⟨d, more, hshape, hd, -, -⟩ := isContent_text valid
          rw [List.nil_append, hshape] at hsplit
          obtain ⟨rfl, -⟩ := List.cons.inj hsplit
          simp [hd] at hc
      | cons d before =>
          obtain ⟨rfl, hrest⟩ := List.cons.inj hsplit
          rw [List.cons_append, contents_blank _ hc]
          exact ih stands hrest hmem
  | case3 position rest => exact absurd hmem List.not_mem_nil
  | case4 position c rest hblank hmark hnone => exact absurd hmem List.not_mem_nil
  | case5 position c rest hblank hmark first hfirst ih =>
      have longest := isLongest_of_longest? hfirst
      have hmem : token ∈
          (contents settings name position (before ++ (shape.text ++ after))).tokens := by
        rw [hsplit, contents_of_isLongest longest]
        exact hmem
      rw [← hsplit] at longest ih ⊢
      have hcases := cases_of_mem longest htext stands hmem
      -- In both cases the blanks come behind the first lexeme, which stays the longest.
      have hprefix : first.text <+: before ++ shape.text := by
        rcases hcases with ⟨rfl, hsame⟩ | ⟨more, rfl, -⟩
        · rw [hsame, List.nil_append]
        · rw [List.append_assoc]
          exact List.prefix_append first.text _
      rw [← List.append_assoc] at longest
      have longest' := isLongest_insert longest hprefix hrun
      rw [List.append_assoc] at longest'
      rw [contents_of_isLongest longest']
      apply agrees_lexeme first (.refl position)
      rcases hcases with ⟨rfl, hsame⟩ | ⟨more, rfl, hmore⟩
      · rw [List.nil_append, List.nil_append, ← hsame, List.drop_left, List.drop_left,
          contents_blanks _ hrun]
        apply agrees_contents (.refl settings) steady hafter
        exact (Position.line_after_of_not_mem (not_mem_of_blank hrun) _).symm
      · rw [Position.after_append] at stands
        rw [List.append_assoc, List.append_assoc, List.drop_left, List.drop_left]
        rw [List.append_assoc, List.drop_left] at ih
        exact ih stands rfl hmore

/-- A line agrees with itself with blanks behind one of its lexemes. -/
theorem linesAgree_insert {shape : Shape} (valid : shape.IsValid)
    (htext : token.text = String.ofList shape.text) {before after run leading body : List Char}
    (hrun : ∀ c ∈ run, CharClass.blank.has c) (hbefore : '\n' ∉ before) (hafter : '\n' ∉ after)
    (indented : Indented (before ++ (shape.text ++ after)) leading body) (begins : IsContent body)
    (stands : (⟨number, 1⟩ : Position).after settings.tabWidth before = token.location.position)
    (hmem : token ∈ (contents settings name
      ((⟨number, 1⟩ : Position).after settings.tabWidth leading) body).tokens) :
    LinesAgree settings name IsSameLine number number (before ++ (shape.text ++ after))
      (before ++ (shape.text ++ (run ++ after))) := by
  have hshape := Shape.not_mem_text valid
  obtain ⟨more, rfl⟩ := indented.prefix_of_isContent ((isContent_text valid).append after)
  have hbody : more ++ (shape.text ++ after) = body := by
    have hsplit := indented.split
    rw [List.append_assoc] at hsplit
    exact List.append_cancel_left hsplit
  subst hbody
  have begins' : IsContent (more ++ (shape.text ++ (run ++ after))) := by
    rw [← List.append_assoc] at begins ⊢
    exact (begins.of_append (by simp [Shape.text_ne_nil valid])).append _
  have indented' : Indented (leading ++ more ++ (shape.text ++ (run ++ after))) leading
      (more ++ (shape.text ++ (run ++ after))) := by
    rw [List.append_assoc]
    exact indented_of_isContent indented.blank begins'
  rw [Position.after_append] at stands
  apply linesAgree_of_contents (.refl _) indented indented' begins begins'
  · exact agrees_contents_insert valid htext hrun hafter stands hmem
  · have hline := List.not_mem_append hbefore (List.not_mem_append hshape hafter)
    have hline' := List.not_mem_append hbefore
      (List.not_mem_append hshape (List.not_mem_append (not_mem_of_blank hrun) hafter))
    unfold IsSameLine
    rw [Position.line_after_of_not_mem hline, Position.line_after_of_not_mem hline']

/-! ## A comment behind a line -/

theorem isSilent_of_isComment {comment : List Char} (h : IsComment comment) :
    IsSilent settings name comment where
  blank := h.isBlank
  contents position := by
    rcases h with rfl | ⟨body, rfl, -⟩
    · exact contents_nil position
    · exact contents_comment position body

/-- A line of which the lexemes are all read agrees with itself with a comment behind it. -/
theorem linesAgree_comment {line comment : List Char} (hline : '\n' ∉ line)
    (hcomment : IsComment comment)
    (stops : ∀ run body, Indented line run body → IsContent body → ∃ stop,
      (contents settings name
        ((⟨number, 1⟩ : Position).after settings.tabWidth run) body).result = .ok stop) :
    LinesAgree settings name IsSameLine number number line (line ++ comment) := by
  apply linesAgree_append (isSteady_sameLine _ _) .refl hline (isSilent_of_isComment hcomment)
  · intro run body indented begins
    exact Or.inl (stops run body indented begins)
  · unfold IsSameLine
    rw [Position.line_after_of_not_mem hline,
      Position.line_after_of_not_mem (List.not_mem_append hline hcomment.not_mem)]

/-! ## Texts -/

variable {source : Source} {tokens : List Token}

/-- A change of one line of a text, if the line agrees with the other. -/
theorem keepsTokens_change (h : Lexer.tokenize settings source = .ok tokens)
    {above : List (List Char)} {line line' tail : List Char}
    (split : source.text.toList = ended above ++ (line ++ tail))
    (habove : ∀ line ∈ above, '\n' ∉ line) (hline : '\n' ∉ line) (hline' : '\n' ∉ line')
    (htail : IsLineTail tail)
    (changed : LinesAgree settings source.name IsSameLine (1 + above.length) (1 + above.length)
      line line') :
    source.KeepsTokens settings tokens (ended above ++ (line' ++ tail)) := by
  obtain ⟨behind, hbehind⟩ := exists_splitOn_of_lineTail htail
  have hbelow : ∀ line ∈ behind, '\n' ∉ line := by
    intro other hmem
    have hsplit := hbehind [] List.not_mem_nil
    exact not_mem_of_mem_splitOn (hsplit ▸ List.mem_cons_of_mem [] hmem)
  have agrees : Reading.Agrees IsSameLine Eq (Lines.read settings source)
      (Lines.read settings ⟨String.ofList (ended above ++ (line' ++ tail)), source.name⟩) := by
    unfold Lines.read
    rw [split, String.toList_ofList, splitOn_ended_append habove, splitOn_ended_append habove,
      hbehind line hline, hbehind line' hline']
    exact agrees_change (isSteady_sameLine _ _) habove hbelow (fun _ => .refl _) changed
  rw [Lexer.tokenize_eq_reported] at h
  obtain ⟨tokens', hwhole, htokens⟩ := agrees.exists_of_whole h
  refine ⟨tokens', ?_, map_eq_of_agrees (fun _ _ => Token.Agrees.lined_eq) htokens⟩
  rw [Lexer.tokenize_eq_reported, hwhole]

/-- Blanks behind the text of a lexeme. -/
theorem keepsTokens_insert (h : Lexer.tokenize settings source = .ok tokens) (hmem : token ∈ tokens)
    (content : token.kind.isLayout = false) {before after run : List Char}
    (between : token.IsBetween settings source before after)
    (hrun : ∀ c ∈ run, CharClass.blank.has c) :
    source.KeepsTokens settings tokens (before ++ (token.text.toList ++ (run ++ after))) := by
  obtain ⟨above, front, rfl, habove, hfront⟩ := exists_ended before
  obtain ⟨rest, tail, rfl, hrest, htail⟩ := exists_lineTail after
  obtain ⟨behind, hbehind⟩ := exists_splitOn_of_lineTail htail
  -- The token comes from the lexemes of some line, which is told by its number.
  have htokens : token ∈ (Lines.read settings source).tokens := by
    rwa [Lexer.read_of_tokenize h]
  obtain ⟨index, line, leading, body, hindex, indented, begins, hcontents⟩ :=
    exists_contents_of_mem (fun _ => not_mem_of_mem_splitOn) content htokens
  obtain ⟨shape, valid, htext⟩ := exists_shape_of_mem hcontents
  have hshape := Shape.not_mem_text valid
  have hline : '\n' ∉ front ++ (shape.text ++ rest) :=
    List.not_mem_append hfront (List.not_mem_append hshape hrest)
  have hsplit : source.text.toList =
      ended above ++ ((front ++ (shape.text ++ rest)) ++ tail) := by
    rw [between.split, htext, String.toList_ofList]
    simp only [List.append_assoc]
  have stands : (⟨1 + above.length, 1⟩ : Position).after settings.tabWidth front =
      token.location.position := by
    rw [← between.position, Position.after_append, Position.start,
      after_ended settings.tabWidth habove]
  have hnumber : index = above.length := by
    have hlocation := ((inLine_contents _ _).1 token hcontents).2
    rw [Position.line_after_of_not_mem (not_mem_of_blank indented.blank)] at hlocation
    have hposition := congrArg Position.line stands
    rw [Position.line_after_of_not_mem hfront] at hposition
    have hsame : (1 : Int) + above.length = 1 + index := hposition.trans hlocation
    omega
  subst hnumber
  have hline' : line = front ++ (shape.text ++ rest) := by
    rw [hsplit, splitOn_ended_append habove, hbehind _ hline,
      List.getElem?_append_right le_rfl, Nat.sub_self] at hindex
    exact (Option.some.inj hindex).symm
  subst hline'
  have changed := linesAgree_insert valid htext hrun hfront hrest indented begins stands hcontents
  have hwider : '\n' ∉ front ++ (shape.text ++ (run ++ rest)) :=
    List.not_mem_append hfront (List.not_mem_append hshape
      (List.not_mem_append (not_mem_of_blank hrun) hrest))
  have keeps := keepsTokens_change h hsplit habove hline hwider htail changed
  rw [htext, String.toList_ofList]
  simpa only [List.append_assoc] using keeps

/-- A comment in front of a line feed, or at the end. -/
theorem keepsTokens_comment (h : Lexer.tokenize settings source = .ok tokens)
    {before after comment : List Char} (split : source.text.toList = before ++ after)
    (htail : IsLineTail after) (hcomment : IsComment comment) :
    source.KeepsTokens settings tokens (before ++ (comment ++ after)) := by
  obtain ⟨above, front, rfl, habove, hfront⟩ := exists_ended before
  obtain ⟨behind, hbehind⟩ := exists_splitOn_of_lineTail htail
  rw [List.append_assoc] at split ⊢
  rw [← List.append_assoc front comment]
  apply keepsTokens_change h split habove hfront
    (List.not_mem_append hfront hcomment.not_mem) htail
  apply linesAgree_comment hfront hcomment
  intro run body indented begins
  have hread := Lexer.read_of_tokenize h
  unfold Lines.read at hread
  have hindex : (source.text.toList.splitOn '\n')[above.length]? = some front := by
    rw [split, splitOn_ended_append habove, hbehind front hfront,
      List.getElem?_append_right le_rfl, Nat.sub_self]
    rfl
  exact exists_stop_of_ok (congrArg Reading.result hread) hindex indented begins

end Lines

namespace Lexer

variable {settings : Settings} {source : Source} {tokens : List Token}

/-- Every token that is no mark stands somewhere in the text. -/
theorem exists_isBetween {lexer left : Lexer} (pulls : Pulls lexer tokens left)
    (consistent : Consistent settings source lexer) :
    ∀ token ∈ tokens, token.kind.isLayout = false →
      ∃ before after, token.IsBetween settings source before after := by
  induction pulls with
  | nil lexer => simp
  | @cons lexer middle left first tokens pull more ih =>
      intro token hmem content
      rcases List.mem_cons.mp hmem with rfl | hmem
      · obtain ⟨inner, skipped, lead, passage⟩ := exists_passage consistent pull
        obtain rfl : lead = [] := by
          cases passage.gives.origin with
          | content kind => rfl
          | newline kind => simp [kind, Kind.isLayout] at content
          | line kind => rcases kind with kind | kind <;> simp [kind, Kind.isLayout] at content
          | ending kind => rfl
        refine ⟨inner.cursor.before.reverse, middle.cursor.rest, ?_, ?_⟩
        · rw [← passage.inside.text, passage.gives.passes.rest, List.nil_append]
        · rw [passage.position_eq, passage.inside.position, passage.inside.settings]
      · exact ih (consistent.of_next pull) token hmem content

/-- Blanks behind the text of a lexeme and comments at the ends of lines leave a text its tokens. -/
theorem tokenize_insert_trivia (h : tokenize settings source = .ok tokens) :
    (∀ token ∈ tokens, token.kind.isLayout = false →
      (∃ before after, token.IsBetween settings source before after) ∧
      ∀ before after run, token.IsBetween settings source before after →
        (∀ c ∈ run, CharClass.blank.has c) →
        source.KeepsTokens settings tokens (before ++ (token.text.toList ++ (run ++ after)))) ∧
    ∀ before after comment, source.text.toList = before ++ after → IsLineTail after →
      IsComment comment → source.KeepsTokens settings tokens (before ++ (comment ++ after)) := by
  obtain ⟨left, pulls⟩ := exists_pulls_of_tokenize h
  refine ⟨?_, ?_⟩
  · intro token hmem content
    refine ⟨exists_isBetween pulls (consistent_start settings source) token hmem content, ?_⟩
    intro before after run between hrun
    exact keepsTokens_insert h hmem content between hrun
  · intro before after comment split htail hcomment
    exact keepsTokens_comment h split htail hcomment

/-- Blanks behind an operator, and a comment with a quote in it. -/
theorem tokenize_insert_blank_and_comment :
    ∃ tokens, tokenize .standard ⟨"x+=1\n", "a"⟩ = .ok tokens ∧
      (⟨"x+=1\n", "a"⟩ : Source).KeepsTokens .standard tokens
        (['x'] ++ ("+=".toList ++ (['\r', '\t'] ++ ['1', '\n']))) ∧
      (⟨"x+=1\n", "a"⟩ : Source).KeepsTokens .standard tokens
        (['x', '+', '=', '1'] ++ (['#', '"'] ++ ['\n'])) := by
  have h : tokenize .standard ⟨"x+=1\n", "a"⟩ =
      .ok [⟨.name, some (.text "x"), "x", ⟨1, 1, "a"⟩⟩,
        ⟨.operator .plusAssign, none, "+=", ⟨1, 2, "a"⟩⟩,
        ⟨.number, some (.int 1), "1", ⟨1, 4, "a"⟩⟩,
        ⟨.layout .newline, none, "\n", ⟨1, 5, "a"⟩⟩, ⟨.layout .eof, none, "", ⟨2, 1, "a"⟩⟩] := by
    cbv
  have between : Token.IsBetween .standard ⟨"x+=1\n", "a"⟩
      ⟨.operator .plusAssign, none, "+=", ⟨1, 2, "a"⟩⟩ ['x'] ['1', '\n'] :=
    ⟨by decide, by decide⟩
  have split : "x+=1\n".toList = ['x', '+', '=', '1'] ++ ['\n'] := by decide
  have comment : IsComment ['#', '"'] := Or.inr ⟨['"'], rfl, by simp⟩
  obtain ⟨lexemes, comments⟩ := tokenize_insert_trivia h
  refine ⟨_, h, ?_, ?_⟩
  · apply (lexemes _ (List.mem_cons_of_mem _ (List.mem_cons_self ..)) rfl).2 _ _ _ between
    simp [CharClass.has]
  · exact comments _ _ _ split (Or.inr ⟨[], rfl⟩) comment

end Lexer

end Offside
