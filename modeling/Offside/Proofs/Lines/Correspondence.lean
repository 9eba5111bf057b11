import Mathlib.Data.List.Forall2
import Offside.Proofs.Lines.Splitting
import Offside.Proofs.Lines.Trivia
import Offside.Proofs.Program.Basic

/-!
# Readings that correspond

Two texts may be read to tokens that differ in nothing but where they stand.  How far apart they
may stand is left to a relation of positions, `near`: the same position, the same line, or the same
position some lines further down.  `Reading.Agrees` compares readings in this way, token by token,
and then their values or their errors.  The two readings may take tabs to have different widths.

## Strategy

All that is asked of the relation is that reading on in a line keeps it (`IsSteady`).  Readings are
then compared as they are composed: a lexeme, the lexemes of a line, a line, and the lines of a
text.  Lines that agree wherever they are read make up texts that agree, so a change of a text has
to be understood only in the lines that it touches (`agrees_append`).
-/

namespace Offside

open Lexeme

/-- Tokens with the same gist, in texts of the same name and at positions that `near` relates. -/
structure Token.Agrees (near : Position → Position → Prop) (token token' : Token) : Prop where
  gist : token.gist = token'.gist
  file : token.location.file = token'.location.file
  near : near token.location.position token'.location.position

/-- Errors with the same cause, and at positions that `near` relates if they are located at all. -/
inductive Lexer.Error.Agrees (near : Position → Position → Prop) : Lexer.Error → Lexer.Error → Prop
  | decoding (cause : DecodeError) : Agrees near (.decoding cause) (.decoding cause)
  | located (cause : LexError.Cause) (file : String) {position position' : Position}
      (h : near position position') :
      Agrees near (.at cause (.ofPosition file position)) (.at cause (.ofPosition file position'))

/-- Errors that agree at the same positions are the same. -/
theorem Lexer.Error.Agrees.eq {cause cause' : Lexer.Error}
    (h : Lexer.Error.Agrees Eq cause cause') : cause' = cause := by
  cases h with
  | decoding cause => rfl
  | located cause file same => rw [same]

/-- Faults with the same cause, and at positions that `near` relates if they are located at all. -/
inductive Fault.Agrees (near : Position → Position → Prop) : Fault → Fault → Prop
  | decoding (cause : DecodeError) : Agrees near (.decoding cause) (.decoding cause)
  | located (cause : LexError.Cause) (file : String) {position position' : Position}
      (h : near position position') :
      Agrees near (.lexical cause (.ofPosition file position))
        (.lexical cause (.ofPosition file position'))

/-- Faults that agree are reported as errors that do. -/
theorem Fault.Agrees.reported {near : Position → Position → Prop} {fault fault' : Fault}
    (h : Fault.Agrees near fault fault') :
    Lexer.Error.Agrees near fault.reported fault'.reported := by
  cases h with
  | decoding cause => exact .decoding cause
  | located cause file related => exact .located cause file related

/-- Readings that give agreeing tokens, and then related values or agreeing faults. -/
inductive Reading.Agrees {α : Type} (near : Position → Position → Prop) (related : α → α → Prop) :
    Reading Fault α → Reading Fault α → Prop
  | ok {tokens tokens' : List Token} {a a' : α}
      (all : List.Forall₂ (Token.Agrees near) tokens tokens') (value : related a a') :
      Agrees near related ⟨tokens, .ok a⟩ ⟨tokens', .ok a'⟩
  | error {tokens tokens' : List Token} {fault fault' : Fault}
      (all : List.Forall₂ (Token.Agrees near) tokens tokens')
      (stopped : Fault.Agrees near fault fault') :
      Agrees near related ⟨tokens, .error fault⟩ ⟨tokens', .error fault'⟩

/-- Settings that differ in the width of a tab at most. -/
structure Settings.Alike (settings settings' : Settings) : Prop where
  maxInt : settings.maxInt = settings'.maxInt
  decoder : settings.decoder = settings'.decoder

theorem Settings.Alike.refl (settings : Settings) : settings.Alike settings := ⟨rfl, rfl⟩

/-- The width of a tab has no part in what a lexeme makes. -/
theorem Settings.Alike.read_eq {settings settings' : Settings} (alike : settings.Alike settings')
    (shape : Shape) (location : Location) :
    shape.read settings' location = shape.read settings location := by
  obtain ⟨width, maxInt, decoder, _, _⟩ := settings
  obtain ⟨width', maxInt', decoder', _, _⟩ := settings'
  obtain ⟨rfl, rfl⟩ : maxInt = maxInt' ∧ decoder = decoder' := ⟨alike.maxInt, alike.decoder⟩
  cases shape <;> rfl

/-- Reading a character that is no line feed keeps positions related, whichever width of a tab goes
with which of them. -/
def IsSteady (width width' : Int) (near : Position → Position → Prop) : Prop :=
  ∀ position position' c, c ≠ '\n' → near position position' →
    near (position.moved width (.ofChar c)) (position'.moved width' (.ofChar c))

/-- So does reading a text without line feeds. -/
theorem IsSteady.after {width width' : Int} {near : Position → Position → Prop}
    (steady : IsSteady width width' near) {text : List Char} (htext : '\n' ∉ text)
    {position position' : Position} (h : near position position') :
    near (position.after width text) (position'.after width' text) := by
  induction text generalizing position position' with
  | nil => exact h
  | cons c text ih =>
      obtain ⟨hc, htext⟩ := List.ne_and_not_mem_of_not_mem_cons htext
      exact ih htext (steady _ _ c hc.symm h)

/-- What can be said of those tokens of two lists that agree can be said of the lists. -/
theorem map_eq_of_mem {near : Position → Position → Prop} {γ : Type} {view view' : Token → γ}
    {tokens tokens' : List Token} (h : List.Forall₂ (Token.Agrees near) tokens tokens')
    (hview : ∀ token ∈ tokens, ∀ token' ∈ tokens', Token.Agrees near token token' →
      view' token' = view token) :
    tokens'.map view' = tokens.map view := by
  induction h with
  | nil => rfl
  | cons first more ih =>
      rw [List.map_cons, List.map_cons,
        hview _ (List.mem_cons_self ..) _ (List.mem_cons_self ..) first]
      congr 1
      apply ih
      intro token hmem token' hmem'
      exact hview token (List.mem_cons_of_mem _ hmem) token' (List.mem_cons_of_mem _ hmem')

/-- What can be said of tokens that agree can be said of lists of them. -/
theorem map_eq_of_agrees {near : Position → Position → Prop} {γ : Type} {view view' : Token → γ}
    (hview : ∀ token token', Token.Agrees near token token' → view' token' = view token)
    {tokens tokens' : List Token} (h : List.Forall₂ (Token.Agrees near) tokens tokens') :
    tokens'.map view' = tokens.map view :=
  map_eq_of_mem h fun token _ token' _ => hview token token'

/-! ## How readings are composed -/

namespace Reading.Agrees

variable {near : Position → Position → Prop} {α β : Type} {related : α → α → Prop}
  {related' : β → β → Prop} {reading reading' : Reading Fault α} {tokens tokens' : List Token}

theorem preceded (htokens : List.Forall₂ (Token.Agrees near) tokens tokens')
    (h : Agrees near related reading reading') :
    Agrees near related (reading.preceded tokens) (reading'.preceded tokens') := by
  cases h with
  | ok more value => exact .ok (List.rel_append htokens more) value
  | error more stopped => exact .error (List.rel_append htokens more) stopped

theorem bind {f f' : α → Reading Fault β} (h : Agrees near related reading reading')
    (next : ∀ a a', related a a' → Agrees near related' (f a) (f' a')) :
    Agrees near related' (reading >>= f) (reading' >>= f') := by
  cases h with
  | ok all value => exact (next _ _ value).preceded all
  | error all stopped => exact .error all stopped

/-- A reading agrees with one that succeeds only if it succeeds. -/
theorem exists_of_whole {reading reading' : Reading Fault Unit} {related : Unit → Unit → Prop}
    (h : Agrees near related reading reading') (hwhole : reading.reported.whole = .ok tokens) :
    ∃ tokens', reading'.reported.whole = .ok tokens' ∧
      List.Forall₂ (Token.Agrees near) tokens tokens' := by
  cases h with
  | ok all value =>
      obtain rfl := Except.ok.inj hwhole
      exact ⟨_, rfl, all⟩
  | error all stopped => cases hwhole

/-- A reading agrees with one that fails only if it fails. -/
theorem exists_of_whole_error {reading reading' : Reading Fault Unit}
    {related : Unit → Unit → Prop} (h : Agrees near related reading reading')
    {cause : Lexer.Error} (hwhole : reading.reported.whole = .error cause) :
    ∃ cause', reading'.reported.whole = .error cause' ∧ Lexer.Error.Agrees near cause cause' := by
  cases h with
  | ok all value => cases hwhole
  | error all stopped =>
      obtain rfl := Except.error.inj hwhole
      exact ⟨_, rfl, stopped.reported⟩

/-- What can be said of tokens and errors that agree can be said of the readings. -/
theorem map_whole {γ : Type} {view view' : Token → γ} {change : Lexer.Error → Lexer.Error}
    {reading reading' : Reading Fault Unit} {related : Unit → Unit → Prop}
    (h : Agrees near related reading reading')
    (hview : ∀ token token', Token.Agrees near token token' → view' token' = view token)
    (hchange : ∀ cause cause', Lexer.Error.Agrees near cause cause' → cause' = change cause) :
    reading'.reported.whole.map (List.map view') =
      (reading.reported.whole.map (List.map view)).mapError change := by
  cases h with
  | ok all value => exact congrArg Except.ok (map_eq_of_agrees hview all)
  | error all stopped => exact congrArg Except.error (hchange _ _ stopped.reported)

/-- Readings that agree at the same positions are the same to every view of their tokens. -/
theorem map_whole_eq {γ : Type} {view : Token → γ} {reading reading' : Reading Fault Unit}
    {related : Unit → Unit → Prop} (h : Agrees Eq related reading reading')
    (hview : ∀ token token', Token.Agrees Eq token token' → view token' = view token) :
    reading'.reported.whole.map (List.map view) = reading.reported.whole.map (List.map view) := by
  cases h with
  | ok all value => exact congrArg Except.ok (map_eq_of_agrees hview all)
  | error all stopped => exact congrArg Except.error stopped.reported.eq

end Reading.Agrees

namespace Lines

variable {settings settings' : Settings} {name : String} {near : Position → Position → Prop}
  {position position' : Position}

/-! ## Lexemes -/

theorem agrees_mark (h : near position position') (layout : Layout) :
    Token.Agrees near (mark name position layout) (mark name position' layout) where
  gist := by rw [gist_mark, gist_mark]
  file := rfl
  near := h

theorem agrees_marks (h : near position position') (marks : List Layout) :
    List.Forall₂ (Token.Agrees near) (marks.map (mark name position))
      (marks.map (mark name position')) := by
  induction marks with
  | nil => exact .nil
  | cons layout marks ih => exact .cons (agrees_mark h layout) ih

/-- As many blocks are closed with as many marks. -/
theorem agrees_closing (h : near position position') {levels levels' : Levels}
    (depth : levels.depth = levels'.depth) :
    List.Forall₂ (Token.Agrees near) (closing name position levels)
      (closing name position' levels') := by
  have hmarks := @agrees_marks name near _ _ h (List.replicate levels.depth .dedent ++ [.eof])
  unfold closing
  rw [List.map_const', List.map_const', ← Levels.depth, ← Levels.depth, ← depth]
  rw [List.map_append, List.map_append, List.map_replicate, List.map_replicate] at hmarks
  exact hmarks

/-- A lexeme is read where it is the longest. -/
theorem contents_of_isLongest {shape : Shape} {text : List Char} (longest : IsLongest shape text) :
    contents settings name position text =
      (do
        let token ← Reading.ofExcept (shape.read settings (.ofPosition name position))
        Reading.emit [token]
        contents settings name (position.after settings.tabWidth shape.text)
          (text.drop shape.text.length)) :=
  contents_lexeme position (isContent_of_isLongest longest) (longest?_eq_some longest)

/-- A lexeme makes the same token, or fails in the same way. -/
theorem agrees_read (shape : Shape) (h : near position position') :
    Reading.Agrees near (Token.Agrees near)
      (.ofExcept (shape.read settings (.ofPosition name position)))
      (.ofExcept (shape.read settings (.ofPosition name position'))) := by
  unfold Shape.read
  split
  · exact .error .nil (.located _ name h)
  · cases shape.value settings with
    | ok value => exact .ok .nil ⟨rfl, rfl, h⟩
    | error cause => exact .error .nil (.decoding cause)

/-- A lexeme, and then what follows it. -/
theorem agrees_lexeme (shape : Shape) (h : near position position')
    {reading reading' : Reading Fault Position} (next : Reading.Agrees near near reading reading') :
    Reading.Agrees near near
      (do
        let token ← Reading.ofExcept (shape.read settings (.ofPosition name position))
        Reading.emit [token]
        reading)
      (do
        let token ← Reading.ofExcept (shape.read settings (.ofPosition name position'))
        Reading.emit [token]
        reading') := by
  apply (agrees_read shape h).bind
  intro token token' htoken
  exact next.preceded (.cons htoken .nil)

/-- The same lexemes, read from related positions on. -/
theorem agrees_contents (alike : settings.Alike settings')
    (steady : IsSteady settings.tabWidth settings'.tabWidth near) {text : List Char}
    (htext : '\n' ∉ text) (h : near position position') :
    Reading.Agrees near near (contents settings name position text)
      (contents settings' name position' text) := by
  fun_induction contents settings name position text generalizing position' with
  | case1 position =>
      rw [contents_nil]
      exact .ok .nil h
  | case2 position c rest hc ih =>
      rw [contents_blank _ hc]
      exact ih (mt (List.mem_cons_of_mem c) htext) (steady _ _ _ (ne_feed_of_blank hc) h)
  | case3 position rest =>
      rw [contents_comment]
      exact .ok .nil h
  | case4 position c rest hblank hmark hnone =>
      have content : IsContent (c :: rest) :=
        ⟨c, rest, rfl, by simpa using hblank, fun heq => htext (by simp [heq]), hmark⟩
      rw [contents_unexpected _ content hnone]
      exact .error .nil (.located _ name h)
  | case5 position c rest hblank hmark shape hshape ih =>
      have content : IsContent (c :: rest) :=
        ⟨c, rest, rfl, by simpa using hblank, fun heq => htext (by simp [heq]), hmark⟩
      have hrest : '\n' ∉ (c :: rest).drop shape.text.length := fun hmem =>
        htext (List.mem_of_mem_drop hmem)
      have hnot := Shape.not_mem_text (isLongest_of_longest? hshape).valid
      rw [contents_lexeme _ content hshape, alike.read_eq]
      exact agrees_lexeme shape h (ih hrest (steady.after hnot h))

/-! ## Lines -/

variable {number number' : Int} {line line' run run' body body' : List Char}
  {levels levels' reached reached' : Levels} {following following' : Option (List Char)}
  {marks : List Layout} {level level' : Int}

/-- Lines that agree, whatever blocks are open and whatever line follows, if one does. -/
structure LinesAgree (settings : Settings) (name : String) (near : Position → Position → Prop)
    (number number' : Int) (line line' : List Char) : Prop where
  reading : ∀ levels following following', (following = none ↔ following' = none) →
    Reading.Agrees near Eq (readLine settings name number levels line following)
      (readLine settings name number' levels line' following')
  stop : near ((⟨number, 1⟩ : Position).after settings.tabWidth line)
    ((⟨number', 1⟩ : Position).after settings.tabWidth line')

/-- Lines without lexemes agree. -/
theorem linesAgree_of_isBlank (blank : IsBlank line) (blank' : IsBlank line')
    (stop : near ((⟨number, 1⟩ : Position).after settings.tabWidth line)
      ((⟨number', 1⟩ : Position).after settings.tabWidth line')) :
    LinesAgree settings name near number number' line line' where
  reading levels following following' _ := by
    rw [readLine_of_isBlank blank, readLine_of_isBlank blank']
    exact .ok .nil rfl
  stop := stop

/-- Lines with lexemes agree if they open and close the same blocks and their lexemes agree. -/
theorem agrees_readLine {related : Levels → Levels → Prop} (starts : near ⟨number, 1⟩ ⟨number', 1⟩)
    (indented : Indented line run body) (indented' : Indented line' run' body')
    (content : IsContent body) (content' : IsContent body')
    (reaches : Indentation.column settings.tabWidth run = .ok level)
    (reaches' : Indentation.column settings'.tabWidth run' = .ok level')
    (arranged : arrange levels level = (marks, reached))
    (arranged' : arrange levels' level' = (marks, reached'))
    (resolved : reached.top = level ↔ reached'.top = level') (arrived : related reached reached')
    (agrees : Reading.Agrees near near
      (contents settings name ((⟨number, 1⟩ : Position).after settings.tabWidth run) body)
      (contents settings' name ((⟨number', 1⟩ : Position).after settings'.tabWidth run') body'))
    (ends : following = none ↔ following' = none) :
    Reading.Agrees near related (readLine settings name number levels line following)
      (readLine settings' name number' levels' line' following') := by
  rw [← Reading.bind_pure (readLine settings name number levels line following),
    ← Reading.bind_pure (readLine settings' name number' levels' line' following'),
    readLine_bind indented content reaches arranged,
    readLine_bind indented' content' reaches' arranged']
  apply Reading.Agrees.preceded (agrees_marks starts marks)
  by_cases hlevel : reached.top = level
  · rw [if_neg (not_not.mpr hlevel), if_neg (not_not.mpr (resolved.mp hlevel))]
    apply agrees.bind
    intro position position' hposition
    cases following with
    | none =>
        rw [ends.mp rfl]
        exact .ok .nil arrived
    | some next =>
        obtain ⟨next', rfl⟩ := Option.ne_none_iff_exists'.mp (mt ends.mpr (by simp))
        exact .ok (.cons ⟨rfl, rfl, hposition⟩ .nil) arrived
  · rw [if_pos hlevel, if_pos (mt resolved.mpr hlevel)]
    exact .error .nil (.located _ name starts)

/-- Lines with lexemes agree if their columns do and their lexemes do. -/
theorem linesAgree_of_contents (starts : near ⟨number, 1⟩ ⟨number', 1⟩)
    (indented : Indented line run body) (indented' : Indented line' run body')
    (content : IsContent body) (content' : IsContent body')
    (agrees : Reading.Agrees near near
      (contents settings name ((⟨number, 1⟩ : Position).after settings.tabWidth run) body)
      (contents settings name ((⟨number', 1⟩ : Position).after settings.tabWidth run) body'))
    (stop : near ((⟨number, 1⟩ : Position).after settings.tabWidth line)
      ((⟨number', 1⟩ : Position).after settings.tabWidth line')) :
    LinesAgree settings name near number number' line line' where
  reading levels following following' ends := by
    obtain ⟨level, marks, reached, reaches, arranged⟩ := exists_arrange settings levels run
    exact agrees_readLine starts indented indented' content content' reaches reaches arranged
      arranged Iff.rfl rfl agrees ends
  stop := stop

/-- Lines agree if neither has a lexeme, or if the one has the lexemes of the other behind the same
blanks. -/
theorem linesAgree_of_cases (starts : near ⟨number, 1⟩ ⟨number', 1⟩) (hline : '\n' ∉ line)
    (blank : IsBlank line → IsBlank line')
    (content : ∀ run body, Indented line run body → IsContent body →
      ∃ body', Indented line' run body' ∧ IsContent body' ∧
        Reading.Agrees near near
          (contents settings name ((⟨number, 1⟩ : Position).after settings.tabWidth run) body)
          (contents settings name ((⟨number', 1⟩ : Position).after settings.tabWidth run) body'))
    (stop : near ((⟨number, 1⟩ : Position).after settings.tabWidth line)
      ((⟨number', 1⟩ : Position).after settings.tabWidth line')) :
    LinesAgree settings name near number number' line line' := by
  rcases line_cases hline with hblank | ⟨run, body, indented, hcontent, -⟩
  · exact linesAgree_of_isBlank hblank (blank hblank) stop
  · obtain ⟨body', indented', hcontent', agrees⟩ := content run body indented hcontent
    exact linesAgree_of_contents starts indented indented' hcontent hcontent' agrees stop

/-- A line agrees with itself, wherever related positions it is read from. -/
theorem linesAgree_self (steady : IsSteady settings.tabWidth settings.tabWidth near)
    (hline : '\n' ∉ line) (starts : near ⟨number, 1⟩ ⟨number', 1⟩) :
    LinesAgree settings name near number number' line line := by
  apply linesAgree_of_cases starts hline id _ (steady.after hline starts)
  intro run body indented content
  have hsplit : '\n' ∉ run ++ body := indented.split ▸ hline
  obtain ⟨hrun, hbody⟩ := not_or.mp (mt List.mem_append.mpr hsplit)
  exact ⟨body, indented, content,
    agrees_contents (.refl settings) steady hbody (steady.after hrun starts)⟩

/-! ## Lines that go on without lexemes -/

variable {tail : List Char}

/-- No lexeme is in `tail`, and no position is changed by it. -/
structure IsSilent (settings : Settings) (name : String) (tail : List Char) : Prop where
  blank : IsBlank tail
  contents : ∀ position, contents settings name position tail = pure position

/-- Lexemes that are followed by `tail` do not go on there, because all of them were read, or
because no lexeme holds what `tail` begins with. -/
def IsClosed (reading : Reading Fault Position) (tail : List Char) : Prop :=
  (∃ stop, reading.result = .ok stop) ∨
    ∀ c rest, tail = c :: rest → CharClass.stringStop.has c

/-- The lexemes of a line are the same if the line goes on without lexemes. -/
theorem contents_append (silent : IsSilent settings name tail) {text : List Char}
    (htext : '\n' ∉ text) (closed : IsClosed (contents settings name position text) tail) :
    contents settings name position (text ++ tail) = contents settings name position text := by
  fun_induction contents settings name position text with
  | case1 position => exact silent.contents position
  | case2 position c rest hc ih =>
      rw [List.cons_append, contents_blank _ hc]
      exact ih (mt (List.mem_cons_of_mem c) htext) closed
  | case3 position rest => rw [List.cons_append, contents_comment]
  | case4 position c rest hblank hmark hnone =>
      have content : IsContent (c :: rest) :=
        ⟨c, rest, rfl, by simpa using hblank, fun heq => htext (by simp [heq]), hmark⟩
      rcases closed with ⟨stop, hstop⟩ | hstop
      · simp [Reading.stop] at hstop
      · rw [← longest?_append_of_stop hstop] at hnone
        exact contents_unexpected _ (content.append tail) hnone
  | case5 position c rest hblank hmark shape hshape ih =>
      have longest := isLongest_of_longest? hshape
      have hrest : '\n' ∉ (c :: rest).drop shape.text.length := fun hmem =>
        htext (List.mem_of_mem_drop hmem)
      rw [contents_of_isLongest (isLongest_append longest silent.blank.isApart),
        List.drop_append_of_le_length longest.prefixed.length_le]
      cases hread : shape.read settings (.ofPosition name position) with
      | error cause => rfl
      | ok token =>
          rw [hread] at closed
          rw [ih hrest closed]

/-- A line agrees with itself where it goes on without lexemes. -/
theorem linesAgree_append (steady : IsSteady settings.tabWidth settings.tabWidth near)
    (refl : ∀ position, near position position) (hline : '\n' ∉ line)
    (silent : IsSilent settings name tail)
    (closed : ∀ run body, Indented line run body → IsContent body →
      IsClosed (contents settings name
        ((⟨number, 1⟩ : Position).after settings.tabWidth run) body) tail)
    (stop : near ((⟨number, 1⟩ : Position).after settings.tabWidth line)
      ((⟨number, 1⟩ : Position).after settings.tabWidth (line ++ tail))) :
    LinesAgree settings name near number number line (line ++ tail) := by
  apply linesAgree_of_cases (refl _) hline (·.append silent.blank) _ stop
  intro run body indented begins
  have hbody : '\n' ∉ body := fun hmem => hline (by simp [indented.split, hmem])
  refine ⟨body ++ tail, ?_, begins.append tail, ?_⟩
  · rw [indented.split, List.append_assoc]
    exact indented_of_isContent indented.blank (begins.append tail)
  · rw [contents_append silent hbody (closed run body indented begins)]
    exact agrees_contents (.refl settings) steady hbody (refl _)

/-! ## Texts -/

variable {lines lines' : List (List Char)}

/-- A line, and then the lines behind it.  Only the last line has to end at related positions. -/
theorem agrees_cons_of {related : Levels → Levels → Prop}
    (depth : ∀ reached reached', related reached reached' → reached.depth = reached'.depth)
    (reading : ∀ following following', (following = none ↔ following' = none) →
      Reading.Agrees near related (readLine settings name number levels line following)
        (readLine settings' name number' levels' line' following'))
    (hnil : lines = [] ↔ lines' = [])
    (stop : lines = [] → near ((⟨number, 1⟩ : Position).after settings.tabWidth line)
      ((⟨number', 1⟩ : Position).after settings'.tabWidth line'))
    (next : ∀ reached reached', related reached reached' →
      Reading.Agrees near Eq (readLines settings name (number + 1) reached lines)
        (readLines settings' name (number' + 1) reached' lines')) :
    Reading.Agrees near Eq (readLines settings name number levels (line :: lines))
      (readLines settings' name number' levels' (line' :: lines')) := by
  cases lines with
  | nil =>
      obtain rfl := hnil.mp rfl
      rw [readLines, readLines]
      apply (reading none none Iff.rfl).bind
      intro reached reached' arrived
      exact .ok (agrees_closing (stop rfl) (depth reached reached' arrived)) rfl
  | cons following more =>
      obtain ⟨following', more', rfl⟩ :=
        List.exists_cons_of_ne_nil (mt hnil.mpr (List.cons_ne_nil following more))
      rw [readLines, readLines]
      exact (reading (some following) (some following') (by simp)).bind next

/-- A line, and then the lines behind it. -/
theorem agrees_cons (first : LinesAgree settings name near number number' line line')
    (hnil : lines = [] ↔ lines' = [])
    (next : ∀ levels, Reading.Agrees near Eq (readLines settings name (number + 1) levels lines)
      (readLines settings name (number' + 1) levels lines')) :
    Reading.Agrees near Eq (readLines settings name number levels (line :: lines))
      (readLines settings name number' levels (line' :: lines')) := by
  apply agrees_cons_of (fun _ _ h => congrArg Levels.depth h) (first.reading levels) hnil
    fun _ => first.stop
  rintro reached _ rfl
  exact next reached

/-- Lines of their own, and then the lines behind them. -/
theorem agrees_append {front : List (List Char)}
    (steady : IsSteady settings.tabWidth settings.tabWidth near)
    (hfront : ∀ line ∈ front, '\n' ∉ line)
    (starts : ∀ index : ℕ, index < front.length → near ⟨number + index, 1⟩ ⟨number' + index, 1⟩)
    (hnil : lines = [] ↔ lines' = [])
    (next : ∀ levels, Reading.Agrees near Eq
      (readLines settings name (number + front.length) levels lines)
      (readLines settings name (number' + front.length) levels lines')) :
    Reading.Agrees near Eq (readLines settings name number levels (front ++ lines))
      (readLines settings name number' levels (front ++ lines')) := by
  induction front generalizing number number' levels with
  | nil => simpa using next levels
  | cons line front ih =>
      have first : near ⟨number, 1⟩ ⟨number', 1⟩ := by simpa using starts 0 (Nat.succ_pos _)
      refine agrees_cons (linesAgree_self steady (hfront line (List.mem_cons_self ..)) first)
        (by simp [hnil]) fun levels => ?_
      apply ih fun line hmem => hfront line (List.mem_cons_of_mem _ hmem)
      · intro index hindex
        have hnear := starts (index + 1) (Nat.succ_lt_succ hindex)
        push_cast at hnear
        rwa [Int.add_assoc, Int.add_assoc, Int.add_comm 1]
      · intro levels
        have hnext := next levels
        rw [List.length_cons] at hnext
        push_cast at hnext
        rwa [Int.add_assoc, Int.add_assoc, Int.add_comm 1]

/-- The same lines, read from related numbers on. -/
theorem agrees_readLines (steady : IsSteady settings.tabWidth settings.tabWidth near)
    (hlines : ∀ line ∈ lines, '\n' ∉ line)
    (starts : ∀ index : ℕ, near ⟨number + index, 1⟩ ⟨number' + index, 1⟩) :
    Reading.Agrees near Eq (readLines settings name number levels lines)
      (readLines settings name number' levels lines) := by
  have agrees := @agrees_append settings name near number number' levels [] [] lines steady hlines
    (fun index _ => starts index) Iff.rfl fun _ => .ok .nil rfl
  rwa [List.append_nil] at agrees

/-- Texts agree if they differ in one line, and that agrees with the other. -/
theorem agrees_change {front behind : List (List Char)}
    (steady : IsSteady settings.tabWidth settings.tabWidth near)
    (hfront : ∀ line ∈ front, '\n' ∉ line) (hbehind : ∀ line ∈ behind, '\n' ∉ line)
    (starts : ∀ index : ℕ, near ⟨number + index, 1⟩ ⟨number + index, 1⟩)
    (changed : LinesAgree settings name near (number + front.length) (number + front.length)
      line line') :
    Reading.Agrees near Eq (readLines settings name number levels (front ++ line :: behind))
      (readLines settings name number levels (front ++ line' :: behind)) := by
  apply agrees_append steady hfront (fun index _ => starts index) (by simp)
  intro levels
  apply agrees_cons changed Iff.rfl
  intro levels
  apply agrees_readLines steady hbehind
  intro index
  have hnear := starts (front.length + 1 + index)
  push_cast at hnear
  rwa [← Int.add_assoc, ← Int.add_assoc] at hnear

end Lines

end Offside
