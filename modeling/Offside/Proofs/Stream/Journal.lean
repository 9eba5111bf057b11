import Offside.Proofs.Stream.Columns
import Offside.Proofs.Stream.Requests

/-!
# The journal of a text

The journal repeats the history of the blocks.  There is an entry for every token that opens or
closes a block and for the one that ends the stream, in the order of these tokens, and in the end
one for the error if the text has one.  From the entries alone it can be worked out which blocks are
open (`Journal.replay?`), whatever was pulled so far and whether or not pulls have failed.

An error is noted before it is made.  So an error at a place that cannot be written is noted as
well, although it cannot be made.  In a text that is small enough all entries can be written, and
whether somebody writes them down makes no difference.

## Strategy

Entries are made in four ways, which `Notes` lists with the blocks before and after; the rest is by
cases on it.  What entries tell of tokens is gathered over pulls (`tells_of_pulls`).  What they say
about blocks is an invariant of all calls (`Replays`), and so is that they can be written
(`IsWritten`).
-/

namespace Offside

open Journal

/-- Whether a token opens or closes a block, or ends the stream. -/
def Token.isNoted (token : Token) : Bool :=
  match token.kind with
  | .layout .indent | .layout .dedent | .layout .eof => true
  | _ => false

namespace Journal

/-- The levels after an event, if it can happen where blocks are open at `levels`, the innermost
last: a block is deeper than the one around it, and only the innermost block closes, but never the
base. -/
def Event.replay? (levels : List Int) : Event → Option (List Int)
  | .indent level _ =>
    if levels.getLast?.any (· < level) then some (levels ++ [level]) else none
  | .dedent level _ | .dedentAtEnd level =>
    if levels.getLast? = some level ∧ Levels.base < level then some levels.dropLast else none
  | .eof _ | .failed .. => some levels

/-- The levels after events, one after another. -/
def replay? (levels : List Int) (events : List Event) : Option (List Int) :=
  events.foldlM Event.replay? levels

/-- Whether an event tells of a token.  The line is that of the token, and not named where the end
of the text closes a block. -/
def Event.TellsOf (token : Token) : Event → Prop
  | .indent _ line => token.kind = .layout .indent ∧ token.location.line = line
  | .dedent _ line => token.kind = .layout .dedent ∧ token.location.line = line
  | .dedentAtEnd _ => token.kind = .layout .dedent
  | .eof location => token.kind = .layout .eof ∧ token.location = location
  | .failed .. => False

/-- Events that tell of tokens, one of each that opens or closes a block or ends the stream. -/
def Tell (tokens : List Token) (events : List Event) : Prop :=
  List.Forall₂ (fun token event => event.TellsOf token) (tokens.filter Token.isNoted) events

/-- What is noted of an error at a place, even if the place cannot be written.  Nothing is noted of
the decoder's refusal. -/
inductive IsReport (place : Location) : Lexer.Error → List Event → Prop
  | lexical {cause : LexError.Cause} (writable : place.isWritable) :
      IsReport place (.lexical ⟨cause, some place⟩) [.failed place cause.message]
  | unwritable {cause : LexError.Cause} (unwritable : ¬ place.isWritable) :
      IsReport place (.decimal .tooLong) [.failed place cause.message]
  | refused {cause : DecodeError} : IsReport place (.decoding cause) []

/-! ## Events -/

variable {place : Location} {cause : Lexer.Error} {events more : List Event}
  {tokens others : List Token}

theorem replay?_append (levels : List Int) (events more : List Event) :
    replay? levels (events ++ more) = (replay? levels events).bind (replay? · more) :=
  List.foldlM_append ..

theorem replay?_singleton (levels : List Int) (event : Event) :
    replay? levels [event] = event.replay? levels := by
  simp [replay?]

/-- For debugging, everything is shown. -/
theorem shown_debug (events : List Event) : shown .debug events = events :=
  List.filter_eq_self.mpr fun _ _ => by simp [Severity.rank]

theorem Tell.append (h : Tell tokens events) (h' : Tell others more) :
    Tell (tokens ++ others) (events ++ more) := by
  unfold Tell
  rw [List.filter_append]
  exact List.rel_append h h'

/-- No error is noted as a token. -/
theorem Tell.not_mem_failed (h : Tell tokens events) (location : Location) (message : String) :
    .failed location message ∉ events := by
  intro hmem
  obtain ⟨i, hi, hevent⟩ := List.mem_iff_getElem.mp hmem
  have tells := List.Forall₂.get h (h.length_eq ▸ hi) hi
  rw [List.get_eq_getElem, List.get_eq_getElem, hevent] at tells
  exact tells

/-- Where an error is among the first events that satisfy a condition, all that tell of tokens
are. -/
theorem Tell.mem_takeWhile (h : Tell tokens events) {condition : Event → Bool} {location : Location}
    {message : String}
    (hmem : .failed location message ∈ (events ++ more).takeWhile condition) :
    (events ++ more).takeWhile condition = events ++ more.takeWhile condition ∧
      .failed location message ∈ more.takeWhile condition := by
  have hnot := h.not_mem_failed location message
  rw [List.takeWhile_append] at hmem ⊢
  split at hmem
  · next hall =>
      rw [if_pos hall]
      exact ⟨rfl, (List.mem_append.mp hmem).resolve_left hnot⟩
  · exact absurd (List.takeWhile_subset _ hmem) hnot

/-- What is reported of an error leaves the blocks alone. -/
theorem IsReport.replay?_eq (h : IsReport place cause events) (levels : List Int) :
    replay? levels events = some levels := by
  cases h <;> rfl

end Journal

namespace Lexer

open Lexeme Lines

variable {settings : Settings} {source : Source} {lexer left middle : Lexer} {token : Token}
  {found : Option Token} {tokens : List Token} {noted : List Event} {cause : Error}

/-! ## What a step notes -/

/-- What a step notes that does not fail, and which blocks are open after it. -/
inductive Notes (lexer left : Lexer) : Option Token → List Event → Prop
  | nothing {found : Option Token} (unnoted : ∀ token ∈ found, token.isNoted = false)
      (levels : left.levels = lexer.levels) : Notes lexer left found []
  /-- A line opens a block in the column where its first lexeme is. -/
  | opens {level : Int} (deeper : lexer.levels.top < level)
      (levels : left.levels = ⟨level :: lexer.levels.opened⟩)
      (column : left.position.column = level) :
      Notes lexer left (some (lexer.mark .indent)) [.indent level lexer.position.line]
  /-- A line closes a block. -/
  | closes {level : Int} {outer : List Int} (opened : lexer.levels.opened = level :: outer)
      (levels : left.levels = ⟨outer⟩) :
      Notes lexer left (some (lexer.mark .dedent)) [.dedent level lexer.position.line]
  /-- The end of the text closes a block. -/
  | closesAtEnd {level : Int} {outer : List Int} (opened : lexer.levels.opened = level :: outer)
      (levels : left.levels = ⟨outer⟩) :
      Notes lexer left (some (lexer.mark .dedent)) [.dedentAtEnd level]
  /-- The stream ends. -/
  | ends (ended : left.ending = some (lexer.mark .eof)) (levels : left.levels = lexer.levels) :
      Notes lexer left (some (lexer.mark .eof)) [.eof lexer.here]

@[simp] theorem events_noting (lexer : Lexer) (event : Event) :
    (lexer.noting event).events = lexer.events ++ [event] :=
  List.reverse_cons

theorem events_of_idle (h : Transition lexer (.ok none left)) : left.events = lexer.events := by
  cases h <;> rfl

/-- Lexemes and line breaks are not noted. -/
theorem isNoted_of_isLayout (content : token.kind.isLayout = false) : token.isNoted = false := by
  unfold Token.isNoted
  split <;> simp_all [Kind.isLayout]

theorem exists_notes (h : AtWork settings source lexer)
    (transition : Transition lexer (.ok found left)) :
    ∃ noted, left.events = lexer.events ++ noted ∧ Notes lexer left found noted := by
  cases transition with
  | closeAtEnd mode ended opened => exact ⟨_, events_noting _ _, .closesAtEnd opened rfl⟩
  | finish mode ended opened => exact ⟨_, events_noting _ _, .ends rfl rfl⟩
  | indent mode indented content reaches deeper =>
      have column := (h.begins_ahead (by simp [mode]) indented content reaches).2
      exact ⟨_, events_noting _ _, .opens deeper rfl column⟩
  | dedent mode indented reaches opened shallower =>
      exact ⟨_, events_noting _ _, .closes opened rfl⟩
  | newline mode ends =>
      exact ⟨[], (List.append_nil _).symm, .nothing (by simp [mark, Token.isNoted]) rfl⟩
  | lexeme mode content found read =>
      have unnoted := isNoted_of_isLayout (Shape.isLayout_of_read read)
      exact ⟨[], (List.append_nil _).symm, .nothing (by simpa using unnoted) rfl⟩
  | _ => exact ⟨[], (List.append_nil _).symm, .nothing (by simp) rfl⟩

theorem isReport_at (cause : LexError.Cause) (place : Location) :
    IsReport place (.at cause place) [.failed place cause.message] := by
  by_cases writable : place.isWritable
  · rw [Error.at_of_isWritable writable]
    exact .lexical writable
  · rw [Error.at_of_not_isWritable writable]
    exact .unwritable writable

/-- A step that fails notes what it fails with. -/
theorem exists_report (h : Transition lexer (.error cause left)) :
    ∃ report, left.events = lexer.events ++ report ∧ IsReport left.here cause report := by
  generalize hresult : EStateM.Result.error cause left = result at h
  cases h with
  | mismatch | tooLarge | unexpected =>
      obtain ⟨rfl, rfl⟩ := EStateM.Result.error.inj hresult
      exact ⟨_, events_noting _ _, isReport_at _ _⟩
  | refused =>
      obtain ⟨rfl, rfl⟩ := EStateM.Result.error.inj hresult
      exact ⟨[], (List.append_nil _).symm, .refused⟩
  | _ => simp at hresult

/-! ## Tokens -/

theorem Notes.tell (h : Notes lexer left found noted) : Tell found.toList noted := by
  cases h with
  | nothing unnoted levels =>
      have hnone : found.toList.filter Token.isNoted = [] := by
        simpa [List.filter_eq_nil_iff] using unnoted
      rw [Tell, hnone]
      exact .nil
  | opens | closes | ends => exact .cons ⟨rfl, rfl⟩ .nil
  | closesAtEnd => exact .cons rfl .nil

/-- Up to the end of the stream, the journal tells of the tokens that were pulled. -/
theorem tells_of_pulls (pulls : Pulls (start settings source) tokens left)
    (once : ∀ token ∈ tokens.dropLast, token.isEof = false) : Tell tokens left.events := by
  refine pulls.gathers_atWork (P := fun given lexer => Tell given lexer.events) once ?_ .nil
  intro given lexer left found atWork tell transition
  obtain ⟨noted, hevents, notes⟩ := exists_notes atWork transition
  exact hevents ▸ tell.append notes.tell

/-! ## Blocks -/

/-- The events of a step lead from the blocks before it to those after it. -/
theorem Notes.replay?_eq (h : Notes lexer left found noted) (increasing : lexer.levels.Increasing) :
    replay? lexer.levels.toList noted = some left.levels.toList := by
  cases h with
  | nothing unnoted levels | ends ended levels =>
      rw [levels]
      rfl
  | opens deeper levels column =>
      rw [replay?_singleton, levels, Levels.toList_cons]
      exact if_pos (by simp [Levels.getLast?_toList, deeper])
  | @closes level outer opened levels | @closesAtEnd level outer opened levels =>
      have hlist : lexer.levels.toList = left.levels.toList ++ [level] := by
        rw [levels, ← Levels.toList_cons, ← opened]
      have hbase : Levels.base < level :=
        (Levels.increasing_iff.mp increasing).1 level (by simp [opened])
      rw [replay?_singleton, hlist]
      simp [Event.replay?, hbase]

/-- The journal leads to the blocks that are open, and the stream is at its end if it says so. -/
structure Replays (lexer : Lexer) : Prop where
  levels : replay? [Levels.base] lexer.events = some lexer.levels.toList
  ended : ∀ location, .eof location ∈ lexer.events → lexer.ending ≠ none

theorem replays_start (settings : Settings) (source : Source) :
    Replays (start settings source) where
  levels := rfl
  ended _ hmem := by simp [events, start] at hmem

theorem Replays.of_transition (h : Replays lexer) (atWork : AtWork settings source lexer)
    (running : lexer.ending = none) (transition : Transition lexer (.ok found left)) :
    Replays left := by
  obtain ⟨noted, hevents, notes⟩ := exists_notes atWork transition
  constructor
  · rw [hevents, replay?_append, h.levels]
    exact notes.replay?_eq atWork.increasing
  · intro location hmem
    rw [hevents] at hmem
    rcases List.mem_append.mp hmem with before | new
    · exact absurd running (h.ended location before)
    · cases notes with
      | ends ended => simp [ended]
      | _ => simp at new

theorem Replays.of_failure (h : Replays lexer) (running : lexer.ending = none)
    (transition : Transition lexer (.error cause left)) : Replays left := by
  obtain ⟨report, hevents, isReport⟩ := exists_report transition
  constructor
  · rw [hevents, replay?_append, h.levels, levels_of_failure transition]
    exact isReport.replay?_eq _
  · intro location hmem
    rw [hevents] at hmem
    rcases List.mem_append.mp hmem with before | new
    · exact absurd running (h.ended location before)
    · cases isReport <;> simp at new

/-- After any calls, the journal leads to the open blocks. -/
theorem replays_of_calls (calls : Calls (start settings source) tokens left) : Replays left :=
  calls.preserves_atWork (fun atWork h => h.of_transition atWork) (fun _ h => h.of_failure)
    (replays_start settings source)

/-! ## Whole texts -/

/-- How a journal accounts for the outcome of a text: it tells of the tokens, and then it reports
the error, if there is one, at the place where the lexer stands. -/
inductive Accounts (settings : Settings) (source : Source) :
    Except Error (List Token) → List Event → Prop
  | ended {tokens : List Token} {left : Lexer} (pulls : Pulls (start settings source) tokens left)
      (tell : Tell tokens left.events) : Accounts settings source (.ok tokens) left.events
  | failed {tokens : List Token} {middle left : Lexer} {cause : Error} {report : List Event}
      (pulls : Pulls (start settings source) tokens middle)
      (failure : next middle = .error cause left) (tell : Tell tokens middle.events)
      (events : left.events = middle.events ++ report)
      (isReport : IsReport left.here cause report) :
      Accounts settings source (.error cause) left.events

theorem Pulls.calls_of_failure (pulls : Pulls lexer tokens middle)
    (failure : next middle = .error cause left) : Calls lexer tokens left := by
  induction pulls with
  | nil lexer => exact .failed failure (.nil left)
  | cons first more ih => exact .token first (ih failure)

/-- A pull that fails adds the report of its error to the journal. -/
theorem exists_report_of_next (failure : next lexer = .error cause left) :
    ∃ report, left.events = lexer.events ++ report ∧ IsReport left.here cause report := by
  obtain ⟨inner, skipped, running, way, last⟩ := exists_idles_of_next_error failure
  have hinner : inner.events = lexer.events :=
    way.preserves (P := fun inner => inner.events = lexer.events) running
      (fun h _ idle => (events_of_idle idle).trans h) rfl
  exact hinner ▸ exists_report last

theorem accounts_journalOf (settings : Settings) (source : Source) :
    Accounts settings source (tokenize settings source) (journalOf settings source) := by
  have running : (start settings source).ending = none := rfl
  have ofPulls := ofPulls_drainWithin running Levels.increasing_initial (Nat.le_refl _)
  rw [tokenize, journalOf, outcome, leftBy,
    show drain (start settings source) =
      drainWithin (start settings source).tokenLimit (start settings source) from rfl]
  generalize drainWithin (start settings source).tokenLimit (start settings source) = result
    at ofPulls
  cases ofPulls with
  | ok pulls all =>
      obtain ⟨front, last, rfl, -, hfront⟩ := all
      exact .ended pulls (tells_of_pulls pulls (by simpa using hfront))
  | error pulls failure =>
      obtain ⟨-, -, running, -⟩ := exists_idles_of_next_error failure
      have once := pulls.calls.running_of_mem running
      have tell := tells_of_pulls pulls fun token hmem => once token (List.mem_of_mem_dropLast hmem)
      obtain ⟨report, hevents, isReport⟩ := exists_report_of_next failure
      exact .failed pulls failure tell hevents isReport

/-- The journal of a text is one that calls lead to. -/
theorem Accounts.exists_calls {outcome : Except Error (List Token)} {events : List Event}
    (h : Accounts settings source outcome events) :
    ∃ tokens left, Calls (start settings source) tokens left ∧ left.events = events := by
  cases h with
  | ended pulls => exact ⟨_, _, pulls.calls, rfl⟩
  | failed pulls failure => exact ⟨_, _, pulls.calls_of_failure failure, rfl⟩

/-! ## Writing the journal down -/

/-- The columns of the open blocks can be written, and so can the journal. -/
structure IsWritten (lexer : Lexer) : Prop where
  levels : ∀ level ∈ lexer.levels.opened, Decimal.fits level
  events : ∀ event ∈ lexer.events, event.isWritable

theorem isWritten_start (settings : Settings) (source : Source) :
    IsWritten (start settings source) where
  levels _ hmem := by simp [start, Levels.initial] at hmem
  events _ hmem := by simp [events, start] at hmem

theorem Consistent.fits_of_fits (h : Consistent settings source lexer)
    (fits : settings.Fits source) :
    Decimal.fits lexer.position.line ∧ Decimal.fits lexer.position.column := by
  have writable := h.isWritable_of_fits fits
  simpa [Location.isWritable, Position.isWritable, here, locate] using writable

theorem IsWritten.of_transition (h : IsWritten lexer) (fits : settings.Fits source)
    (atWork : AtWork settings source lexer) (running : lexer.ending = none)
    (transition : Transition lexer (.ok found left)) : IsWritten left := by
  obtain ⟨noted, hevents, notes⟩ := exists_notes atWork transition
  have hline := (atWork.fits_of_fits fits).1
  have hcolumn := ((atWork.of_transition running transition).fits_of_fits fits).2
  have hall : (∀ level ∈ left.levels.opened, Decimal.fits level) ∧
      ∀ event ∈ noted, event.isWritable := by
    cases notes with
    | nothing unnoted levels =>
        rw [levels]
        exact ⟨h.levels, by simp⟩
    | ends ended levels =>
        rw [levels]
        exact ⟨h.levels, by simpa [Event.isWritable] using atWork.isWritable_of_fits fits⟩
    | opens deeper levels column =>
        rw [column] at hcolumn
        rw [levels]
        refine ⟨List.forall_mem_cons.mpr ⟨hcolumn, h.levels⟩, ?_⟩
        simp [Event.isWritable, hline, hcolumn]
    | closes opened levels | closesAtEnd opened levels =>
        obtain ⟨hlevel, houter⟩ := List.forall_mem_cons.mp (opened ▸ h.levels)
        rw [levels]
        exact ⟨houter, by simp [Event.isWritable, hlevel, hline]⟩
  refine ⟨hall.1, ?_⟩
  rw [hevents]
  exact List.forall_mem_append.mpr ⟨h.events, hall.2⟩

theorem IsWritten.of_failure (h : IsWritten lexer) (fits : settings.Fits source)
    (atWork : AtWork settings source lexer) (running : lexer.ending = none)
    (transition : Transition lexer (.error cause left)) : IsWritten left := by
  obtain ⟨report, hevents, isReport⟩ := exists_report transition
  have writable := (atWork.of_failure running transition).isWritable_of_fits fits
  refine ⟨levels_of_failure transition ▸ h.levels, ?_⟩
  rw [hevents]
  refine List.forall_mem_append.mpr ⟨h.events, ?_⟩
  cases isReport <;> simp [Event.isWritable, writable]

/-- In a text that is small enough, the whole journal can be written. -/
theorem isWritable_of_fits (fits : settings.Fits source) :
    ∀ event ∈ journalOf settings source, event.isWritable := by
  obtain ⟨tokens, left, calls, hevents⟩ := (accounts_journalOf settings source).exists_calls
  have written : IsWritten left :=
    calls.preserves_atWork (fun atWork h => h.of_transition fits atWork)
      (fun atWork h => h.of_failure fits atWork) (isWritten_start settings source)
  exact hevents ▸ written.events

/-- Where the whole journal can be written down, nothing else happens. -/
theorem tokenizeLogged_of_eq
    (h : (journalOf settings source).takeWhile Event.isWritable = journalOf settings source) :
    tokenizeLogged .debug settings source =
      (tokenize settings source, journalOf settings source) := by
  simp [tokenizeLogged, shown_debug, h]

/-- Otherwise the reading ends where it cannot. -/
theorem tokenizeLogged_of_ne
    (h : (journalOf settings source).takeWhile Event.isWritable ≠ journalOf settings source) :
    tokenizeLogged .debug settings source =
      (.error (.decimal .tooLong), (journalOf settings source).takeWhile Event.isWritable) := by
  have isPrefix := List.takeWhile_prefix Event.isWritable (l := journalOf settings source)
  have shorter : ((journalOf settings source).takeWhile Event.isWritable).length <
      (journalOf settings source).length :=
    Nat.lt_of_le_of_ne isPrefix.length_le (mt isPrefix.eq_of_length h)
  simp [tokenizeLogged, shown_debug, shorter]

/-- Exactly if an error is written down, everything is, and the text has a lexical error. -/
theorem Accounts.failed_mem_iff {outcome : Except Error (List Token)} {events : List Event}
    (h : Accounts settings source outcome events) :
    (∃ location message, .failed location message ∈ events.takeWhile Event.isWritable) ↔
      events.takeWhile Event.isWritable = events ∧
        ∃ error, outcome = .error (.lexical error) := by
  cases h with
  | ended pulls tell =>
      constructor
      · rintro ⟨location, message, hmem⟩
        exact absurd (List.takeWhile_subset _ hmem) (tell.not_mem_failed location message)
      · rintro ⟨-, error, herror⟩
        simp at herror
  | @failed _ _ left _ report pulls failure tell events isReport =>
      rw [events]
      constructor
      · rintro ⟨location, message, hmem⟩
        obtain ⟨hall, hreport⟩ := tell.mem_takeWhile hmem
        cases isReport with
        | lexical writable => exact ⟨by simp [hall, Event.isWritable, writable], _, rfl⟩
        | unwritable unwritable => simp [Event.isWritable, unwritable] at hreport
        | refused => simp at hreport
      · rintro ⟨hall, error, herror⟩
        rw [hall]
        cases isReport with
        | lexical writable => exact ⟨_, _, List.mem_append_right _ (List.mem_singleton_self _)⟩
        | _ => simp at herror

/-- Somebody who writes the journal down writes an error exactly if one is reported. -/
theorem failed_mem_tokenizeLogged (settings : Settings) (source : Source) :
    (∃ location message, .failed location message ∈ (tokenizeLogged .debug settings source).2) ↔
      ∃ error, (tokenizeLogged .debug settings source).1 = .error (.lexical error) := by
  have hfailed := (accounts_journalOf settings source).failed_mem_iff
  by_cases hall : (journalOf settings source).takeWhile Event.isWritable =
      journalOf settings source
  · rw [tokenizeLogged_of_eq hall]
    simpa [hall] using hfailed
  · rw [tokenizeLogged_of_ne hall, hfailed]
    simp [hall]

/-- The journal tells of the tokens that open or close blocks or end the stream, in order, and then
of the error, if there is one, even at a place that cannot be written.  At any time it leads to the
blocks that are open.  In a text that is small enough, writing it down changes nothing; and in any
text, who does so writes an error exactly if one is reported. -/
theorem journal_of_text (settings : Settings) (source : Source) :
    (∀ tokens left, Calls (start settings source) tokens left →
      replay? [Levels.base] left.events = some left.levels.toList ∧
        ∀ location, Event.eof location ∈ left.events → left.levels.toList = [Levels.base]) ∧
      Accounts settings source (tokenize settings source)
        (shown .debug (journalOf settings source)) ∧
      (settings.Fits source → tokenizeLogged .debug settings source =
        (tokenize settings source, shown .debug (journalOf settings source))) ∧
      ((∃ location message,
          .failed location message ∈ (tokenizeLogged .debug settings source).2) ↔
        ∃ error, (tokenizeLogged .debug settings source).1 = .error (.lexical error)) := by
  rw [shown_debug]
  refine ⟨fun tokens left calls => ?_, accounts_journalOf settings source, fun fits => ?_,
    failed_mem_tokenizeLogged settings source⟩
  · have replays := replays_of_calls calls
    refine ⟨replays.levels, fun location hmem => ?_⟩
    have atWork := (atWork_start settings source).of_calls calls
    have opened := atWork.closed (replays.ended location hmem)
    simp [Levels.toList, opened]
  · exact tokenizeLogged_of_eq (List.takeWhile_eq_self_iff.mpr (isWritable_of_fits fits))

/-- A line that closes a block and is deeper than the base. -/
theorem journal_of_deeper_line :
    Accounts .standard ⟨"\tx\n y", "a"⟩ (.error (.lexical ⟨.badIndentation, some ⟨2, 1, "a"⟩⟩))
        [.indent 9 1, .dedent 9 2, .failed ⟨2, 1, "a"⟩ "Bad indentation."] ∧
      tokenizeLogged .debug .standard ⟨"\tx\n y", "a"⟩ =
        (.error (.lexical ⟨.badIndentation, some ⟨2, 1, "a"⟩⟩),
          [.indent 9 1, .dedent 9 2, .failed ⟨2, 1, "a"⟩ "Bad indentation."]) := by
  have failure : tokenize .standard ⟨"\tx\n y", "a"⟩ =
      .error (.lexical ⟨.badIndentation, some ⟨2, 1, "a"⟩⟩) := by
    decide +kernel
  have events : shown .debug (journalOf .standard ⟨"\tx\n y", "a"⟩) =
      [.indent 9 1, .dedent 9 2, .failed ⟨2, 1, "a"⟩ "Bad indentation."] := by
    decide +kernel
  have fits : Settings.standard.Fits ⟨"\tx\n y", "a"⟩ := by
    unfold Settings.Fits
    decide +kernel
  obtain ⟨-, accounts, logged, -⟩ := journal_of_text .standard ⟨"\tx\n y", "a"⟩
  rw [failure, events] at accounts logged
  exact ⟨accounts, logged fits⟩

/-- Behind a tab of the greatest width, the next character is noted as an error, but no lexical
error is made of it. -/
theorem journal_of_wide_tab :
    (∃ location message, .failed location message ∈
      shown .debug (journalOf .wide (behindTab Location.unnamed '?'))) ∧
      ∀ error, tokenize .wide (behindTab Location.unnamed '?') ≠ .error (.lexical error) := by
  have content : IsContent ['?'] := ⟨'?', [], rfl, by decide, by decide, by decide⟩
  have failure := tokenize_behindTab Location.unnamed content (by decide) Settings.not_fits_wide
  rw [shown_debug, failure]
  refine ⟨?_, by simp⟩
  have accounts := accounts_journalOf .wide (behindTab Location.unnamed '?')
  rw [failure] at accounts
  generalize journalOf .wide (behindTab Location.unnamed '?') = events at accounts ⊢
  cases accounts with
  | failed pulls failure tell events isReport =>
      cases isReport with
      | unwritable unwritable =>
          exact ⟨_, _, events ▸ List.mem_append_right _ (List.mem_singleton_self _)⟩

end Lexer

end Offside
