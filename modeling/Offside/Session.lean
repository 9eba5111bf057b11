import Offside.Lexer.Stream

/-!
# Sessions

A session is a program over any number of lexers, which it knows by name, and over the active
settings, which a new lexer takes on if it is given none of its own.

The active settings are scoped.  A `within` step sets them for its body and restores them
afterwards, however the body ends; a `thread` step runs its body from the standard settings and
gives nothing back.  Lexers are not scoped: a body works on the same ones.

A step that is not about a lexer may still name one to be watched.  It is shown beside the error
if the step fails, and makes no difference otherwise.
-/

namespace Offside

/-- The active settings and the lexers that were made so far. -/
structure Session where
  active : Settings
  lexers : List (String × Lexer)

namespace Session

/-- A session at its beginning. -/
def initial : Session := ⟨.standard, []⟩

/-- One step of a session. -/
inductive Step where
  /-- Show the active settings. -/
  | current
  /-- Make the standard settings active. -/
  | reset
  /-- Make other settings active. -/
  | choose (fields : Settings.Fields) (watched : Option String)
  /-- Run a body under other settings. -/
  | within (fields : Settings.Fields) (watched : Option String) (body : List Step)
  /-- Leave the body of the innermost `within`. -/
  | raise
  /-- Run a body on its own. -/
  | thread (body : List Step)
  /-- Read a whole text. -/
  | tokenize (source : Source) (fields : Option Settings.Fields) (watched : Option String)
  /-- Make a lexer, in the place of any that has the same name. -/
  | create (id : String) (source : Source) (fields : Option Settings.Fields)
  /-- Show a lexer. -/
  | inspect (id : String)
  /-- Pull a token. -/
  | next (id : String)
  /-- Pull up to `count` tokens. -/
  | take (id : String) (count : Nat)
  /-- Pull all tokens that are left. -/
  | drain (id : String)
  /-- Locate a position, or else the current one. -/
  | locate (id : String) (position : Option Position)
  /-- Report an error at the current position. -/
  | report (id : String) (category : Category) (message : String)

/-- Why a step fails. -/
inductive Error where
  | settings (cause : Settings.Error)
  | lexer (cause : Lexer.Error)
  | unknownLexer (id : String)
  deriving DecidableEq, Repr

/-- The wording of an error. -/
def Error.message : Error → String
  | .settings cause => cause.message
  | .lexer cause => cause.message
  | .unknownLexer id => Text.quoted id

/-- What a step answers.  Answers about a lexer come with its visible part after the step. -/
inductive Answer where
  | settings (active : Settings)
  | block (answers : List Answer) (active : Settings)
  | raised
  | lexer (name : String) (settings : Settings) (view : Lexer.View)
  | token (token : Token) (view : Lexer.View)
  | tokens (tokens : List Token) (view : Option Lexer.View)
  | location (location : Location) (text : String) (view : Lexer.View)
  | failed (cause : Error) (view : Option Lexer.View)

/-- The lexer that goes by a name. -/
def lexer? (session : Session) (id : String) : Option Lexer := session.lexers.lookup id

/-- Puts a lexer under a name. -/
def put (session : Session) (id : String) (lexer : Lexer) : Session :=
  { session with lexers := (id, lexer) :: session.lexers.filter fun entry => entry.1 != id }

/-- The visible part of the lexer that is watched, if there is one. -/
def watchedView (session : Session) (watched : Option String) : Option Lexer.View :=
  (watched.bind session.lexer?).map Lexer.view

/-- The settings for a step: those of its fields, or the active ones if it has none. -/
def settingsFor (session : Session) : Option Settings.Fields → Except Settings.Error Settings
  | none => .ok session.active
  | some fields => Settings.ofFields fields

/-- An action on a lexer as a step: its value is turned into an answer, and the lexer that it
leaves takes the place of the one that it began with. -/
def act {α : Type} (session : Session) (id : String) (action : Lexer.Action α)
    (answer : α → Lexer → Answer) : Answer × Session :=
  match session.lexer? id with
  | none => (.failed (.unknownLexer id) none, session)
  | some lexer =>
    match action lexer with
    | .ok value left => (answer value left, session.put id left)
    | .error cause left => (.failed (.lexer cause) (some left.view), session.put id left)

/-- The answer that shows a lexer. -/
def shown (lexer : Lexer) : Answer := .lexer lexer.name lexer.settings lexer.view

mutual

/-- Carries out one step. -/
def Step.run (session : Session) : Step → Answer × Session
  | .current => (.settings session.active, session)
  | .reset => (.settings .standard, { session with active := .standard })
  | .choose fields watched =>
    match Settings.ofFields fields with
    | .ok chosen => (.settings chosen, { session with active := chosen })
    | .error cause => (.failed (.settings cause) (session.watchedView watched), session)
  | .within fields watched body =>
    match Settings.ofFields fields with
    | .ok chosen =>
      let (answers, left) := Step.runAll { session with active := chosen } body
      (.block answers session.active, { left with active := session.active })
    | .error cause => (.failed (.settings cause) (session.watchedView watched), session)
  | .raise => (.raised, session)
  | .thread body =>
    let (answers, left) := Step.runAll { session with active := .standard } body
    (.block answers session.active, { left with active := session.active })
  | .tokenize source fields watched =>
    match session.settingsFor fields with
    | .error cause => (.failed (.settings cause) (session.watchedView watched), session)
    | .ok settings =>
      match Lexer.tokenize settings source with
      | .ok tokens => (.tokens tokens none, session)
      | .error cause => (.failed (.lexer cause) (session.watchedView watched), session)
  | .create id source fields =>
    match session.settingsFor fields with
    | .error cause => (.failed (.settings cause) (session.watchedView (some id)), session)
    | .ok settings =>
      let lexer := Lexer.start settings source
      (shown lexer, session.put id lexer)
  | .inspect id => session.act id get fun lexer _ => shown lexer
  | .next id => session.act id Lexer.next fun token left => .token token left.view
  | .take id count =>
    session.act id (Lexer.take count) fun tokens left => .tokens tokens (some left.view)
  | .drain id => session.act id Lexer.drain fun tokens left => .tokens tokens (some left.view)
  | .locate id position =>
    session.act id (Lexer.located position) fun (location, text) left =>
      .location location text left.view
  | .report id category message =>
    let report : Lexer.Action Answer := Lexer.fail (.reported category message)
    session.act id report fun answer _ => answer

/-- Carries out steps in order, up to and including the first `raise`. -/
def Step.runAll (session : Session) : List Step → List Answer × Session
  | [] => ([], session)
  | .raise :: _ => ([.raised], session)
  | step :: steps =>
    let (answer, reached) := Step.run session step
    let (answers, left) := Step.runAll reached steps
    (answer :: answers, left)

end

/-- The answers of a whole session. -/
def answers (steps : List Step) : List Answer := (Step.runAll initial steps).1

end Session

end Offside
