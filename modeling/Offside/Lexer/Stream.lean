import Offside.Lexer.Step

/-!
# Streams of tokens

Tokens are pulled from a lexer one at a time.  A pull takes steps until one of them gives a token;
after the token that ends the stream, every pull gives that token again.

Steps and pulls are counted, which is what makes them total.  The counts are large enough for every
text: a step without a token reads a character or moves towards the inside of a line, which takes
two moves at most, and a token reads a character, or opens a block for one it read, or closes a
block.
-/

namespace Offside.Lexer

/-- Takes up to `limit` steps to the next token. -/
def searchWithin : Nat → Action Token
  | 0 => throw .stalled
  | limit + 1 => do
    match ← step with
    | some token => return token
    | none => searchWithin limit

/-- Takes steps to the next token: one for each character that is `upcoming`, and three more. -/
def searchAlong : List Char → Action Token
  | [] => searchWithin 3
  | _ :: upcoming => do
    match ← step with
    | some token => return token
    | none => searchAlong upcoming

/-- The next token. -/
def next : Action Token := do
  let lexer ← get
  match lexer.ending with
  | some ending => return ending
  | none => searchAlong lexer.cursor.rest

/-- The next `count` tokens, or those up to the end of the stream. -/
def take : Nat → Action (List Token)
  | 0 => return []
  | count + 1 => do
    let token ← next
    if token.isEof then return [token]
    let tokens ← take count
    return token :: tokens

/-- The tokens up to the end of the stream, which has to come within `limit` tokens. -/
def drainWithin : Nat → Action (List Token)
  | 0 => throw .stalled
  | limit + 1 => do
    let token ← next
    if token.isEof then return [token]
    let tokens ← drainWithin limit
    return token :: tokens

/-- The greatest number of tokens that are still to come. -/
def tokenLimit (lexer : Lexer) : Nat :=
  2 * lexer.cursor.rest.length + lexer.levels.depth + 1

/-- The tokens up to the end of the stream. -/
def drain : Action (List Token) := do
  drainWithin (← get).tokenLimit

/-! ## Whole texts -/

/-- The value of an action run from a lexer, or the error, without the lexer that is left. -/
def outcome {α : Type} (action : Action α) (lexer : Lexer) : Except Error α :=
  match action lexer with
  | .ok value _ => .ok value
  | .error cause _ => .error cause

/-- The lexer that an action leaves behind, be it by success or by failure. -/
def leftBy {α : Type} (action : Action α) (lexer : Lexer) : Lexer :=
  match action lexer with
  | .ok _ left => left
  | .error _ left => left

/-- All tokens of a text. -/
def tokenize (settings : Settings) (source : Source) : Except Error (List Token) :=
  outcome drain (start settings source)

/-- What is noted while a text is read to its end or to its first error. -/
def journalOf (settings : Settings) (source : Source) : List Journal.Event :=
  (leftBy drain (start settings source)).events

/-- All tokens of a text, read while somebody writes down the events from `threshold` on, and
the events written.  What becomes of an event that cannot be written is for the writer to say; this
one lets the failure through, so that it ends the reading. -/
def tokenizeLogged (threshold : Journal.Severity) (settings : Settings) (source : Source) :
    Except Error (List Token) × List Journal.Event :=
  let shown := Journal.shown threshold (journalOf settings source)
  let written := shown.takeWhile Journal.Event.isWritable
  if written.length < shown.length then (.error (.decimal .tooLong), written)
  else (tokenize settings source, written)

/-! ## Watching a lexer -/

/-- What one pull gave, and the visible part of the lexer after it. -/
structure Observation where
  result : Except Error Token
  view : View

/-- One pull, watched. -/
def observe (lexer : Lexer) : Observation × Lexer :=
  match next lexer with
  | .ok token left => (⟨.ok token, left.view⟩, left)
  | .error cause left => (⟨.error cause, left.view⟩, left)

/-- Whether a pull ended the stream or failed. -/
def Observation.isFinal (observation : Observation) : Bool :=
  match observation.result with
  | .ok token => token.isEof
  | .error _ => true

/-- The next `count` pulls, watched. -/
def observeMany : Nat → Lexer → List Observation
  | 0, _ => []
  | count + 1, lexer =>
    let (observation, left) := lexer.observe
    observation :: observeMany count left

/-- Pulls to the first error or the end of the stream, at most `limit` of them, and `after`
more. -/
def traceWithin (after : Nat) : Nat → Lexer → List Observation
  | 0, _ => []
  | limit + 1, lexer =>
    let (observation, left) := lexer.observe
    observation ::
      if observation.isFinal then observeMany after left else traceWithin after limit left

/-- Pulls to the first error or the end of the stream, and `after` more. -/
def trace (after : Nat) (lexer : Lexer) : List Observation :=
  traceWithin after lexer.tokenLimit lexer

end Offside.Lexer
