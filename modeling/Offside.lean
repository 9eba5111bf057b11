import Offside.Cursor.Ahead
import Offside.Cursor.Command
import Offside.Lexer.Stream
import Offside.Session
import Offside.Proofs.Lines.Agreement
import Offside.Proofs.Stream.Tiling
import Offside.Proofs.Stream.Locations
import Offside.Proofs.Stream.Blocks
import Offside.Proofs.Stream.Outcomes
import Offside.Proofs.Stream.Lexemes
import Offside.Proofs.Lines.Separation
import Offside.Proofs.Program.Basic
import Offside.Proofs.Program.Rendering
import Offside.Proofs.Program.Formatting
import Offside.Proofs.Stream.States
import Offside.Proofs.Lines.Correspondence
import Offside.Proofs.Invariance.LineBreaks
import Offside.Proofs.Invariance.BlankLines
import Offside.Proofs.Lines.Occurrence
import Offside.Proofs.Invariance.Insertions
import Offside.Proofs.Lexer.OtherSettings
import Offside.Proofs.Stream.Decoders
import Offside.Proofs.Stream.Failures
import Offside.Proofs.Invariance.Indentation
import Offside.Proofs.Invariance.TabWidths
import Offside.Proofs.Stream.LargestInteger
import Offside.Proofs.Stream.Requests
import Offside.Proofs.Stream.Strings
import Offside.Proofs.Session.Isolation
import Offside.Proofs.Session.Scopes
import Offside.Proofs.Stream.Dedents
import Offside.Proofs.Stream.Journal
import Offside.Proofs.Escape.Units
import Offside.Proofs.Stream.Numbers
import Offside.Proofs.Stream.Attempts
import Offside.Proofs.Stream.Breaks
import Offside.Proofs.Cursor.Commands
import Offside.Proofs.Lexer.Lookahead
