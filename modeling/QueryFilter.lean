import QueryFilter.Command.Answer
import QueryFilter.Command.Arguments
import QueryFilter.Command.Run
import QueryFilter.Command.Session
import QueryFilter.Compiler
import QueryFilter.Diagnostic
import QueryFilter.Double.Basic
import QueryFilter.Double.Rounding
import QueryFilter.Double.Shortest
import QueryFilter.Double.Style
import QueryFilter.Entries
import QueryFilter.Filter.Basic
import QueryFilter.Filter.Bson
import QueryFilter.Filter.Emit
import QueryFilter.Filter.Error
import QueryFilter.Filter.ExtendedJson
import QueryFilter.Filter.Revive
import QueryFilter.Instant.Basic
import QueryFilter.Instant.Calendar
import QueryFilter.Instant.Format
import QueryFilter.Instant.Parse
import QueryFilter.Json.Basic
import QueryFilter.Json.Fault
import QueryFilter.Json.Number
import QueryFilter.Json.Reader
import QueryFilter.Json.Writer
import QueryFilter.Log
import QueryFilter.Main
import QueryFilter.ObjectId
import QueryFilter.Proofs.Command.Session
import QueryFilter.Proofs.Diagnostic
import QueryFilter.Proofs.Filter.Bson
import QueryFilter.Proofs.Filter.Conditions
import QueryFilter.Proofs.Filter.Emission
import QueryFilter.Proofs.Filter.ErrorPlaces
import QueryFilter.Proofs.Filter.ExtendedJson
import QueryFilter.Proofs.Filter.FieldKeys
import QueryFilter.Proofs.Filter.Leaves
import QueryFilter.Proofs.Filter.LiteralErrors
import QueryFilter.Proofs.Filter.Meaning
import QueryFilter.Proofs.Filter.Nesting
import QueryFilter.Proofs.Filter.OperandErrors
import QueryFilter.Proofs.Filter.Places
import QueryFilter.Proofs.Filter.Replacement
import QueryFilter.Proofs.Filter.Revival
import QueryFilter.Proofs.Filter.RoundTrip
import QueryFilter.Proofs.Filter.WellFormed
import QueryFilter.Proofs.Instant.Calendar
import QueryFilter.Proofs.Instant.DayCount
import QueryFilter.Proofs.Instant.Parts
import QueryFilter.Proofs.Instant.ReadBack
import QueryFilter.Proofs.Instant.SignedYears
import QueryFilter.Proofs.Instant.Spellings
import QueryFilter.Proofs.Json.Inversion
import QueryFilter.Proofs.Json.RoundTrip
import QueryFilter.Proofs.Json.Scalars
import QueryFilter.Proofs.Outcome
import QueryFilter.Proofs.Query.Completeness
import QueryFilter.Proofs.Query.Composition
import QueryFilter.Proofs.Query.Context
import QueryFilter.Proofs.Query.EndOfInput
import QueryFilter.Proofs.Query.Excerpts
import QueryFilter.Proofs.Query.FieldPath
import QueryFilter.Proofs.Query.Grammar
import QueryFilter.Proofs.Query.Limit
import QueryFilter.Proofs.Query.Markers
import QueryFilter.Proofs.Query.Moves
import QueryFilter.Proofs.Query.Places
import QueryFilter.Proofs.Query.Refusal
import QueryFilter.Proofs.Query.Relocation
import QueryFilter.Proofs.Query.Segments
import QueryFilter.Proofs.Query.Soundness
import QueryFilter.Proofs.Query.Source
import QueryFilter.Proofs.Settings
import QueryFilter.Proofs.Text.Blanks
import QueryFilter.Proofs.Text.Coordinates
import QueryFilter.Proofs.Text.Digits
import QueryFilter.Proofs.Text.Lines
import QueryFilter.Proofs.Text.Positions
import QueryFilter.Proofs.Token.Composition
import QueryFilter.Proofs.Token.Errors
import QueryFilter.Proofs.Token.Excerpt
import QueryFilter.Proofs.Token.FieldPaths
import QueryFilter.Proofs.Token.Integers
import QueryFilter.Proofs.Token.Keys
import QueryFilter.Proofs.Token.Literals
import QueryFilter.Proofs.Token.Locality
import QueryFilter.Proofs.Token.Quotation
import QueryFilter.Proofs.Token.Tiling
import QueryFilter.Proofs.Token.Translation
import QueryFilter.Query.Basic
import QueryFilter.Query.Error
import QueryFilter.Query.Listing
import QueryFilter.Query.Parser
import QueryFilter.Settings
import QueryFilter.Span
import QueryFilter.Text.Blank
import QueryFilter.Text.CodeUnit
import QueryFilter.Text.Numeral
import QueryFilter.Text.Offset
import QueryFilter.Text.Outline
import QueryFilter.Text.Pieces
import QueryFilter.Text.Printable
import QueryFilter.Text.Quoted
import QueryFilter.Token.Basic
import QueryFilter.Token.Error
import QueryFilter.Token.Numeral
import QueryFilter.Token.Scan
