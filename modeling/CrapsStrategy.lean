import CrapsStrategy.Decimal.Reader
import CrapsStrategy.Json.Printer
import CrapsStrategy.Json.Reader
import CrapsStrategy.Text.Blank
import CrapsStrategy.Text.Quoted
import CrapsStrategy.Value.Display
import CrapsStrategy.Value.Document
import CrapsStrategy.Value.Order
import CrapsStrategy.Token.Lexer
import CrapsStrategy.Condition.Parser
import CrapsStrategy.Script.Parser
import CrapsStrategy.Formula
import CrapsStrategy.Event.Tracker
import CrapsStrategy.Snapshot
import CrapsStrategy.Guard
import CrapsStrategy.Cache
import CrapsStrategy.Envelope
import CrapsStrategy.Table.Legal
import CrapsStrategy.Template.Plan
import CrapsStrategy.Strategy.Decode
import CrapsStrategy.Strategy.Encode
import CrapsStrategy.Strategy.Load
import CrapsStrategy.Strategy.FileFormat
import CrapsStrategy.Rule.Run
import CrapsStrategy.Session.Ledger
import CrapsStrategy.Session.Settings
import CrapsStrategy.Session.Report
import CrapsStrategy.Session.Replay
import CrapsStrategy.Main
import CrapsStrategy.Proofs.Except
import CrapsStrategy.Proofs.KeyMap
import CrapsStrategy.Proofs.Binary64.Exact
import CrapsStrategy.Proofs.Binary64.Finite
import CrapsStrategy.Proofs.Binary64.Monotone
import CrapsStrategy.Proofs.Binary64.Rounding
import CrapsStrategy.Proofs.Binary64.Whole
import CrapsStrategy.Proofs.Token.Lexer
import CrapsStrategy.Proofs.Token.Stream
import CrapsStrategy.Proofs.Token.Dialect
import CrapsStrategy.Proofs.Text.Lowercase
import CrapsStrategy.Proofs.Text.Words
import CrapsStrategy.Proofs.Text.Integer
import CrapsStrategy.Proofs.Text.Squeeze
import CrapsStrategy.Proofs.Text.Unquoted
import CrapsStrategy.Proofs.Token.Spacing
import CrapsStrategy.Proofs.Token.Spelling
import CrapsStrategy.Proofs.Token.Tiling
import CrapsStrategy.Proofs.Decimal.Reader
import CrapsStrategy.Proofs.Script.Grammar
import CrapsStrategy.Proofs.Script.Completeness
import CrapsStrategy.Proofs.Script.Lines
import CrapsStrategy.Proofs.Script.Sandbox
import CrapsStrategy.Proofs.Script.Source
import CrapsStrategy.Proofs.Script.Run
import CrapsStrategy.Proofs.Script.Operation
import CrapsStrategy.Proofs.Script.Integers
import CrapsStrategy.Proofs.Script.Conversion
import CrapsStrategy.Proofs.Script.Extremes
import CrapsStrategy.Proofs.Script.Runtime
import CrapsStrategy.Proofs.Script.Names
import CrapsStrategy.Proofs.Script.Shape
import CrapsStrategy.Proofs.Script.Spacing
import CrapsStrategy.Proofs.Script.Variable
import CrapsStrategy.Proofs.Condition.Grammar
import CrapsStrategy.Proofs.Condition.Widening
import CrapsStrategy.Proofs.Guard
import CrapsStrategy.Proofs.Snapshot
import CrapsStrategy.Proofs.Event.History
import CrapsStrategy.Proofs.Cache
import CrapsStrategy.Proofs.Rule.Firing
import CrapsStrategy.Proofs.Rule.Trace
import CrapsStrategy.Proofs.Rule.Run
import CrapsStrategy.Proofs.Rule.Dropped
import CrapsStrategy.Proofs.Rule.Reported
import CrapsStrategy.Proofs.Rule.Verbs
import CrapsStrategy.Proofs.Rule.Step
import CrapsStrategy.Proofs.Rule.Aliases
import CrapsStrategy.Proofs.Rule.Setvar
import CrapsStrategy.Proofs.Table.Odds
import CrapsStrategy.Proofs.Table.Legal
import CrapsStrategy.Proofs.Table.CleanOdds
import CrapsStrategy.Proofs.Table.BetKey
import CrapsStrategy.Proofs.Table.OddsPolicy
import CrapsStrategy.Proofs.Template.Changes
import CrapsStrategy.Proofs.Template.Render
import CrapsStrategy.Proofs.Template.Odds
import CrapsStrategy.Proofs.Template.Minimal
import CrapsStrategy.Proofs.Template.Namespace
import CrapsStrategy.Proofs.Session.Pass
import CrapsStrategy.Proofs.Session.Reachable
import CrapsStrategy.Proofs.Session.Paper
import CrapsStrategy.Proofs.Session.Settling
import CrapsStrategy.Proofs.Session.Journal
import CrapsStrategy.Proofs.Session.Requests
import CrapsStrategy.Proofs.Session.Money
import CrapsStrategy.Proofs.Session.Variables
import CrapsStrategy.Proofs.Session.Hands
import CrapsStrategy.Proofs.Session.Ledger
import CrapsStrategy.Proofs.Session.Recording
import CrapsStrategy.Proofs.Session.Books
import CrapsStrategy.Proofs.Session.Closing
import CrapsStrategy.Proofs.Session.Coherence
import CrapsStrategy.Proofs.Session.Live
import CrapsStrategy.Proofs.Session.Schedule
import CrapsStrategy.Proofs.Json.Ordered
import CrapsStrategy.Proofs.Json.Numbers
import CrapsStrategy.Proofs.Json.Reader
import CrapsStrategy.Proofs.Value.Document
import CrapsStrategy.Proofs.Value.Order
import CrapsStrategy.Proofs.Value.Comparison
import CrapsStrategy.Proofs.Strategy.Check
import CrapsStrategy.Proofs.Strategy.Decode
import CrapsStrategy.Proofs.Strategy.Oversight
import CrapsStrategy.Proofs.Strategy.Start
import CrapsStrategy.Proofs.Strategy.Sized
import CrapsStrategy.Proofs.Strategy.Reading
import CrapsStrategy.Proofs.Strategy.RoundTrip
import CrapsStrategy.Proofs.Strategy.Amounts
import CrapsStrategy.Proofs.Strategy.Steps
import CrapsStrategy.Proofs.Session.Envelopes
