import Partitura.CommandLine
import Partitura.Compile
import Partitura.Compile.Context
import Partitura.Compile.Declare
import Partitura.Compile.Issue
import Partitura.Compile.Measure
import Partitura.Compile.Options
import Partitura.Compile.Perform
import Partitura.Data
import Partitura.Data.Convert
import Partitura.Data.Order
import Partitura.Data.Shown
import Partitura.Documents
import Partitura.Duration
import Partitura.Fault
import Partitura.Files
import Partitura.Grammar.Arguments
import Partitura.Grammar.Block
import Partitura.Grammar.Declaration
import Partitura.Grammar.Event
import Partitura.Grammar.Stream
import Partitura.Grammar.Voice
import Partitura.Instrument
import Partitura.Json.Reader
import Partitura.Json.Writer
import Partitura.Library
import Partitura.Library.Folder
import Partitura.Library.Shipped
import Partitura.Main
import Partitura.Modifier
import Partitura.Notice
import Partitura.Number.Decimal
import Partitura.Number.Double
import Partitura.Number.Fraction
import Partitura.Number.Numeral
import Partitura.Number.Quantity
import Partitura.Number.Shortest
import Partitura.Path
import Partitura.Pitch
import Partitura.Proofs.Approximation
import Partitura.Proofs.Arguments
import Partitura.Proofs.Attributes
import Partitura.Proofs.Blocks
import Partitura.Proofs.Bounds
import Partitura.Proofs.Braces
import Partitura.Proofs.Carrying
import Partitura.Proofs.Causality
import Partitura.Proofs.Cents
import Partitura.Proofs.Changes
import Partitura.Proofs.Definitions
import Partitura.Proofs.Encounters
import Partitura.Proofs.EventLimit
import Partitura.Proofs.Events
import Partitura.Proofs.Faults
import Partitura.Proofs.History
import Partitura.Proofs.Inlining
import Partitura.Proofs.Instants
import Partitura.Proofs.Interplay
import Partitura.Proofs.Layout
import Partitura.Proofs.Ledger
import Partitura.Proofs.Lexing
import Partitura.Proofs.Line
import Partitura.Proofs.Listing
import Partitura.Proofs.Literals
import Partitura.Proofs.Loading
import Partitura.Proofs.Lookup
import Partitura.Proofs.Meter
import Partitura.Proofs.Notation
import Partitura.Proofs.Numeral
import Partitura.Proofs.Offsets
import Partitura.Proofs.Playing
import Partitura.Proofs.Pointing
import Partitura.Proofs.Positions
import Partitura.Proofs.Reachable
import Partitura.Proofs.ReadBack
import Partitura.Proofs.Reading
import Partitura.Proofs.Readings
import Partitura.Proofs.Refusals
import Partitura.Proofs.Relabel
import Partitura.Proofs.Rendering
import Partitura.Proofs.Replay
import Partitura.Proofs.Reprinting
import Partitura.Proofs.Roster
import Partitura.Proofs.RoundTrip
import Partitura.Proofs.Run
import Partitura.Proofs.Seclusion
import Partitura.Proofs.Settings
import Partitura.Proofs.Settling
import Partitura.Proofs.Soundness
import Partitura.Proofs.Spelling
import Partitura.Proofs.Substitution
import Partitura.Proofs.Tablature
import Partitura.Proofs.Tiling
import Partitura.Proofs.Tokenization
import Partitura.Proofs.Walk
import Partitura.Proofs.Walkthrough
import Partitura.Proofs.WellFormed
import Partitura.Proofs.Window
import Partitura.Proofs.Wrapper
import Partitura.Score
import Partitura.Session
import Partitura.Stored
import Partitura.Stored.Pitch
import Partitura.Stored.Query
import Partitura.Stored.Read
import Partitura.Stored.Resolve
import Partitura.Stored.Rhythm
import Partitura.Stored.Timeline
import Partitura.Stored.Written
import Partitura.Text.Blank
import Partitura.Text.CharClass
import Partitura.Text.Cut
import Partitura.Text.Digit
import Partitura.Text.Lower
import Partitura.Text.Printable
import Partitura.Text.Quoted
import Partitura.Text.Utf8
import Partitura.TimeSignature
import Partitura.Timeline
import Partitura.Token
import Partitura.Token.Lexer
import Partitura.Token.LineMap
import Partitura.Tools
import Partitura.Yaml.Date
import Partitura.Yaml.Literal
import Partitura.Yaml.Node
import Partitura.Yaml.Plain
import Partitura.Yaml.Quoted
import Partitura.Yaml.Reader
import Partitura.Yaml.Spot
import Partitura.Yaml.Tag
import Partitura.Yaml.Token
import Partitura.Yaml.Tree
import Partitura.Yaml.Value
import Partitura.Yaml.Writer
