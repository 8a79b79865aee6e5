import TreeLowering.Config.Toml
import TreeLowering.Corpus.Directory
import TreeLowering.Program.Builder
import TreeLowering.Program.Dump
import TreeLowering.Program.Json
import TreeLowering.Proofs.Cursor.Laws
import TreeLowering.Proofs.Syntax.Outline
import TreeLowering.Proofs.Lowering.Reading
import TreeLowering.Proofs.Walk.Tracking
import TreeLowering.Source.SpanJson
import TreeLowering.Proofs.Lowering.Runs
import TreeLowering.Proofs.Lowering.Grammar
import TreeLowering.Proofs.Lowering.Contents
import TreeLowering.Proofs.Cursor.Agreement
import TreeLowering.Proofs.Lowering.Locality
import TreeLowering.Proofs.Lowering.Correspondence
import TreeLowering.Proofs.Lowering.Blame
import TreeLowering.Proofs.Lowering.Comments
import TreeLowering.Proofs.Grammar.Broken
import TreeLowering.Proofs.Pipeline.Gate
import TreeLowering.Proofs.Number.Rounding
import TreeLowering.Proofs.Number.Shortest
import TreeLowering.Proofs.Number.Layout
import TreeLowering.Proofs.Json.Numbers
import TreeLowering.Proofs.Json.Words
import TreeLowering.Proofs.Json.Scanning
import TreeLowering.Proofs.Json.RoundTrip
import TreeLowering.Proofs.Program.Exchange
import TreeLowering.Proofs.Lowering.Sequence
import TreeLowering.Proofs.Lowering.Texts
import TreeLowering.Proofs.Pipeline.Despite
import TreeLowering.Proofs.Number.Nearest
import TreeLowering.Proofs.Number.Digits
import TreeLowering.Proofs.Lowering.Literals
import TreeLowering.Proofs.Grammar.Reports
import TreeLowering.Proofs.Grammar.Unclosed
import TreeLowering.Proofs.Lowering.Causes
import TreeLowering.Proofs.Report.Lines
import TreeLowering.Proofs.Report.Messages
import TreeLowering.Proofs.Pipeline.ShortReports
import TreeLowering.Proofs.Json.Bounds
import TreeLowering.Proofs.Program.Canonical
import TreeLowering.Proofs.Cursor.Paths
import TreeLowering.Proofs.Number.Texts
import TreeLowering.Proofs.Program.Atoms
import TreeLowering.Proofs.Program.Framing
import TreeLowering.Proofs.Lowering.Integers
import TreeLowering.Proofs.Lowering.Magnitudes
import TreeLowering.Proofs.Traversal
import TreeLowering.Proofs.Text.ByteOrder
import TreeLowering.Proofs.Corpus.Path
import TreeLowering.Proofs.Corpus.Files
import TreeLowering.Proofs.Corpus.Loading
import TreeLowering.Proofs.Grammar.Marks
import TreeLowering.Proofs.Grammar.Listing
