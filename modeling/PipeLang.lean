import PipeLang.Command
import PipeLang.Error
import PipeLang.Evaluation.Builtin
import PipeLang.Evaluation.Evaluate
import PipeLang.Evaluation.Outcome
import PipeLang.Expression.Basic
import PipeLang.Expression.Grammar
import PipeLang.Expression.Parse
import PipeLang.Expression.Parsed
import PipeLang.Expression.Render
import PipeLang.Heap
import PipeLang.Location
import PipeLang.Main
import PipeLang.Number.Binary
import PipeLang.Number.Decimal
import PipeLang.Number.Shortest
import PipeLang.Prompt
import PipeLang.Scope
import PipeLang.Session
import PipeLang.Sink
import PipeLang.Stream
import PipeLang.Text.Blank
import PipeLang.Text.GraphemeExtend
import PipeLang.Text.Printable
import PipeLang.Text.Quoted
import PipeLang.Text.Ranges
import PipeLang.Text.Utf8
import PipeLang.Token.Basic
import PipeLang.Token.Literal
import PipeLang.Token.Reading
import PipeLang.Token.Scan
import PipeLang.Token.Word
import PipeLang.Value
import PipeLang.Workbench
import PipeLang.Proofs.Answers
import PipeLang.Proofs.Alike
import PipeLang.Proofs.Jobs
import PipeLang.Proofs.Admission
import PipeLang.Proofs.Effects
import PipeLang.Proofs.Confinement
import PipeLang.Proofs.Nodes
import PipeLang.Proofs.Bindings
import PipeLang.Proofs.CellFrame
import PipeLang.Proofs.History
import PipeLang.Proofs.Spelling
import PipeLang.Proofs.Lossless
import PipeLang.Proofs.Relocation
import PipeLang.Proofs.Unparse
import PipeLang.Proofs.Cutting
import PipeLang.Proofs.Blame
import PipeLang.Proofs.Lines
import PipeLang.Proofs.MoreSteps
import PipeLang.Proofs.MovedRun
import PipeLang.Proofs.Continuation
import PipeLang.Proofs.Sequence
import PipeLang.Proofs.Requests
import PipeLang.Proofs.Targets
import PipeLang.Proofs.MovedParse
import PipeLang.Proofs.Layout
import PipeLang.Proofs.Script
import PipeLang.Proofs.FailingSink
import PipeLang.Proofs.SideBySide
import PipeLang.Proofs.Locality
import PipeLang.Proofs.Derivation
import PipeLang.Proofs.Starved
import PipeLang.Proofs.Incomplete
import PipeLang.Proofs.Client
import PipeLang.Proofs.Naming
import PipeLang.Proofs.Recognition
import PipeLang.Proofs.Spacing
import PipeLang.Proofs.Offence
import PipeLang.Proofs.Rounds
import PipeLang.Proofs.Unrelated
import PipeLang.Proofs.Acyclic
import PipeLang.Proofs.LambdaFree
import PipeLang.Proofs.Operands
import PipeLang.Proofs.ParseErrors
import PipeLang.Proofs.Walk
import PipeLang.Proofs.Rounding
import PipeLang.Proofs.Doubles
import PipeLang.Proofs.NumberText
import PipeLang.Proofs.Decoding
import PipeLang.Proofs.Vocabulary
import PipeLang.Proofs.TreeText
import PipeLang.Proofs.SymbolicText
import PipeLang.Proofs.Dialogue
import PipeLang.Proofs.QuotedStrings
import PipeLang.Proofs.Agreement
import PipeLang.Proofs.Progress
