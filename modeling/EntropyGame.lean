import EntropyGame.Batch.Config
import EntropyGame.Batch.Error
import EntropyGame.Batch.Record
import EntropyGame.Batch.Run
import EntropyGame.Batch.Store
import EntropyGame.Batch.Unit
import EntropyGame.Builtin.Basic
import EntropyGame.Builtin.Call
import EntropyGame.CommandLine.Arguments
import EntropyGame.CommandLine.Execute
import EntropyGame.Data.OrderedMap
import EntropyGame.Decimal.Binary64
import EntropyGame.Decimal.Layout
import EntropyGame.Decimal.Shortest
import EntropyGame.Eval
import EntropyGame.Fault
import EntropyGame.Files.Disk
import EntropyGame.Files.Path
import EntropyGame.Files.Texts
import EntropyGame.Files.Tree
import EntropyGame.Game.Checkpoint
import EntropyGame.Game.Codec
import EntropyGame.Game.Config
import EntropyGame.Game.Event
import EntropyGame.Game.Player
import EntropyGame.Game.Run
import EntropyGame.Game.State
import EntropyGame.Game.Step
import EntropyGame.Instruction
import EntropyGame.Json.Document
import EntropyGame.Json.Map
import EntropyGame.Json.Reading
import EntropyGame.Json.Record
import EntropyGame.Json.Writing
import EntropyGame.Judge.Basic
import EntropyGame.Judge.Cache
import EntropyGame.Main
import EntropyGame.Measure
import EntropyGame.Program
import EntropyGame.Proofs.Batch.Calls
import EntropyGame.Proofs.Batch.Isolation
import EntropyGame.Proofs.Batch.Key
import EntropyGame.Proofs.Batch.Rerun
import EntropyGame.Proofs.Batch.Resume
import EntropyGame.Proofs.Decoration
import EntropyGame.Proofs.Game.Answers
import EntropyGame.Proofs.Game.Assign
import EntropyGame.Proofs.Game.Budget
import EntropyGame.Proofs.Game.Ceiling
import EntropyGame.Proofs.Game.Change
import EntropyGame.Proofs.Game.Checkpoint
import EntropyGame.Proofs.Game.Comments
import EntropyGame.Proofs.Game.Control
import EntropyGame.Proofs.Game.Counters
import EntropyGame.Proofs.Game.Ensure
import EntropyGame.Proofs.Game.Finite
import EntropyGame.Proofs.Game.Frame
import EntropyGame.Proofs.Game.Halts
import EntropyGame.Proofs.Game.Internal
import EntropyGame.Proofs.Game.Log
import EntropyGame.Proofs.Game.Names
import EntropyGame.Proofs.Game.Nulls
import EntropyGame.Proofs.Game.Reached
import EntropyGame.Proofs.Game.Registers
import EntropyGame.Proofs.Game.Replay
import EntropyGame.Proofs.Game.Respelling
import EntropyGame.Proofs.Game.Rounds
import EntropyGame.Proofs.Game.Scores
import EntropyGame.Proofs.Game.Transcript
import EntropyGame.Proofs.Game.Unrolled
import EntropyGame.Proofs.Json.Nulls
import EntropyGame.Proofs.Judge.Causal
import EntropyGame.Proofs.Measure
import EntropyGame.Proofs.Source.Halting
import EntropyGame.Proofs.Source.Partition
import EntropyGame.Proofs.Source.Quoted
import EntropyGame.Proofs.Source.ReadBack
import EntropyGame.Proofs.Source.Sound
import EntropyGame.Proofs.Source.Spans
import EntropyGame.Proofs.Value.Cut
import EntropyGame.Register.Basic
import EntropyGame.Register.Store
import EntropyGame.Source.Expr
import EntropyGame.Source.Lexer
import EntropyGame.Source.Line
import EntropyGame.Source.ParseError
import EntropyGame.Source.Parser
import EntropyGame.Source.Span
import EntropyGame.Source.Token
import EntropyGame.Text.Escape
import EntropyGame.Text.Ranges
import EntropyGame.Text.Utf8
import EntropyGame.Text.Words
import EntropyGame.Value.Basic
import EntropyGame.Value.Codec
import EntropyGame.Value.CostVector
import EntropyGame.Value.Phrase
import EntropyGame.Value.Verdict
