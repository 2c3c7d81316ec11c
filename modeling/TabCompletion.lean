import TabCompletion.ArgTokens
import TabCompletion.Arity
import TabCompletion.Choice
import TabCompletion.CommandLine.Invocation
import TabCompletion.CommandLine.Options
import TabCompletion.CommandLine.Run
import TabCompletion.CommandLine.ScriptShell
import TabCompletion.CommandLine.Surroundings
import TabCompletion.Completion.HelpTopics
import TabCompletion.Completion.Host
import TabCompletion.Completion.Interruption
import TabCompletion.Completion.Progress
import TabCompletion.Completion.Replay
import TabCompletion.Completion.Resolve
import TabCompletion.Completion.Table
import TabCompletion.Config.Basic
import TabCompletion.Config.Document
import TabCompletion.FileTree
import TabCompletion.Grammar.Basic
import TabCompletion.Grammar.Builder
import TabCompletion.Grammar.Error
import TabCompletion.Grammar.Flaglike
import TabCompletion.Grammar.Help
import TabCompletion.Line.Fragment
import TabCompletion.Line.Quoted
import TabCompletion.Line.Words
import TabCompletion.Main
import TabCompletion.Number.Binary64
import TabCompletion.Number.Shortest
import TabCompletion.PathCompletion
import TabCompletion.Proofs.ArgTokens
import TabCompletion.Proofs.CommandLine.EffectiveConfig
import TabCompletion.Proofs.Completion.Alignment
import TabCompletion.Proofs.Completion.Candidates
import TabCompletion.Proofs.Completion.Tables
import TabCompletion.Proofs.FileTree
import TabCompletion.Proofs.Grammar.Declared
import TabCompletion.Proofs.Grammar.HelpFlag
import TabCompletion.Proofs.Grammar.Hidden
import TabCompletion.Proofs.Grammar.MapSources
import TabCompletion.Proofs.Grammar.Registry
import TabCompletion.Proofs.Grammar.Repeats
import TabCompletion.Proofs.Grammar.Slots
import TabCompletion.Proofs.Grammar.Spellings
import TabCompletion.Proofs.Grammar.Usage
import TabCompletion.Proofs.Grammar.WellFormed
import TabCompletion.Proofs.Line.Agreement
import TabCompletion.Proofs.Line.Boundary
import TabCompletion.Proofs.Line.Fragment
import TabCompletion.Proofs.Line.Quoting
import TabCompletion.Proofs.Line.Reader
import TabCompletion.Proofs.Line.RoundTrip
import TabCompletion.Proofs.Line.Trimmed
import TabCompletion.Proofs.Number.Rounding
import TabCompletion.Proofs.PathCompletion
import TabCompletion.Proofs.Replay.Coherent
import TabCompletion.Proofs.Replay.Conservation
import TabCompletion.Proofs.Replay.Effects
import TabCompletion.Proofs.Replay.Exclusive
import TabCompletion.Proofs.Replay.Filling
import TabCompletion.Proofs.Replay.FlagValues
import TabCompletion.Proofs.Replay.FlagsOff
import TabCompletion.Proofs.Replay.History
import TabCompletion.Proofs.Replay.Independence
import TabCompletion.Proofs.Replay.NegativeNumbers
import TabCompletion.Proofs.Replay.Offered
import TabCompletion.Proofs.Replay.Refusal
import TabCompletion.Proofs.Replay.Remainder
import TabCompletion.Proofs.Replay.Step
import TabCompletion.Proofs.Replay.Tally
import TabCompletion.Proofs.Replay.Target
import TabCompletion.Proofs.Replay.Unfinished
import TabCompletion.Proofs.Resolve.Abbreviation
import TabCompletion.Proofs.Resolve.Delegation
import TabCompletion.Proofs.Resolve.Descent
import TabCompletion.Proofs.Resolve.SourceValues
import TabCompletion.Proofs.Resolve.Sources
import TabCompletion.Proofs.Resolve.Subcommands
import TabCompletion.Proofs.Schema.Arrangement
import TabCompletion.Proofs.Schema.Loading
import TabCompletion.Proofs.Shell.Answers
import TabCompletion.Proofs.Shell.Asked
import TabCompletion.Proofs.Shell.DisplayOrder
import TabCompletion.Proofs.Shell.HelpTopics
import TabCompletion.Proofs.Shell.IntegerOrder
import TabCompletion.Proofs.Shell.Messages
import TabCompletion.Proofs.Shell.PrintedLines
import TabCompletion.Proofs.Shell.Span
import TabCompletion.Proofs.Sorting
import TabCompletion.Proofs.Text.Bytes
import TabCompletion.Proofs.Text.Columns
import TabCompletion.Proofs.Text.Lines
import TabCompletion.Proofs.Text.Words
import TabCompletion.Schema.Basic
import TabCompletion.Schema.Build
import TabCompletion.Schema.Demo
import TabCompletion.Schema.Document
import TabCompletion.Shell.Commands
import TabCompletion.Shell.Error
import TabCompletion.Shell.Prompt
import TabCompletion.Shell.Reply
import TabCompletion.Shell.Suggestion
import TabCompletion.Shell.Terminal
import TabCompletion.Sorting
import TabCompletion.Text.Blank
import TabCompletion.Text.Case
import TabCompletion.Text.Case.Tables
import TabCompletion.Text.Escape
import TabCompletion.Text.Ranges
import TabCompletion.Text.Width
import TabCompletion.Text.Width.Tables
import TabCompletion.Toml.Basic
import TabCompletion.Toml.Document
import TabCompletion.Toml.Entries
import TabCompletion.Toml.Fields
import TabCompletion.Toml.Moment
import TabCompletion.Toml.Scalar
import TabCompletion.Toml.Token
import TabCompletion.Toml.Written
