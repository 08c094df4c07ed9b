import LoginNames.Buffered
import LoginNames.Bytes
import LoginNames.CommandLine.Describe
import LoginNames.CommandLine.Help
import LoginNames.CommandLine.Options
import LoginNames.CommandLine.Parser
import LoginNames.Console
import LoginNames.Engine
import LoginNames.Environment
import LoginNames.Failure
import LoginNames.Files.Access
import LoginNames.Files.Path
import LoginNames.Files.Tree
import LoginNames.Generator
import LoginNames.IoError
import LoginNames.Log
import LoginNames.Main
import LoginNames.NameList
import LoginNames.NameList.Loader
import LoginNames.NameList.Reader
import LoginNames.Numeral
import LoginNames.Placeholder
import LoginNames.Profile
import LoginNames.Program
import LoginNames.Progress
import LoginNames.Proofs.Attempts
import LoginNames.Proofs.BadInput
import LoginNames.Proofs.Buffering
import LoginNames.Proofs.CommandLine.Flags
import LoginNames.Proofs.CommandLine.Setting
import LoginNames.Proofs.CommandLine.Spelling
import LoginNames.Proofs.Diagnostics
import LoginNames.Proofs.ExitStatus
import LoginNames.Proofs.Expansions
import LoginNames.Proofs.Files.Ancestors
import LoginNames.Proofs.Files.Creation
import LoginNames.Proofs.Files.Entries
import LoginNames.Proofs.Files.Extension
import LoginNames.Proofs.Files.Lookup
import LoginNames.Proofs.Files.Output
import LoginNames.Proofs.Generation
import LoginNames.Proofs.LimitedSink
import LoginNames.Proofs.Merging
import LoginNames.Proofs.NameList.LineReading
import LoginNames.Proofs.NameList.Lines
import LoginNames.Proofs.NameList.Loading
import LoginNames.Proofs.NameList.Overlong
import LoginNames.Proofs.NameList.Policies
import LoginNames.Proofs.NameList.RoundTrip
import LoginNames.Proofs.NameList.Script
import LoginNames.Proofs.NameList.Stream
import LoginNames.Proofs.NameList.Written
import LoginNames.Proofs.Observers
import LoginNames.Proofs.Performance
import LoginNames.Proofs.Precedence
import LoginNames.Proofs.Profile.Acceptance
import LoginNames.Proofs.Profile.Fields
import LoginNames.Proofs.Profile.Printing
import LoginNames.Proofs.Profile.Reordered
import LoginNames.Proofs.Profile.Substituted
import LoginNames.Proofs.References
import LoginNames.Proofs.Reloading
import LoginNames.Proofs.Settings
import LoginNames.Proofs.Splitting
import LoginNames.Proofs.Steps
import LoginNames.Proofs.Substitution
import LoginNames.Proofs.Template.Composition
import LoginNames.Proofs.Template.Expansion
import LoginNames.Proofs.Template.Grammar
import LoginNames.Proofs.Template.Outline
import LoginNames.Proofs.Template.Partition
import LoginNames.Proofs.Template.Printing
import LoginNames.Proofs.Template.Scanner
import LoginNames.Proofs.Text.Pattern
import LoginNames.Proofs.Text.Separator
import LoginNames.Proofs.Text.Shown
import LoginNames.Proofs.Toml.Distinct
import LoginNames.Proofs.Toml.Literal
import LoginNames.Proofs.Toml.Quoted
import LoginNames.Proofs.Toml.Reordered
import LoginNames.Proofs.Toml.Rows
import LoginNames.Proofs.Toml.Sections
import LoginNames.Proofs.Toml.Substituted
import LoginNames.Proofs.UnreadableNames
import LoginNames.Proofs.WholeRun
import LoginNames.Proofs.Writing
import LoginNames.Run
import LoginNames.Settings
import LoginNames.Settings.Check
import LoginNames.Sink
import LoginNames.Template
import LoginNames.Text.Invisible
import LoginNames.Text.Quoted
import LoginNames.Toml.Assembly
import LoginNames.Toml.Document
import LoginNames.Toml.Layout
import LoginNames.Toml.Quoted
import LoginNames.Toml.Range
import LoginNames.Toml.Scalar
import LoginNames.Toml.Value
