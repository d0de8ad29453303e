import PlainSteps.Action
import PlainSteps.Browser.Execution
import PlainSteps.Browser.Locator
import PlainSteps.Browser.Page
import PlainSteps.Browser.Record
import PlainSteps.Browser.Script
import PlainSteps.Browser.Session
import PlainSteps.CommandLine.Arguments
import PlainSteps.CommandLine.Command
import PlainSteps.CommandLine.Compile
import PlainSteps.CommandLine.Run
import PlainSteps.Compilation
import PlainSteps.Config.Application
import PlainSteps.Config.Basic
import PlainSteps.Config.Loading
import PlainSteps.Config.Record
import PlainSteps.Config.Shipped
import PlainSteps.Dataset.Basic
import PlainSteps.Dataset.Csv
import PlainSteps.Dataset.Expansion
import PlainSteps.Dataset.Inline
import PlainSteps.Dataset.Source
import PlainSteps.Dataset.Table
import PlainSteps.Dataset.Workbook
import PlainSteps.Facts.Address
import PlainSteps.Facts.DatasetName
import PlainSteps.Facts.Duration
import PlainSteps.Facts.Labelled
import PlainSteps.Facts.Target
import PlainSteps.Files.Glob
import PlainSteps.Files.Path
import PlainSteps.Files.Tree
import PlainSteps.Generator
import PlainSteps.Intent.Basic
import PlainSteps.Intent.Classifier
import PlainSteps.Intent.Rule
import PlainSteps.Json.Basic
import PlainSteps.Json.Printer
import PlainSteps.Json.Reader
import PlainSteps.Libraries
import PlainSteps.Main
import PlainSteps.Moment
import PlainSteps.Number.Binary64
import PlainSteps.Number.Notation
import PlainSteps.Number.Numeral
import PlainSteps.Pattern.Basic
import PlainSteps.Pattern.Reader
import PlainSteps.Pattern.Search
import PlainSteps.Pipeline
import PlainSteps.Prompt
import PlainSteps.Report
import PlainSteps.Schema
import PlainSteps.State
import PlainSteps.Text.Basic
import PlainSteps.Text.Character
import PlainSteps.Text.DigitTable
import PlainSteps.Text.HiddenTable
import PlainSteps.Text.LowerTable
import PlainSteps.Text.Quoted
import PlainSteps.Text.WordTable
import PlainSteps.Told
import PlainSteps.Validation
import PlainSteps.Workspace
import PlainSteps.Proofs.Step.Label
import PlainSteps.Proofs.Compilation.Blocks
import PlainSteps.Proofs.Browser.FailFast
import PlainSteps.Proofs.Browser.Verdict
import PlainSteps.Proofs.Number.Digits
import PlainSteps.Proofs.Number.Rounding
import PlainSteps.Proofs.Number.Decimal
import PlainSteps.Proofs.Facts.Duration
import PlainSteps.Proofs.Compilation.Failure
import PlainSteps.Proofs.Pattern.Run
import PlainSteps.Proofs.Dataset.LineRecord
import PlainSteps.Proofs.Compilation.InlineRows
import PlainSteps.Proofs.Browser.Breakage
import PlainSteps.Proofs.Browser.EveryBrowser
import PlainSteps.Proofs.Browser.Faults
import PlainSteps.Proofs.Browser.Turns
import PlainSteps.Proofs.Pipeline.Passing
import PlainSteps.Proofs.CommandLine.ExitCode
import PlainSteps.Proofs.Intent.Clauses
import PlainSteps.Proofs.Compilation.Compound
import PlainSteps.Proofs.Browser.Independence
import PlainSteps.Proofs.Browser.SideBySide
import PlainSteps.Proofs.Browser.LeftOver
import PlainSteps.Proofs.Config.Loading
import PlainSteps.Proofs.Pipeline.Accounting
import PlainSteps.Proofs.Validation.Agreement
import PlainSteps.Proofs.Config.Cache
import PlainSteps.Proofs.Facts.DataFile
import PlainSteps.Proofs.Facts.Target
import PlainSteps.Proofs.Intent.Keywords
import PlainSteps.Proofs.Compilation.Lookups
import PlainSteps.Proofs.Compilation.Passages
import PlainSteps.Proofs.Compilation.Vocabulary
import PlainSteps.Proofs.Compilation.Shadowed
import PlainSteps.Proofs.Text.Newlines
import PlainSteps.Proofs.Compilation.Readings
import PlainSteps.Proofs.Pipeline.Tally
import PlainSteps.Proofs.Pipeline.Publishing
import PlainSteps.Proofs.Pipeline.Isolation
import PlainSteps.Proofs.Dataset.LabelledLine
import PlainSteps.Proofs.Dataset.BlockScan
import PlainSteps.Proofs.Dataset.Leftovers
import PlainSteps.Proofs.Dataset.AnyOrder
import PlainSteps.Proofs.Pattern.Escape
import PlainSteps.Proofs.Browser.Resolution
import PlainSteps.Proofs.Browser.Targets
import PlainSteps.Proofs.Text.Lower
import PlainSteps.Proofs.Compilation.Templates
import PlainSteps.Proofs.Browser.Contains
import PlainSteps.Proofs.Browser.Waits
import PlainSteps.Proofs.Number.Nearest
import PlainSteps.Proofs.Facts.Conversion
import PlainSteps.Proofs.Dataset.Logins
import PlainSteps.Proofs.Text.Trimming
import PlainSteps.Proofs.Json.Members
import PlainSteps.Proofs.Dataset.UsableRecords
import PlainSteps.Proofs.Dataset.WrittenValues
import PlainSteps.Proofs.Dataset.NamedRows
import PlainSteps.Proofs.Dataset.InlineGate
import PlainSteps.Proofs.Compilation.WholeBody
import PlainSteps.Proofs.Pattern.Course
import PlainSteps.Proofs.Dataset.TwoForms
import PlainSteps.Proofs.Facts.Credentials
import PlainSteps.Proofs.Facts.FormFields
import PlainSteps.Proofs.Dataset.NamedFile
import PlainSteps.Proofs.Step.Numbering
import PlainSteps.Proofs.Pattern.Pieces
import PlainSteps.Proofs.Compilation.Splitting
import PlainSteps.Proofs.Facts.Punctuation
import PlainSteps.Proofs.Browser.Negation
import PlainSteps.Proofs.Prompt.Head
import PlainSteps.Proofs.Browser.Reported
import PlainSteps.Proofs.Validation.Fixes
import PlainSteps.Proofs.Pipeline.Diagnosis
import PlainSteps.Proofs.Config.Environment
import PlainSteps.Proofs.Files.Trees
import PlainSteps.Proofs.Config.Listing
import PlainSteps.Proofs.Files.Globbing
import PlainSteps.Proofs.CommandLine.Selection
import PlainSteps.Proofs.Facts.FieldRegions
import PlainSteps.Proofs.Compilation.Descent
import PlainSteps.Proofs.Prompt.Hints
import PlainSteps.Proofs.CommandLine.Relocation
import PlainSteps.Proofs.Json.Standard
import PlainSteps.Proofs.Json.Printing
import PlainSteps.Proofs.Json.Completeness
import PlainSteps.Proofs.Compilation.Saving
