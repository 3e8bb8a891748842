import Stencil.Calendar
import Stencil.Command
import Stencil.Command.Flag
import Stencil.Command.Halt
import Stencil.Command.Help
import Stencil.Command.Parse
import Stencil.Command.Request
import Stencil.Command.Run
import Stencil.Command.Words
import Stencil.Config
import Stencil.Config.Error
import Stencil.Config.Issue
import Stencil.Config.Load
import Stencil.Context
import Stencil.Data.Error
import Stencil.Data.Fault
import Stencil.Data.Load
import Stencil.Data.Override
import Stencil.Data.Toml.Document
import Stencil.Data.Toml.Reader
import Stencil.Data.Toml.Scalar
import Stencil.Data.Toml.Text
import Stencil.Data.Yaml.BlockText
import Stencil.Data.Yaml.Directive
import Stencil.Data.Yaml.Folding
import Stencil.Data.Yaml.Layout
import Stencil.Data.Yaml.Layout.Build
import Stencil.Data.Yaml.Lexeme
import Stencil.Data.Yaml.Node
import Stencil.Data.Yaml.Node.Data
import Stencil.Data.Yaml.Node.OfLayout
import Stencil.Data.Yaml.Node.Text
import Stencil.Data.Yaml.Properties
import Stencil.Data.Yaml.Reader
import Stencil.Data.Yaml.ScalarText
import Stencil.Data.Yaml.Scan
import Stencil.Data.Yaml.Schema
import Stencil.Data.Yaml.Timestamp
import Stencil.Diagnostic
import Stencil.Failure
import Stencil.Files.Disk
import Stencil.Files.Encoding
import Stencil.Files.Fault
import Stencil.Files.Glob
import Stencil.Files.Glob.Base
import Stencil.Files.Glob.Braces
import Stencil.Files.Glob.Expression
import Stencil.Files.Glob.Expression.Piece
import Stencil.Files.Glob.Expression.Read
import Stencil.Files.Glob.Expression.State
import Stencil.Files.Glob.Fault
import Stencil.Files.Glob.Range
import Stencil.Files.Glob.Segments
import Stencil.Files.Glob.Shape
import Stencil.Files.Lottery
import Stencil.Files.PathText
import Stencil.Files.Tree
import Stencil.Files.Workspace
import Stencil.Generate.Naming
import Stencil.Generate.Result
import Stencil.Generate.Target
import Stencil.Json.Reader
import Stencil.Json.Writer
import Stencil.Log
import Stencil.Main
import Stencil.Number
import Stencil.Number.Decimal
import Stencil.Number.Layout
import Stencil.Number.Literal
import Stencil.Path
import Stencil.Plain
import Stencil.Plain.Text
import Stencil.Position
import Stencil.Proofs.Calendar.DateTexts
import Stencil.Proofs.Calendar.DayNumbers
import Stencil.Proofs.Calendar.ValidDates
import Stencil.Proofs.Command.Rendering
import Stencil.Proofs.Config.Accepted
import Stencil.Proofs.Config.NormalForms
import Stencil.Proofs.Data.IndependentOverrides
import Stencil.Proofs.Data.LocalDates
import Stencil.Proofs.Data.Merging
import Stencil.Proofs.Data.OverrideTexts
import Stencil.Proofs.Data.Overriding
import Stencil.Proofs.Files.AlikeReads
import Stencil.Proofs.Files.AlikeRuns
import Stencil.Proofs.Files.Contents
import Stencil.Proofs.Files.DiskRuns
import Stencil.Proofs.Files.Edits
import Stencil.Proofs.Files.Glob.AlikeSearches
import Stencil.Proofs.Files.Glob.BelowRegex
import Stencil.Proofs.Files.Glob.Findings
import Stencil.Proofs.Files.Glob.FolderExpression
import Stencil.Proofs.Files.Glob.FolderRegex
import Stencil.Proofs.Files.Glob.IgnoredFolders
import Stencil.Proofs.Files.Glob.PackageRegex
import Stencil.Proofs.Files.Glob.PlannedGroups
import Stencil.Proofs.Files.Glob.ShownNames
import Stencil.Proofs.Files.Glob.TemplateExpression
import Stencil.Proofs.Files.Glob.TemplatePattern
import Stencil.Proofs.Files.Glob.TemplateRegex
import Stencil.Proofs.Files.Places
import Stencil.Proofs.Files.Staging
import Stencil.Proofs.Files.Trees
import Stencil.Proofs.Generate.AlikeTargets
import Stencil.Proofs.Generate.Contents
import Stencil.Proofs.Generate.FoundTemplates
import Stencil.Proofs.Generate.Frames
import Stencil.Proofs.Generate.Inputs
import Stencil.Proofs.Generate.OutputNames
import Stencil.Proofs.Generate.Outputs
import Stencil.Proofs.Generate.Plans
import Stencil.Proofs.Generate.Sources
import Stencil.Proofs.Generate.TargetOrders
import Stencil.Proofs.Generate.TargetRuns
import Stencil.Proofs.Generate.TemplateFilter
import Stencil.Proofs.Generate.Templates
import Stencil.Proofs.Generate.Writing
import Stencil.Proofs.Log.LoggedRuns
import Stencil.Proofs.Number.DecimalTexts
import Stencil.Proofs.Number.Decimals
import Stencil.Proofs.Number.DigitTexts
import Stencil.Proofs.Number.ExactTexts
import Stencil.Proofs.Number.Nearest
import Stencil.Proofs.Number.SafeIntegers
import Stencil.Proofs.Outcome
import Stencil.Proofs.Path.Spelling
import Stencil.Proofs.Plain.Members
import Stencil.Proofs.Plain.Places
import Stencil.Proofs.Regex.Matching
import Stencil.Proofs.Related
import Stencil.Proofs.Report.Verdicts
import Stencil.Proofs.Template.Backslashes
import Stencil.Proofs.Template.BlockRuns
import Stencil.Proofs.Template.Blocks
import Stencil.Proofs.Template.CheckedAssembly
import Stencil.Proofs.Template.CheckedRendering
import Stencil.Proofs.Template.Concatenation
import Stencil.Proofs.Template.EnclosingLoops
import Stencil.Proofs.Template.ErrorPlaces
import Stencil.Proofs.Template.FreeNames
import Stencil.Proofs.Template.Lockstep
import Stencil.Proofs.Template.Lookups
import Stencil.Proofs.Template.LoopMatching
import Stencil.Proofs.Template.LoopSpans
import Stencil.Proofs.Template.Nesting
import Stencil.Proofs.Template.Offences
import Stencil.Proofs.Template.PieceTokens
import Stencil.Proofs.Template.Positions
import Stencil.Proofs.Template.Printing
import Stencil.Proofs.Template.Readings
import Stencil.Proofs.Template.RenamedBlocks
import Stencil.Proofs.Template.Renaming
import Stencil.Proofs.Template.RunTraces
import Stencil.Proofs.Template.RunningLoops
import Stencil.Proofs.Template.TagSpelling
import Stencil.Proofs.Template.TokenSources
import Stencil.Proofs.Template.Unrolling
import Stencil.Proofs.Template.Visits
import Stencil.Proofs.Text.FirstPlace
import Stencil.Proofs.Text.LineFeeds
import Stencil.Proofs.Text.Units
import Stencil.Proofs.Value.CheckedConversion
import Stencil.Proofs.Value.Conversion
import Stencil.Proofs.Value.ExactDates
import Stencil.Proofs.Value.FirstUnsupported
import Stencil.Proofs.Value.Losses
import Stencil.Proofs.Value.Restoring
import Stencil.Proofs.Value.Shapes
import Stencil.Regex
import Stencil.Regex.Reader
import Stencil.Report
import Stencil.Report.Human
import Stencil.Report.Machine
import Stencil.Report.Style
import Stencil.Template.Compiled
import Stencil.Template.Error
import Stencil.Template.Loose
import Stencil.Template.Outline
import Stencil.Template.Piece
import Stencil.Template.Render
import Stencil.Template.Resolve
import Stencil.Template.Tag
import Stencil.Template.Token
import Stencil.Template.Tokenize
import Stencil.Text
import Stencil.Text.Base64
import Stencil.Text.Search
import Stencil.Text.Similar
import Stencil.Value
import Stencil.Value.Invalid
import Stencil.Value.Plain
