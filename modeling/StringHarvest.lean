import StringHarvest.Catalog.Basic
import StringHarvest.Catalog.OfSource
import StringHarvest.Catalog.Template
import StringHarvest.Command.Arguments
import StringHarvest.Command.Help
import StringHarvest.Command.Run
import StringHarvest.Config.Basic
import StringHarvest.Config.Json
import StringHarvest.Config.Lookup
import StringHarvest.Date.Civil
import StringHarvest.Date.Stamp
import StringHarvest.Extraction
import StringHarvest.Files.Changes
import StringHarvest.Files.Discovery
import StringHarvest.Files.System
import StringHarvest.Files.Tree
import StringHarvest.Glob.Expand
import StringHarvest.Glob.Pattern
import StringHarvest.Json.Cursor
import StringHarvest.Json.Number
import StringHarvest.Json.Text
import StringHarvest.Json.Value
import StringHarvest.Main
import StringHarvest.Message.Basic
import StringHarvest.Message.CommentAbove
import StringHarvest.Message.OfCall
import StringHarvest.Message.Options
import StringHarvest.Node.Basic
import StringHarvest.Node.Calls
import StringHarvest.Node.Constant
import StringHarvest.Node.Dump
import StringHarvest.Node.OfProgram
import StringHarvest.Number.Binary64
import StringHarvest.Number.Shortest
import StringHarvest.Path.Basic
import StringHarvest.Proofs.Catalog.History
import StringHarvest.Proofs.Catalog.Insertion
import StringHarvest.Proofs.Catalog.LiteralRecovery
import StringHarvest.Proofs.Catalog.Outcomes
import StringHarvest.Proofs.Catalog.TemplateReader
import StringHarvest.Proofs.Catalog.TemplateText
import StringHarvest.Proofs.Catalog.ThreadedScan
import StringHarvest.Proofs.Command.ExtractFrame
import StringHarvest.Proofs.Command.InitTransparent
import StringHarvest.Proofs.Config.CheckedPatterns
import StringHarvest.Proofs.Config.CurrentSettings
import StringHarvest.Proofs.Config.NearestSettings
import StringHarvest.Proofs.Config.SpelledSettings
import StringHarvest.Proofs.Date.Calendar
import StringHarvest.Proofs.Date.PinnedStamp
import StringHarvest.Proofs.Extraction.Schedules
import StringHarvest.Proofs.Extraction.WholeRun
import StringHarvest.Proofs.Files.DirectoryWalk
import StringHarvest.Proofs.Files.FoundInOrder
import StringHarvest.Proofs.Files.FoundOnce
import StringHarvest.Proofs.Files.FoundPaths
import StringHarvest.Proofs.Files.Locations
import StringHarvest.Proofs.Files.OneMoreFile
import StringHarvest.Proofs.Glob.Segments
import StringHarvest.Proofs.Json.Grammar
import StringHarvest.Proofs.Json.Reading
import StringHarvest.Proofs.Json.Skipping
import StringHarvest.Proofs.Message.CallReading
import StringHarvest.Proofs.Message.CommentBlock
import StringHarvest.Proofs.Message.ComputedKeys
import StringHarvest.Proofs.Message.OptionTexts
import StringHarvest.Proofs.Node.DottedNames
import StringHarvest.Proofs.Node.MessageCalls
import StringHarvest.Proofs.Node.Positions
import StringHarvest.Proofs.Node.QualifiedNames
import StringHarvest.Proofs.Node.SourceOrder
import StringHarvest.Proofs.Node.Summands
import StringHarvest.Proofs.Path.Components
import StringHarvest.Proofs.Path.Joins
import StringHarvest.Proofs.Path.Parents
import StringHarvest.Proofs.Path.Segments
import StringHarvest.Proofs.Results
import StringHarvest.Proofs.Script.CallStatement
import StringHarvest.Proofs.Script.Order.Basic
import StringHarvest.Proofs.Script.Order.Expressions
import StringHarvest.Proofs.Script.Order.Functions
import StringHarvest.Proofs.Script.Order.Markup
import StringHarvest.Proofs.Script.Order.Modules
import StringHarvest.Proofs.Script.Order.Primary
import StringHarvest.Proofs.Script.Order.Program
import StringHarvest.Proofs.Script.Order.Statements
import StringHarvest.Proofs.Script.Order.Types
import StringHarvest.Proofs.Script.Progress
import StringHarvest.Proofs.Script.Stops
import StringHarvest.Proofs.Script.Trail
import StringHarvest.Proofs.Script.Wrappers
import StringHarvest.Proofs.Script.WrittenText
import StringHarvest.Proofs.Source.CallOrder
import StringHarvest.Proofs.Source.Lines
import StringHarvest.Proofs.Source.TreeShape
import StringHarvest.Proofs.Text.Pieces
import StringHarvest.Proofs.Text.Places
import StringHarvest.Script.Lexer
import StringHarvest.Script.Parse.Basic
import StringHarvest.Script.Parse.Expressions
import StringHarvest.Script.Parse.Functions
import StringHarvest.Script.Parse.Grammar
import StringHarvest.Script.Parse.Markup
import StringHarvest.Script.Parse.Modules
import StringHarvest.Script.Parse.Patterns
import StringHarvest.Script.Parse.Statements
import StringHarvest.Script.Parse.Types
import StringHarvest.Script.Target
import StringHarvest.Script.Token
import StringHarvest.Script.Tree
import StringHarvest.Source.Basic
import StringHarvest.Source.Language
import StringHarvest.Text.Blank
import StringHarvest.Text.Letter
import StringHarvest.Text.Location
import StringHarvest.Text.Printable
import StringHarvest.Text.Quoted
import StringHarvest.Text.Ranges
import StringHarvest.Text.Width
import StringHarvest.Trace
