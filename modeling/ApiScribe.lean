import ApiScribe.CommandLine.Arguments
import ApiScribe.CommandLine.Run
import ApiScribe.Comment.Argument
import ApiScribe.Comment.Container
import ApiScribe.Comment.Directive
import ApiScribe.Comment.Document
import ApiScribe.Comment.Field
import ApiScribe.Comment.Operation
import ApiScribe.Decimal.Binary64
import ApiScribe.Decimal.Reader
import ApiScribe.Decimal.Shortest
import ApiScribe.Declaration.Basic
import ApiScribe.Declaration.Extraction
import ApiScribe.Declaration.Options
import ApiScribe.Declaration.Table
import ApiScribe.Document.Basic
import ApiScribe.Document.Builder
import ApiScribe.Document.Decode
import ApiScribe.Document.Encode
import ApiScribe.Failure
import ApiScribe.FilePath
import ApiScribe.FileTree.Basic
import ApiScribe.FileTree.Scan
import ApiScribe.FileTree.Sources
import ApiScribe.Finding
import ApiScribe.Generate
import ApiScribe.Json.Decode
import ApiScribe.Json.Encode
import ApiScribe.Json.Printer
import ApiScribe.Json.Reader
import ApiScribe.Json.Value
import ApiScribe.Lookup.Loader
import ApiScribe.Lookup.Resolver
import ApiScribe.Lookup.Scope
import ApiScribe.Main
import ApiScribe.ModulePath
import ApiScribe.Operation.Assembly
import ApiScribe.Operation.Method
import ApiScribe.Operation.Route
import ApiScribe.Overlay
import ApiScribe.OverrideDocument
import ApiScribe.Proofs.Actions
import ApiScribe.Proofs.Comment.Lexing
import ApiScribe.Proofs.Comment.OperationParts
import ApiScribe.Proofs.Comment.Records
import ApiScribe.Proofs.ComponentNames
import ApiScribe.Proofs.Declaration.Events
import ApiScribe.Proofs.Declaration.FileOrder
import ApiScribe.Proofs.Declaration.Imports
import ApiScribe.Proofs.Declaration.Owners
import ApiScribe.Proofs.Declaration.Redeclaration
import ApiScribe.Proofs.Document.Decoding
import ApiScribe.Proofs.Document.FileOrder
import ApiScribe.Proofs.Document.OperationIds
import ApiScribe.Proofs.Document.OperationTable
import ApiScribe.Proofs.Document.OptIn
import ApiScribe.Proofs.Document.Pointers
import ApiScribe.Proofs.Document.References
import ApiScribe.Proofs.Document.Stages
import ApiScribe.Proofs.Document.Tags
import ApiScribe.Proofs.FileTree.Locations
import ApiScribe.Proofs.FileTree.PartialScan
import ApiScribe.Proofs.Json.Decoding
import ApiScribe.Proofs.Json.Paths
import ApiScribe.Proofs.Json.Pointers
import ApiScribe.Proofs.Json.Reading
import ApiScribe.Proofs.Loading
import ApiScribe.Proofs.Lookup.Alike
import ApiScribe.Proofs.Lookup.FailedLoad
import ApiScribe.Proofs.Lookup.NamedImports
import ApiScribe.Proofs.Lookup.Spelling
import ApiScribe.Proofs.Lookup.Stability
import ApiScribe.Proofs.Operation.Assembly
import ApiScribe.Proofs.Operation.Determinacy
import ApiScribe.Proofs.Operation.Joining
import ApiScribe.Proofs.Operation.Journal
import ApiScribe.Proofs.Operation.Owners
import ApiScribe.Proofs.Operation.Parameters
import ApiScribe.Proofs.Operation.Templates
import ApiScribe.Proofs.Operation.WellFormed
import ApiScribe.Proofs.Overlay.Idempotence
import ApiScribe.Proofs.Overlay.Locations
import ApiScribe.Proofs.Overlay.Places
import ApiScribe.Proofs.Rearrangement
import ApiScribe.Proofs.Registry.Calls
import ApiScribe.Proofs.Registry.Growth
import ApiScribe.Proofs.Registry.Informed
import ApiScribe.Proofs.Registry.Memory
import ApiScribe.Proofs.Registry.Naming
import ApiScribe.Proofs.Registry.Pending
import ApiScribe.Proofs.Registry.Room
import ApiScribe.Proofs.Registry.Steps
import ApiScribe.Proofs.Renaming
import ApiScribe.Proofs.Schema.Decoding
import ApiScribe.Proofs.Schema.References
import ApiScribe.Proofs.SortedEntries
import ApiScribe.Proofs.Survey.Aliases
import ApiScribe.Proofs.Survey.Answers
import ApiScribe.Proofs.Survey.Basic
import ApiScribe.Proofs.Survey.Order
import ApiScribe.Proofs.Survey.Performance
import ApiScribe.Proofs.Survey.Saturation
import ApiScribe.Proofs.Survey.Transparency
import ApiScribe.Proofs.Synthesis.Agreement
import ApiScribe.Proofs.Synthesis.Completion
import ApiScribe.Proofs.Synthesis.Depth
import ApiScribe.Proofs.Synthesis.Fields
import ApiScribe.Proofs.Synthesis.Findings
import ApiScribe.Proofs.Synthesis.Literals
import ApiScribe.Proofs.Synthesis.Required
import ApiScribe.Proofs.Synthesis.Termination
import ApiScribe.Proofs.Text.Cutting
import ApiScribe.Proofs.Text.Trimming
import ApiScribe.Proofs.TypeExpr.Parts
import ApiScribe.Proofs.TypeExpr.RawIdentifiers
import ApiScribe.Proofs.TypeExpr.Wrappers
import ApiScribe.RenameRule
import ApiScribe.Schema.Basic
import ApiScribe.Schema.Decode
import ApiScribe.Schema.Details
import ApiScribe.Schema.Encode
import ApiScribe.Schema.Names
import ApiScribe.Schema.Registry
import ApiScribe.Schema.Synthesis
import ApiScribe.Source.Grammar.Basic
import ApiScribe.Source.Grammar.Bounds
import ApiScribe.Source.Grammar.Expressions
import ApiScribe.Source.Grammar.Functions
import ApiScribe.Source.Grammar.Items
import ApiScribe.Source.Grammar.Paths
import ApiScribe.Source.Grammar.Patterns
import ApiScribe.Source.Grammar.Statements
import ApiScribe.Source.Grammar.Types
import ApiScribe.Source.Lexer
import ApiScribe.Source.Read
import ApiScribe.Source.Syntax
import ApiScribe.Source.Token
import ApiScribe.Text.Basic
import ApiScribe.Text.Case
import ApiScribe.Text.Ident
import ApiScribe.Text.Order
import ApiScribe.TypeExpr.Basic
import ApiScribe.TypeExpr.Primitive
import ApiScribe.Yaml.Character
import ApiScribe.Yaml.Cursor
import ApiScribe.Yaml.Node
import ApiScribe.Yaml.Printer
import ApiScribe.Yaml.Reader
import ApiScribe.Yaml.Scalar
import ApiScribe.Yaml.ScalarText
import ApiScribe.Yaml.Token
