import MessageCatalog.Build
import MessageCatalog.CommandLine.Arguments
import MessageCatalog.CommandLine.Extract
import MessageCatalog.CommandLine.Run
import MessageCatalog.Config.Basic
import MessageCatalog.Config.Json
import MessageCatalog.Config.Search
import MessageCatalog.Decimal.Binary
import MessageCatalog.Decimal.Read
import MessageCatalog.Decimal.Shortest
import MessageCatalog.Descriptor.Basic
import MessageCatalog.Descriptor.Builder
import MessageCatalog.Descriptor.Failure
import MessageCatalog.Descriptor.Store
import MessageCatalog.Edit
import MessageCatalog.Extraction.Basic
import MessageCatalog.Extraction.Call
import MessageCatalog.Extraction.Component
import MessageCatalog.Extraction.Run
import MessageCatalog.Extraction.Step
import MessageCatalog.FileTree
import MessageCatalog.Glob.Pattern
import MessageCatalog.Glob.Walk
import MessageCatalog.Issue.Basic
import MessageCatalog.Issue.Report
import MessageCatalog.Json.Basic
import MessageCatalog.Json.Parser
import MessageCatalog.Main
import MessageCatalog.Message.Element
import MessageCatalog.Message.Parser
import MessageCatalog.Message.Validator
import MessageCatalog.Path
import MessageCatalog.Project
import MessageCatalog.Proofs.Build.Runs
import MessageCatalog.Proofs.CommandLine.EditedSources
import MessageCatalog.Proofs.CommandLine.Summary
import MessageCatalog.Proofs.CommandLine.Targets
import MessageCatalog.Proofs.Config.Ancestors
import MessageCatalog.Proofs.Config.RoundTrip
import MessageCatalog.Proofs.Descriptor.Building
import MessageCatalog.Proofs.Descriptor.CommitOrder
import MessageCatalog.Proofs.Descriptor.Drafts
import MessageCatalog.Proofs.Descriptor.StoreRuns
import MessageCatalog.Proofs.Descriptor.Undescribed
import MessageCatalog.Proofs.Edit.Misplaced
import MessageCatalog.Proofs.Edit.Reordering
import MessageCatalog.Proofs.Edit.Selection
import MessageCatalog.Proofs.Extraction.Agreement
import MessageCatalog.Proofs.Extraction.Catalogued
import MessageCatalog.Proofs.Extraction.CheckedEdits
import MessageCatalog.Proofs.Extraction.EditedSites
import MessageCatalog.Proofs.Extraction.Failures
import MessageCatalog.Proofs.Extraction.Locations
import MessageCatalog.Proofs.Extraction.Messageless
import MessageCatalog.Proofs.Extraction.OpenScopes
import MessageCatalog.Proofs.Extraction.Replacements
import MessageCatalog.Proofs.Extraction.Rewriting
import MessageCatalog.Proofs.Extraction.Sequence
import MessageCatalog.Proofs.Extraction.Shadowing
import MessageCatalog.Proofs.Extraction.Traversal
import MessageCatalog.Proofs.FileTree.Following
import MessageCatalog.Proofs.FileTree.Sparing
import MessageCatalog.Proofs.FileTree.Systems
import MessageCatalog.Proofs.FileTree.Writing
import MessageCatalog.Proofs.Json.RoundTrip
import MessageCatalog.Proofs.Message.Canonical
import MessageCatalog.Proofs.Message.Collapsed
import MessageCatalog.Proofs.Message.Concatenation
import MessageCatalog.Proofs.Message.Derivation
import MessageCatalog.Proofs.Message.Fields
import MessageCatalog.Proofs.Message.Grammar
import MessageCatalog.Proofs.Message.Joined
import MessageCatalog.Proofs.Message.Parts
import MessageCatalog.Proofs.Message.Positions
import MessageCatalog.Proofs.Message.Printed
import MessageCatalog.Proofs.Message.ReadBack
import MessageCatalog.Proofs.Message.Readers
import MessageCatalog.Proofs.Message.RoundTrip
import MessageCatalog.Proofs.Message.Shifting
import MessageCatalog.Proofs.Message.Spans
import MessageCatalog.Proofs.Message.Spots
import MessageCatalog.Proofs.Message.Tidy
import MessageCatalog.Proofs.Message.Tokens
import MessageCatalog.Proofs.Message.Trail
import MessageCatalog.Proofs.Message.WellFormed
import MessageCatalog.Proofs.Path.Joining
import MessageCatalog.Proofs.Path.Parents
import MessageCatalog.Proofs.Project.Preview
import MessageCatalog.Proofs.Project.Runs
import MessageCatalog.Proofs.Report.Carets
import MessageCatalog.Proofs.Scan.Ordered
import MessageCatalog.Proofs.Scan.Patterns
import MessageCatalog.Proofs.Script.Alike
import MessageCatalog.Proofs.Script.Derivation
import MessageCatalog.Proofs.Script.Evaluation
import MessageCatalog.Proofs.Script.Objects
import MessageCatalog.Proofs.Script.Places
import MessageCatalog.Proofs.Script.Quoted
import MessageCatalog.Proofs.Script.Reach
import MessageCatalog.Proofs.Script.Scoping
import MessageCatalog.Proofs.Script.Stripping
import MessageCatalog.Proofs.Table.Reading
import MessageCatalog.Proofs.Table.Remerging
import MessageCatalog.Proofs.Table.Runs
import MessageCatalog.Proofs.Text.ByteOrder
import MessageCatalog.Proofs.Text.Collapsing
import MessageCatalog.Proofs.Text.Slicing
import MessageCatalog.Proofs.Text.Trimming
import MessageCatalog.Proofs.Text.UnitOrder
import MessageCatalog.Proofs.Text.Words
import MessageCatalog.Proofs.Tools.Paging
import MessageCatalog.Scan
import MessageCatalog.Script.Entity
import MessageCatalog.Script.Fold
import MessageCatalog.Script.Grammar.Basic
import MessageCatalog.Script.Grammar.Expressions
import MessageCatalog.Script.Grammar.Functions
import MessageCatalog.Script.Grammar.Markup
import MessageCatalog.Script.Grammar.Modules
import MessageCatalog.Script.Grammar.Patterns
import MessageCatalog.Script.Grammar.Statements
import MessageCatalog.Script.Grammar.Types
import MessageCatalog.Script.Identifier
import MessageCatalog.Script.Imports
import MessageCatalog.Script.Literal
import MessageCatalog.Script.Scope
import MessageCatalog.Script.Source
import MessageCatalog.Script.Syntax
import MessageCatalog.Script.Template
import MessageCatalog.Script.Token
import MessageCatalog.Script.Value
import MessageCatalog.Table
import MessageCatalog.Text.Characters
import MessageCatalog.Text.Lines
import MessageCatalog.Text.Quoted
import MessageCatalog.Text.Style
import MessageCatalog.Text.Width
import MessageCatalog.Tools
