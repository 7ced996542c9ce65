import ContractStubs.Binding.Bind
import ContractStubs.Binding.Index
import ContractStubs.Binding.Known
import ContractStubs.Binding.Scope
import ContractStubs.Cache.Basic
import ContractStubs.Config.Basic
import ContractStubs.Config.File
import ContractStubs.Config.Json
import ContractStubs.Console.Arguments
import ContractStubs.Console.Command
import ContractStubs.Console.Help
import ContractStubs.Console.Listing
import ContractStubs.Console.Project
import ContractStubs.Console.Run
import ContractStubs.Contract.Basic
import ContractStubs.Contract.Introspect
import ContractStubs.Contract.Json
import ContractStubs.Decimal.Binary64
import ContractStubs.Decimal.Shortest
import ContractStubs.Declaration.Basic
import ContractStubs.Declaration.File
import ContractStubs.Declaration.Json
import ContractStubs.Declaration.Kind
import ContractStubs.Diagnostic.Basic
import ContractStubs.Diagnostic.Json
import ContractStubs.Digest.Md5
import ContractStubs.Disk.Basic
import ContractStubs.Disk.Change
import ContractStubs.Disk.Path
import ContractStubs.Failure
import ContractStubs.Inspection.Basic
import ContractStubs.Json.Basic
import ContractStubs.Json.Decode
import ContractStubs.Json.Document
import ContractStubs.Json.Fault
import ContractStubs.Json.Printer
import ContractStubs.Json.Reader
import ContractStubs.Json.Record
import ContractStubs.Layout.Page
import ContractStubs.Main
import ContractStubs.Marker.Basic
import ContractStubs.Namespace.Json
import ContractStubs.Namespace.Set
import ContractStubs.Pass.Generator
import ContractStubs.Pass.Report
import ContractStubs.Pass.Slot
import ContractStubs.Program.Basic
import ContractStubs.Program.Members
import ContractStubs.Program.Provider
import ContractStubs.Proofs.Binding.Keeping
import ContractStubs.Proofs.Binding.Names
import ContractStubs.Proofs.Binding.Nearest
import ContractStubs.Proofs.Binding.Places
import ContractStubs.Proofs.Binding.Reference
import ContractStubs.Proofs.Binding.Rereading
import ContractStubs.Proofs.Binding.Words
import ContractStubs.Proofs.Cache.Clearing
import ContractStubs.Proofs.Cache.Directory
import ContractStubs.Proofs.Cache.Entries
import ContractStubs.Proofs.Cache.Recency
import ContractStubs.Proofs.Cache.Reloading
import ContractStubs.Proofs.Cache.Rereading
import ContractStubs.Proofs.Config.Rereading
import ContractStubs.Proofs.Contract.Rereading
import ContractStubs.Proofs.Declaration.File
import ContractStubs.Proofs.Declaration.Numbering
import ContractStubs.Proofs.Declaration.Read
import ContractStubs.Proofs.Declaration.Rereading
import ContractStubs.Proofs.Declaration.Writing
import ContractStubs.Proofs.Disk.Children
import ContractStubs.Proofs.Disk.Files
import ContractStubs.Proofs.Disk.Making
import ContractStubs.Proofs.Disk.Paths
import ContractStubs.Proofs.Disk.Places
import ContractStubs.Proofs.Fingerprint.Bytes
import ContractStubs.Proofs.Fingerprint.Content
import ContractStubs.Proofs.Fingerprint.Coverage
import ContractStubs.Proofs.Fingerprint.Overlooked
import ContractStubs.Proofs.Fingerprint.Part
import ContractStubs.Proofs.Fingerprint.Reached
import ContractStubs.Proofs.Fingerprint.Request
import ContractStubs.Proofs.Fingerprint.Worklist
import ContractStubs.Proofs.Inheritance.Ending
import ContractStubs.Proofs.Inheritance.Failing
import ContractStubs.Proofs.Inheritance.Filling
import ContractStubs.Proofs.Inheritance.Layers
import ContractStubs.Proofs.Inheritance.Once
import ContractStubs.Proofs.Inheritance.Parameters
import ContractStubs.Proofs.Inheritance.Search
import ContractStubs.Proofs.Inspection.Agreement
import ContractStubs.Proofs.Json.Cells
import ContractStubs.Proofs.Json.Length
import ContractStubs.Proofs.Json.Plain
import ContractStubs.Proofs.Json.Reading
import ContractStubs.Proofs.Json.Record
import ContractStubs.Proofs.Json.Writing
import ContractStubs.Proofs.Layout.Nesting
import ContractStubs.Proofs.Marker.Configured
import ContractStubs.Proofs.Marker.Reading
import ContractStubs.Proofs.Marker.Selection
import ContractStubs.Proofs.Namespace.Set
import ContractStubs.Proofs.Pass.Account
import ContractStubs.Proofs.Pass.Cancellation
import ContractStubs.Proofs.Pass.Files
import ContractStubs.Proofs.Pass.Isolation
import ContractStubs.Proofs.Pass.Naming
import ContractStubs.Proofs.Pass.Repetition
import ContractStubs.Proofs.Pass.Reuse
import ContractStubs.Proofs.Pass.Writes
import ContractStubs.Proofs.Program.Lookup
import ContractStubs.Proofs.Program.Naming
import ContractStubs.Proofs.Request.Grouping
import ContractStubs.Proofs.Request.Merging
import ContractStubs.Proofs.Request.Parts
import ContractStubs.Proofs.Samples
import ContractStubs.Proofs.Sink.Account
import ContractStubs.Proofs.Sink.Directory
import ContractStubs.Proofs.Sink.Emission
import ContractStubs.Proofs.Sink.Rewriting
import ContractStubs.Proofs.Source.Collecting
import ContractStubs.Proofs.Source.Directives
import ContractStubs.Proofs.Source.Finding
import ContractStubs.Proofs.Source.Places
import ContractStubs.Proofs.Source.Usings
import ContractStubs.Proofs.Stub.Comments
import ContractStubs.Proofs.Stub.Contracts
import ContractStubs.Proofs.Stub.Declaring
import ContractStubs.Proofs.Stub.Fallback
import ContractStubs.Proofs.Stub.ForeignParameters
import ContractStubs.Proofs.Stub.Headers
import ContractStubs.Proofs.Stub.Imports
import ContractStubs.Proofs.Stub.Layout
import ContractStubs.Proofs.Stub.Obligations
import ContractStubs.Proofs.Stub.Rereading
import ContractStubs.Proofs.Stub.Slots
import ContractStubs.Proofs.Stub.Synchronous
import ContractStubs.Proofs.Stub.Written
import ContractStubs.Proofs.Target.Name
import ContractStubs.Proofs.Text.Ends
import ContractStubs.Proofs.Text.Joined
import ContractStubs.Proofs.Text.Order
import ContractStubs.Proofs.Text.Pieces
import ContractStubs.Proofs.TypeExpr.Compact
import ContractStubs.Proofs.TypeExpr.Grammar
import ContractStubs.Proofs.TypeExpr.Reading
import ContractStubs.Proofs.TypeExpr.Scan
import ContractStubs.Proofs.TypeRef.Composition
import ContractStubs.Proofs.TypeRef.Denotation
import ContractStubs.Proofs.TypeRef.Marks
import ContractStubs.Proofs.TypeRef.Nodes
import ContractStubs.Proofs.TypeRef.Places
import ContractStubs.Proofs.TypeRef.Rereading
import ContractStubs.Request.Basic
import ContractStubs.Signature.Basic
import ContractStubs.Signature.Json
import ContractStubs.Sink.Directory
import ContractStubs.Sink.Emission
import ContractStubs.Sink.Memory
import ContractStubs.Source.Collect
import ContractStubs.Source.Directive
import ContractStubs.Source.File
import ContractStubs.Source.Find
import ContractStubs.Source.Lexer
import ContractStubs.Source.Member
import ContractStubs.Source.Parameter
import ContractStubs.Source.Phrase
import ContractStubs.Source.Quotation
import ContractStubs.Source.SyntaxTree
import ContractStubs.Source.Token
import ContractStubs.Source.Tree
import ContractStubs.Source.Using
import ContractStubs.Stub.File
import ContractStubs.Stub.Fingerprint
import ContractStubs.Stub.Source
import ContractStubs.Syntax.Member
import ContractStubs.Syntax.Node
import ContractStubs.Syntax.Type
import ContractStubs.Target.Basic
import ContractStubs.Text.Alphabetic
import ContractStubs.Text.Blank
import ContractStubs.Text.CharRange
import ContractStubs.Text.Cut
import ContractStubs.Text.Digit
import ContractStubs.Text.Identifier
import ContractStubs.Text.Letter
import ContractStubs.Text.Mark
import ContractStubs.Text.Printable
import ContractStubs.Text.Quoted
import ContractStubs.Text.Split
import ContractStubs.Text.Table
import ContractStubs.Text.Utf8
import ContractStubs.Text.Word
import ContractStubs.TypeExpr.Basic
import ContractStubs.TypeExpr.Parser
import ContractStubs.TypeExpr.Printer
import ContractStubs.TypeExpr.Token
import ContractStubs.TypeRef.Basic
import ContractStubs.TypeRef.Json
