import Scribe.Data.Basic
import Scribe.Data.Read
import Scribe.Declarations.BaseChain
import Scribe.Declarations.Index
import Scribe.Declarations.Listing
import Scribe.Declarations.Path
import Scribe.Files.Disk
import Scribe.Files.Path
import Scribe.Files.Tree
import Scribe.Json.Document
import Scribe.Json.Token
import Scribe.Mapping.Record
import Scribe.Mapping.Session
import Scribe.Mapping.Tracker
import Scribe.Memo.Basic
import Scribe.Memo.Key
import Scribe.Naming.ElementKind
import Scribe.Naming.Handle
import Scribe.Naming.Supply
import Scribe.Output.Writer
import Scribe.Proofs.ArityMarks
import Scribe.Proofs.BaseWalk
import Scribe.Proofs.BlindOperations
import Scribe.Proofs.ChainPaths
import Scribe.Proofs.ContextOperations
import Scribe.Proofs.CopyRuns
import Scribe.Proofs.CopyStatements
import Scribe.Proofs.CountedLines
import Scribe.Proofs.DottedNames
import Scribe.Proofs.Exits
import Scribe.Proofs.FaithfulReaders
import Scribe.Proofs.FreeNumbers
import Scribe.Proofs.GuardedWalk
import Scribe.Proofs.InheritedParameters
import Scribe.Proofs.JsonDocuments
import Scribe.Proofs.KeyedLists
import Scribe.Proofs.LineAttribution
import Scribe.Proofs.ListingOrder
import Scribe.Proofs.MappingRecords
import Scribe.Proofs.MappingText
import Scribe.Proofs.MemoAccounts
import Scribe.Proofs.MemoCalls
import Scribe.Proofs.MergedSettings
import Scribe.Proofs.NameCharacters
import Scribe.Proofs.NameRuns
import Scribe.Proofs.NameShapes
import Scribe.Proofs.NameSpelling
import Scribe.Proofs.NestedNames
import Scribe.Proofs.PathTable
import Scribe.Proofs.QualifiedLookup
import Scribe.Proofs.RecordLedger
import Scribe.Proofs.RecordedText
import Scribe.Proofs.RegisteredServices
import Scribe.Proofs.RenderedLines
import Scribe.Proofs.ScopeExtents
import Scribe.Proofs.ScopeHistory
import Scribe.Proofs.ScopedLookup
import Scribe.Proofs.SeparateKinds
import Scribe.Proofs.SessionRuns
import Scribe.Proofs.SettingsFiles
import Scribe.Proofs.SyntaxText
import Scribe.Proofs.TextCuts
import Scribe.Proofs.TomlDocuments
import Scribe.Proofs.TomlStrings
import Scribe.Proofs.TypeIdentifiers
import Scribe.Proofs.TypeKeys
import Scribe.Proofs.UnmappedRuns
import Scribe.Proofs.VisitRecords
import Scribe.Proofs.VisitorPrograms
import Scribe.Proofs.WriterLines
import Scribe.Proofs.WrittenNames
import Scribe.Reference.Clone
import Scribe.Registry.Basic
import Scribe.Registry.Service
import Scribe.Run.Context
import Scribe.Run.Failure
import Scribe.Run.Instantiation
import Scribe.Run.Stop
import Scribe.Settings.Basic
import Scribe.Settings.Document
import Scribe.Settings.Encoding
import Scribe.Settings.File
import Scribe.Source.Declaration
import Scribe.Source.Encoding
import Scribe.Source.Span
import Scribe.Symbol.Basic
import Scribe.Symbol.Encoding
import Scribe.Symbol.Identifier
import Scribe.Text.Alphanumeric
import Scribe.Text.Join
import Scribe.Text.Trim
import Scribe.Text.Whitespace
import Scribe.Toml.Document
import Scribe.Toml.Line
import Scribe.Toml.Quoted
import Scribe.Toml.Scalar
import Scribe.Toml.Value
import Scribe.Proofs.RegistryRuns
