import ModuleGraph.Token.Lexer
import ModuleGraph.Statement
import ModuleGraph.Statement.Fault
import ModuleGraph.Statement.BoundNames
import ModuleGraph.Statement.Parser
import ModuleGraph.Fragment.Extraction
import ModuleGraph.Url
import ModuleGraph.Url.Percent
import ModuleGraph.Url.Address
import ModuleGraph.Url.Parser
import ModuleGraph.Resolution
import ModuleGraph.Failure
import ModuleGraph.Decimal
import ModuleGraph.Value
import ModuleGraph.Instance
import ModuleGraph.ModuleMap
import ModuleGraph.Library
import ModuleGraph.Plan
import ModuleGraph.Loading
import ModuleGraph.Exports
import ModuleGraph.Linking
import ModuleGraph.Evaluation
import ModuleGraph.Realm
import ModuleGraph.Script
import ModuleGraph.Toml
import ModuleGraph.Toml.Document
import ModuleGraph.Toml.Parser
import ModuleGraph.FilePath
import ModuleGraph.FileTree
import ModuleGraph.Fetch
import ModuleGraph.Settings
import ModuleGraph.Settings.Layers
import ModuleGraph.Session
import ModuleGraph.Terminal
import ModuleGraph.CommandLine.Arguments
import ModuleGraph.CommandLine.Help
import ModuleGraph.CommandLine.Report
import ModuleGraph.CommandLine
import ModuleGraph.Main
import ModuleGraph.Text.PropertyTable
import ModuleGraph.Text.CompositionTables
import ModuleGraph.Text.DirectionTable
import ModuleGraph.Text.JoiningTable
import ModuleGraph.Text.MarkTable
import ModuleGraph.Url.DomainTable
import ModuleGraph.Text.Composition
import ModuleGraph.Text.Direction
import ModuleGraph.Text.Joining
import ModuleGraph.Url.Punycode
import ModuleGraph.Proofs.RealmRuns
import ModuleGraph.Proofs.Exports
import ModuleGraph.Proofs.Visibility
import ModuleGraph.Proofs.Dependents
import ModuleGraph.Proofs.Bodies
import ModuleGraph.Proofs.Binding
import ModuleGraph.Proofs.LinkedModules
import ModuleGraph.Proofs.Instantiation
import ModuleGraph.Proofs.RealmLinking
import ModuleGraph.Proofs.Lookahead
import ModuleGraph.Proofs.Enclosures
import ModuleGraph.Proofs.Clauses
import ModuleGraph.Proofs.Grammar
import ModuleGraph.Proofs.FragmentBodies
import ModuleGraph.Proofs.Brackets
import ModuleGraph.Proofs.ClauseTokens
import ModuleGraph.Proofs.DeclarationWords
import ModuleGraph.Proofs.LastingProgress
import ModuleGraph.Proofs.RealmEvaluation
import ModuleGraph.Proofs.LiveBindings
import ModuleGraph.Proofs.Interleaving
import ModuleGraph.Proofs.LoadProgress
import ModuleGraph.Proofs.Workloads
import ModuleGraph.Proofs.Fetching
import ModuleGraph.Proofs.Frames
import ModuleGraph.Proofs.RealmRequests
import ModuleGraph.Proofs.LastingFailures
import ModuleGraph.Proofs.Initialization
import ModuleGraph.Proofs.RealmFetching
import ModuleGraph.Proofs.StatementTokens
import ModuleGraph.Proofs.Residuals
import ModuleGraph.Proofs.Balance
import ModuleGraph.Proofs.StringLiterals
import ModuleGraph.Proofs.Lexemes
import ModuleGraph.Proofs.Printing
import ModuleGraph.Proofs.RoundTrip
import ModuleGraph.Proofs.LineBreaks
import ModuleGraph.Proofs.Embeddings
import ModuleGraph.Proofs.EmbeddedBodies
import ModuleGraph.Proofs.ModuleTexts
import ModuleGraph.Proofs.TokenTexts
import ModuleGraph.Proofs.FragmentOrder
import ModuleGraph.Proofs.EntryFields
import ModuleGraph.Proofs.SegmentTexts
import ModuleGraph.Proofs.UrlFragments
import ModuleGraph.Proofs.UrlTexts
import ModuleGraph.Proofs.KnownModules
import ModuleGraph.Proofs.KeyTexts
import ModuleGraph.Proofs.BindingPatterns
import ModuleGraph.Proofs.DeclaredNames
import ModuleGraph.Proofs.RequestedModules
import ModuleGraph.Proofs.ExportedNames
import ModuleGraph.Proofs.Namespaces
import ModuleGraph.Proofs.ImportForms
import ModuleGraph.Proofs.MemberOrder
import ModuleGraph.Proofs.LongestKeys
import ModuleGraph.Proofs.UrlDescents
import ModuleGraph.Proofs.PrefixMappings
import ModuleGraph.Proofs.LineEnds
import ModuleGraph.Proofs.BodyPaths
import ModuleGraph.Proofs.DistinctNames
import ModuleGraph.Proofs.ScopeResolution
import ModuleGraph.Proofs.StatementOrder
import ModuleGraph.Proofs.Divisions
import ModuleGraph.Proofs.TemplateLiterals
import ModuleGraph.Proofs.PlanBounds
import ModuleGraph.Proofs.DependencySearch
import ModuleGraph.Proofs.Faults
import ModuleGraph.Proofs.FaultSpans
import ModuleGraph.Proofs.KeySpellings
