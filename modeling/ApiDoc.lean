import ApiDoc.Answer
import ApiDoc.Context
import ApiDoc.Data.Basic
import ApiDoc.Data.Display
import ApiDoc.Data.Merge
import ApiDoc.Document.LinkTable
import ApiDoc.Document.Node
import ApiDoc.Documentation.Entry
import ApiDoc.Documentation.Index
import ApiDoc.Documentation.Source
import ApiDoc.Error
import ApiDoc.Hierarchy.Build
import ApiDoc.Hierarchy.Interfaces
import ApiDoc.Json.Printer
import ApiDoc.Json.Reader
import ApiDoc.Log.Book
import ApiDoc.Log.Line
import ApiDoc.Log.Record
import ApiDoc.Markup
import ApiDoc.Metadata.Catalog
import ApiDoc.Metadata.Declaration
import ApiDoc.Metadata.DisplayName
import ApiDoc.Metadata.Identifier
import ApiDoc.Metadata.Location
import ApiDoc.Metadata.Symbol
import ApiDoc.Metadata.TypeRef
import ApiDoc.Number.Binary64
import ApiDoc.Number.Shortest
import ApiDoc.Page.Cell
import ApiDoc.Page.Member
import ApiDoc.Page.Type
import ApiDoc.Page.Unit
import ApiDoc.Page.Visibility
import ApiDoc.Proofs.Answer
import ApiDoc.Proofs.Place
import ApiDoc.Resolution
import ApiDoc.Session
import ApiDoc.Settings.Basic
import ApiDoc.Settings.Check
import ApiDoc.Settings.Environment
import ApiDoc.Settings.Load
import ApiDoc.Settings.Problem
import ApiDoc.Text.Blank
import ApiDoc.Text.Dedent
import ApiDoc.Text.Digit
import ApiDoc.Text.Heading
import ApiDoc.Text.Letter
import ApiDoc.Text.LetterTable
import ApiDoc.Text.Path
import ApiDoc.Text.Printable
import ApiDoc.Text.Quoted
import ApiDoc.Text.Range
import ApiDoc.Text.Segment
import ApiDoc.Text.Summary
import ApiDoc.Xml.CodePage
import ApiDoc.Xml.Declaration
import ApiDoc.Xml.Doctype
import ApiDoc.Xml.Encoding
import ApiDoc.Xml.Name
import ApiDoc.Xml.Node
import ApiDoc.Xml.Problem
import ApiDoc.Xml.Reader
import ApiDoc.Xml.Token
import ApiDoc.Xml.Writer
import ApiDoc.Yaml.Cursor
import ApiDoc.Yaml.Load
import ApiDoc.Yaml.Node
import ApiDoc.Yaml.Scalar
import ApiDoc.Yaml.Scan
import ApiDoc.Yaml.Token
import ApiDoc.Proofs.WellBuilt
import ApiDoc.Proofs.SymbolTable
import ApiDoc.Proofs.Candidates
import ApiDoc.Proofs.Entries
import ApiDoc.Proofs.Preorder
import ApiDoc.Proofs.SearchOrder
import ApiDoc.Proofs.Resolution
import ApiDoc.Proofs.OverrideResolution
import ApiDoc.Proofs.OverrideRoot
import ApiDoc.Proofs.DataMaps
import ApiDoc.Proofs.LogRouting
import ApiDoc.Proofs.Lowercase
import ApiDoc.Proofs.SettingLayers
import ApiDoc.Proofs.YamlMaps
import ApiDoc.Proofs.EnvironmentSettings
import ApiDoc.Proofs.DestinationPaths
import ApiDoc.Proofs.WrittenSettings
import ApiDoc.Proofs.SettingPrecedence
import ApiDoc.Proofs.Tables
import ApiDoc.Proofs.MarkupTables
import ApiDoc.Proofs.PageTables
import ApiDoc.Proofs.ErasedType
import ApiDoc.Proofs.Legible
import ApiDoc.Proofs.Unambiguous
import ApiDoc.Proofs.Identifier
import ApiDoc.Proofs.Substitution
import ApiDoc.Proofs.RepeatedSubstitution
import ApiDoc.Proofs.ErasedSubstitution
import ApiDoc.Proofs.InterfaceWalk
import ApiDoc.Proofs.InterfaceMembers
import ApiDoc.Proofs.InterfaceClosure
import ApiDoc.Proofs.ConstructedSignature
import ApiDoc.Proofs.RootOfRoot
import ApiDoc.Proofs.ExplicitImplementation
import ApiDoc.Proofs.PropertyCandidates
import ApiDoc.Proofs.Journal
import ApiDoc.Proofs.Cycle
import ApiDoc.Proofs.LinkOrder
import ApiDoc.Proofs.MarkupLinks
import ApiDoc.Proofs.PageLinks
import ApiDoc.Proofs.Renumbering
import ApiDoc.Proofs.Agreement
import ApiDoc.Proofs.MarkupAgreement
import ApiDoc.Proofs.PageAgreement
import ApiDoc.Proofs.History
import ApiDoc.Proofs.MalformedSource
import ApiDoc.Proofs.Reordering
import ApiDoc.Proofs.UnitOrder
import ApiDoc.Proofs.Lifecycle
import ApiDoc.Proofs.Contract
import ApiDoc.Proofs.MarkupSources
import ApiDoc.Proofs.MarkupTargets
import ApiDoc.Proofs.PageTargets
import ApiDoc.Proofs.MemberGroups
import ApiDoc.Proofs.PageBlocks
import ApiDoc.Proofs.PlainText
import ApiDoc.Proofs.MergedTexts
import ApiDoc.Proofs.LineBreaks
import ApiDoc.Proofs.Cells
import ApiDoc.Proofs.Words
import ApiDoc.Proofs.Spoken
import ApiDoc.Proofs.Prose
import ApiDoc.Proofs.Boundaries
import ApiDoc.Proofs.Letters
import ApiDoc.Proofs.BlankParagraphs
import ApiDoc.Proofs.NestedItems
import ApiDoc.Proofs.SummaryBudget
import ApiDoc.Proofs.IndexedTargets
import ApiDoc.Proofs.LinkTargets
import ApiDoc.Proofs.PathSegments
import ApiDoc.Proofs.PageName
import ApiDoc.Proofs.DistinctPaths
import ApiDoc.Proofs.PlainRendering
import ApiDoc.Proofs.DocumentOrder
import ApiDoc.Proofs.ParameterEntries
import ApiDoc.Proofs.IndexContents
import ApiDoc.Proofs.Registration
import ApiDoc.Proofs.WrittenMarkup
import ApiDoc.Proofs.UnknownElements
import ApiDoc.Proofs.UnknownMarkup
import ApiDoc.Proofs.PageParts
import ApiDoc.Proofs.UnitContents
import ApiDoc.Proofs.MemberListing
import ApiDoc.Proofs.DeclaredValues
import ApiDoc.Proofs.Loops
import ApiDoc.Proofs.BoundedRuns
import ApiDoc.Proofs.IdentifierFailure
import ApiDoc.Proofs.OutputPaths
import ApiDoc.Proofs.MergedMaps
import ApiDoc.Proofs.MapStore
import ApiDoc.Proofs.SettledSettings
import ApiDoc.Proofs.TextRuns
