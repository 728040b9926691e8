import ModuleGraph.Closure
import ModuleGraph.CommandLine.Choices
import ModuleGraph.CommandLine.Execution
import ModuleGraph.CommandLine.Option
import ModuleGraph.CommandLine.Usage
import ModuleGraph.Delivery
import ModuleGraph.Document
import ModuleGraph.Dot
import ModuleGraph.Extraction
import ModuleGraph.Failure
import ModuleGraph.FileTree.Access
import ModuleGraph.FileTree.Basic
import ModuleGraph.FileTree.Making
import ModuleGraph.FileTree.Path
import ModuleGraph.FileTree.Resolution
import ModuleGraph.FileTree.Walk
import ModuleGraph.Format
import ModuleGraph.Json.Reader
import ModuleGraph.Json.Writer
import ModuleGraph.KeyedList
import ModuleGraph.Linking
import ModuleGraph.Main
import ModuleGraph.ModuleMap
import ModuleGraph.Notice
import ModuleGraph.Number.Decimal
import ModuleGraph.Project
import ModuleGraph.Record
import ModuleGraph.Registration
import ModuleGraph.Session
import ModuleGraph.SharedSession
import ModuleGraph.Sharing
import ModuleGraph.Settings
import ModuleGraph.Stack
import ModuleGraph.Symbols
import ModuleGraph.Syntax.Node
import ModuleGraph.Syntax.Query
import ModuleGraph.Text.Digit
import ModuleGraph.Text.Lowercase
import ModuleGraph.Text.Newline
import ModuleGraph.Text.Printable
import ModuleGraph.Text.Quoting
import ModuleGraph.Text.Utf8
import ModuleGraph.Toml.Fault
import ModuleGraph.Toml.Quoted
import ModuleGraph.Toml.Reader
import ModuleGraph.Toml.Scalar
import ModuleGraph.Toml.Tables
import ModuleGraph.TypeScript.Class
import ModuleGraph.TypeScript.Cursor
import ModuleGraph.TypeScript.Expression
import ModuleGraph.TypeScript.Grammar
import ModuleGraph.TypeScript.Literal
import ModuleGraph.TypeScript.Part
import ModuleGraph.TypeScript.Statement
import ModuleGraph.TypeScript.Type
import ModuleGraph.Value
import ModuleGraph.Proofs.Sharing
import ModuleGraph.Proofs.CanonicalName
import ModuleGraph.Proofs.TwoPassLinking
import ModuleGraph.Proofs.LinkedGraph
import ModuleGraph.Proofs.RepeatedLinking
import ModuleGraph.Proofs.JsonNumber
import ModuleGraph.Proofs.JsonRoundTrip
import ModuleGraph.Proofs.JsonSoundness
import ModuleGraph.Proofs.DocumentRoundTrip
import ModuleGraph.Proofs.DocumentJson
import ModuleGraph.Proofs.SavedGraph
import ModuleGraph.Proofs.Registration
import ModuleGraph.Proofs.ProjectExtraction
import ModuleGraph.Proofs.HeldModules
import ModuleGraph.Proofs.ConvergentLinking
import ModuleGraph.Proofs.Reachability
import ModuleGraph.Proofs.ExtractedModule
import ModuleGraph.Proofs.Reporting
import ModuleGraph.Proofs.Unlinked
import ModuleGraph.Proofs.AnalysedGraph
import ModuleGraph.Proofs.LinkingHistory
import ModuleGraph.Proofs.SharedSession
import ModuleGraph.Proofs.RegistrationLog
import ModuleGraph.Proofs.DotDocument
import ModuleGraph.Proofs.DotQuoting
import ModuleGraph.Proofs.RepeatedDependency
import ModuleGraph.Proofs.ClosedTable
import ModuleGraph.Proofs.LinkedClosure
import ModuleGraph.Proofs.Enrichment
import ModuleGraph.Proofs.PathEnd
import ModuleGraph.Proofs.PlacedNode
import ModuleGraph.Proofs.WrittenFile
import ModuleGraph.Proofs.DirectPath
import ModuleGraph.Proofs.ListingOrder
import ModuleGraph.Proofs.VisitedPlaces
import ModuleGraph.Proofs.WalkOrder
import ModuleGraph.Proofs.InterruptedWalk
import ModuleGraph.Proofs.WalkStop
import ModuleGraph.Proofs.ExactWalk
import ModuleGraph.Proofs.AlikeNodes
import ModuleGraph.Proofs.AlikeReadings
import ModuleGraph.Proofs.Comments
import ModuleGraph.Proofs.DeclarationOrder
import ModuleGraph.Proofs.ImportElements
import ModuleGraph.Proofs.ProviderEdits
import ModuleGraph.Proofs.ProviderElements
import ModuleGraph.Proofs.LoadedSettings
import ModuleGraph.Proofs.SameContent
import ModuleGraph.Proofs.AddedLink
import ModuleGraph.Proofs.LinkedWalk
import ModuleGraph.Proofs.LinkedAnalysis
import ModuleGraph.Proofs.TolerantSettings
import ModuleGraph.Proofs.MadeDirectory
import ModuleGraph.Proofs.DeliveredText
import ModuleGraph.Proofs.NormalDocument
import ModuleGraph.FileReader
import ModuleGraph.Proofs.ConfinedMemory
import ModuleGraph.Proofs.FileReader
import ModuleGraph.Proofs.DescribedClass
import ModuleGraph.Proofs.EditedList
import ModuleGraph.Proofs.ConstructorTypes
import ModuleGraph.Proofs.FailedRun
import ModuleGraph.Proofs.ImportOrigin
