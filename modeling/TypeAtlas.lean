import TypeAtlas.TypeExpr.Parser
import TypeAtlas.Document.Json.Reader
import TypeAtlas.Document.Json.Printer
import TypeAtlas.Report
import TypeAtlas.Config.Loading
import TypeAtlas.Facts.Loading
import TypeAtlas.Descriptor.Document
import TypeAtlas.Main
import TypeAtlas.Document.Toml.Quoted
import TypeAtlas.Document.Toml.Literal
import TypeAtlas.Document.Toml.Table
import TypeAtlas.Document.Toml.Reader
import TypeAtlas.Document.Toml.Printer
import TypeAtlas.Document.Yaml.Reader
import TypeAtlas.Proofs.Registry.Readiness
import TypeAtlas.Proofs.Registry.Waiting
import TypeAtlas.Proofs.Registry.Ledger
import TypeAtlas.Proofs.Registry.Bookkeeping
import TypeAtlas.Proofs.Registry.Backing
import TypeAtlas.Proofs.Registry.Covering
import TypeAtlas.Proofs.Registry.Live
import TypeAtlas.Proofs.Registry.LazyReferences
import TypeAtlas.Proofs.Registry.Confinement
import TypeAtlas.Proofs.Registry.ClosedFacts
import TypeAtlas.Proofs.Registry.ReferenceClosure
import TypeAtlas.Proofs.TypeExpr.Grammar
import TypeAtlas.Proofs.Document.Json
import TypeAtlas.Proofs.Facts.Document
import TypeAtlas.Proofs.Facts.Hierarchy
import TypeAtlas.Proofs.Registry.Publishing
import TypeAtlas.Proofs.Transform.Children
import TypeAtlas.Proofs.Registry.Outlined
import TypeAtlas.Proofs.Registry.ChildTransforms
import TypeAtlas.Proofs.Registry.Attempts
import TypeAtlas.Proofs.Inspector.Describe
import TypeAtlas.Proofs.Registry.Latch
import TypeAtlas.Proofs.Config.Toml
import TypeAtlas.Proofs.Registry.Reentrancy
import TypeAtlas.Proofs.Registry.Deliveries
import TypeAtlas.Proofs.Construction.Discovery
import TypeAtlas.Proofs.Transform.ChildMemo
import TypeAtlas.Proofs.Registry.Shapes
import TypeAtlas.Proofs.Registry.Termination
import TypeAtlas.Proofs.Construction.Makers
import TypeAtlas.Proofs.Construction.Calls
import TypeAtlas.Proofs.Transform.SwapMethods
import TypeAtlas.Proofs.Transform.WaysBack
import TypeAtlas.Proofs.Registry.WaysBack
import TypeAtlas.Proofs.Facts.Ancestors
import TypeAtlas.Proofs.Bean.Mentions
import TypeAtlas.Proofs.Bean.Properties
import TypeAtlas.Proofs.Registry.RemoteMethods
import TypeAtlas.Proofs.Registry.Remoteability
import TypeAtlas.Proofs.Transform.Selection
import TypeAtlas.Proofs.Registry.Stages
import TypeAtlas.Proofs.Registry.Overloads
import TypeAtlas.Proofs.Registry.Generic
import TypeAtlas.Proofs.Registry.Rests
import TypeAtlas.Proofs.Registry.Specializing
import TypeAtlas.Proofs.TypeExpr.Faults
import TypeAtlas.Proofs.Transform.Formats
import TypeAtlas.Proofs.Registry.BeanRecipes
import TypeAtlas.Proofs.Facts.Edits
import TypeAtlas.Proofs.Inspector.Listing
