import Injection.Text.Basic
import Injection.Text.Alphanumeric
import Injection.Text.CaseTable
import Injection.Text.Case
import Injection.Signature.Basic
import Injection.Signature.NormalForm
import Injection.Signature.Parser
import Injection.Identity
import Injection.Lifetime
import Injection.Dependency
import Injection.Service
import Injection.Fragment
import Injection.Finding.Severity
import Injection.Finding.Kind
import Injection.Finding.Basic
import Injection.Catalogue.Basic
import Injection.Catalogue.Ancestry
import Injection.Catalogue.Contracts
import Injection.Snapshot
import Injection.Registry.Index
import Injection.Registry.Table
import Injection.Registry.Basic
import Injection.Sorted
import Injection.Options.Basic
import Injection.Options.Setting
import Injection.Options.Source
import Injection.Json.Token
import Injection.Json.Value
import Injection.Options.Document
import Injection.Graph.Basic
import Injection.Graph.Cycle
import Injection.Check.Graph
import Injection.Check.Duplicates
import Injection.Check.Declarations
import Injection.Check.Lifetimes
import Injection.Report
import Injection.Export.Basic
import Injection.Export.Text
import Injection.Export.Drawing
import Injection.Export.JsonText
import Injection.Export.YamlText
import Injection.Proofs.Order
import Injection.Proofs.Search
import Injection.Proofs.Rotation
import Injection.Proofs.GraphEdges
import Injection.Proofs.CycleSoundness
import Injection.Proofs.CycleCoverage
import Injection.Proofs.Index
import Injection.Proofs.NormalForm
import Injection.Proofs.Resolution
import Injection.Proofs.Matched
import Injection.Proofs.SnapshotOrder
import Injection.Proofs.RegistryOrder
import Injection.Proofs.GraphOrder
import Injection.Proofs.Problems
import Injection.Proofs.ReportOrder
import Injection.Proofs.Substitution
import Injection.Proofs.OpenContracts
import Injection.Proofs.Expansion
import Injection.Proofs.ContractGrowth
import Injection.Proofs.Phases
import Injection.Proofs.Faults
import Injection.Proofs.Captives
import Injection.Proofs.Grammar
import Injection.Proofs.Reading
import Injection.Proofs.RoundTrip
import Injection.Proofs.Merging
import Injection.Proofs.EntryPoints
import Injection.Proofs.Enlarged
import Injection.Proofs.OpenTargets
import Injection.Proofs.Guessing
import Injection.Proofs.Externals
import Injection.Proofs.Registering
import Injection.Proofs.Insertion
import Injection.Proofs.Preorder
import Injection.Proofs.Scope
import Injection.Proofs.Inheritance
import Injection.Proofs.Accounting
import Injection.Proofs.Isolation
import Injection.Proofs.Collection
import Injection.Proofs.Repetition
import Injection.Proofs.Settings
import Injection.Proofs.Diagrams
import Injection.Proofs.Lineage
import Injection.Proofs.CanonicalForm
import Injection.Proofs.PropertyOrder
import Injection.Proofs.Conflicts
import Injection.Proofs.Variables
import Injection.Proofs.ExactIndex
