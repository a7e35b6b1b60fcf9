import Metaobject.Annotation.Attribute
import Metaobject.Annotation.Cycle
import Metaobject.Annotation.Folding
import Metaobject.Annotation.Validation
import Metaobject.ClassTable.Ancestors
import Metaobject.ClassTable.Basic
import Metaobject.ClassTable.Builtin
import Metaobject.ClosureClass
import Metaobject.Completion
import Metaobject.Decimal.Shortest
import Metaobject.Declaration
import Metaobject.Declaration.Trace
import Metaobject.Declaration.Walk
import Metaobject.Diagnostic.Basic
import Metaobject.Diagnostic.Column
import Metaobject.Diagnostic.Excerpt
import Metaobject.Diagnostic.Report
import Metaobject.Dispatch.Marking
import Metaobject.Dispatch.Selection
import Metaobject.Dispatch.Strategy
import Metaobject.Document.Access
import Metaobject.Document.Basic
import Metaobject.Document.Declaration
import Metaobject.Document.Diagnostic
import Metaobject.Document.Dispatch
import Metaobject.Document.Problem
import Metaobject.Document.Reflection
import Metaobject.Document.Settings
import Metaobject.Document.Tree
import Metaobject.Document.TreeReading
import Metaobject.Enumeration.Constants
import Metaobject.Enumeration.Constructors
import Metaobject.Enumeration.Members
import Metaobject.FreshName
import Metaobject.Json
import Metaobject.Modifiers
import Metaobject.Problem.Basic
import Metaobject.Problem.Log
import Metaobject.Reflection.CallSite
import Metaobject.Reflection.ClassSpace
import Metaobject.Reflection.ClassValue
import Metaobject.Reflection.Error
import Metaobject.Reflection.Lazy
import Metaobject.Reflection.LoadedClass
import Metaobject.Reflection.Loader
import Metaobject.Reflection.Member
import Metaobject.Reflection.Record
import Metaobject.Reflection.Residency
import Metaobject.Reflection.Resolution
import Metaobject.Reflection.SlotTable
import Metaobject.Reflection.Summary
import Metaobject.Reflection.View
import Metaobject.Reflection.World
import Metaobject.Settings
import Metaobject.Source
import Metaobject.Text.Basic
import Metaobject.Text.Quoted
import Metaobject.Toml.Document
import Metaobject.Toml.Lexeme
import Metaobject.Toml.Scalar
import Metaobject.Toml.Table
import Metaobject.Tree.Basic
import Metaobject.Tree.Build
import Metaobject.Tree.Kind
import Metaobject.Tree.Printer
import Metaobject.Tree.Transform
import Metaobject.Tree.Visit
import Metaobject.TypeRef
import Metaobject.Proofs.Annotation.AliasChains
import Metaobject.Proofs.Annotation.Answer
import Metaobject.Proofs.Annotation.Conformity
import Metaobject.Proofs.Annotation.DefaultCycles
import Metaobject.Proofs.Annotation.EnumConstants
import Metaobject.Proofs.Annotation.FolderRuns
import Metaobject.Proofs.Annotation.Revalidation
import Metaobject.Proofs.Annotation.Totality
import Metaobject.Proofs.ClassTable.Derivation
import Metaobject.Proofs.ClassTable.Mentions
import Metaobject.Proofs.ClassTable.Outline
import Metaobject.Proofs.ClassTable.Overlay
import Metaobject.Proofs.ClassTable.Reachability
import Metaobject.Proofs.ClassTable.WellFormed
import Metaobject.Proofs.ClosureNames
import Metaobject.Proofs.Completion.Bindings
import Metaobject.Proofs.Completion.Confinement
import Metaobject.Proofs.Completion.Constructions
import Metaobject.Proofs.Completion.Idempotence
import Metaobject.Proofs.Completion.Passes
import Metaobject.Proofs.Completion.Preservation
import Metaobject.Proofs.Completion.Progress
import Metaobject.Proofs.Completion.Tolerance
import Metaobject.Proofs.Dispatch.Coverage
import Metaobject.Proofs.Dispatch.Independence
import Metaobject.Proofs.Dispatch.MarkingWalk
import Metaobject.Proofs.Dispatch.Numbering
import Metaobject.Proofs.Dispatch.Remarking
import Metaobject.Proofs.Dispatch.Selection
import Metaobject.Proofs.Enumeration.Evidence
import Metaobject.Proofs.Enumeration.HiddenParameters
import Metaobject.Proofs.Enumeration.Repetition
import Metaobject.Proofs.Enumeration.StaticInitializer
import Metaobject.Proofs.Enumeration.VisitingOrder
import Metaobject.Proofs.Reflection.Ancestry
import Metaobject.Proofs.Reflection.CallCoherence
import Metaobject.Proofs.Reflection.DeclaredLoading
import Metaobject.Proofs.Reflection.InterfaceView
import Metaobject.Proofs.Reflection.LoaderHistory
import Metaobject.Proofs.Reflection.MemberResolution
import Metaobject.Proofs.Reflection.MethodOrder
import Metaobject.Proofs.Reflection.MethodTables
import Metaobject.Proofs.Reflection.Overriding
import Metaobject.Proofs.Reflection.PoolHistory
import Metaobject.Proofs.Reflection.ReclaimedViews
import Metaobject.Proofs.Reflection.RecordsInUse
import Metaobject.Proofs.Reflection.Resemblance
import Metaobject.Proofs.Reflection.SlotHistory
import Metaobject.Proofs.Reflection.SlotRequests
import Metaobject.Proofs.Reflection.Supply
import Metaobject.Proofs.Reflection.Transparency
import Metaobject.Proofs.Reflection.ValueBackends
import Metaobject.Proofs.Tree.Walks
