import NativeBindings.Decimal.Reading
import NativeBindings.Files.Tree
import NativeBindings.Main
import NativeBindings.Text.Comparison
import NativeBindings.Proofs.Native.Declared
import NativeBindings.Proofs.Run.Growth
import NativeBindings.Proofs.Run.Question
import NativeBindings.Proofs.Mapping.Represented
import NativeBindings.Proofs.Mapping.Kept
import NativeBindings.Proofs.Build.Attempt
import NativeBindings.Proofs.Stub.Elements
import NativeBindings.Proofs.Build.Given
import NativeBindings.Proofs.Build.Builders
import NativeBindings.Proofs.Build.Outcomes
import NativeBindings.Proofs.Build.Members
import NativeBindings.Proofs.Build.Library
import NativeBindings.Proofs.Stub.Types
import NativeBindings.Proofs.Closure.References
import NativeBindings.Proofs.Closure.Closed
import NativeBindings.Proofs.Bridge.Bindings
import NativeBindings.Proofs.Bridge.Linkage
import NativeBindings.Proofs.Bridge.Session
import NativeBindings.Proofs.Bridge.Lines
import NativeBindings.Proofs.Mapping.Canonical
import NativeBindings.Proofs.Bridge.Convention
import NativeBindings.Proofs.Build.Table
import NativeBindings.Proofs.Build.Kept
import NativeBindings.Proofs.Build.Contributions
import NativeBindings.Proofs.Mapping.Acyclic
import NativeBindings.Proofs.Mapping.Bare
import NativeBindings.Proofs.Mapping.Settled
import NativeBindings.Proofs.Mapping.Transparent
import NativeBindings.Proofs.Mapping.Answered
import NativeBindings.Proofs.Target.Expansion
import NativeBindings.Proofs.Mapping.Meaning
import NativeBindings.Proofs.Build.Aliases
import NativeBindings.Proofs.Build.Types
import NativeBindings.Proofs.Bridge.Excluded
import NativeBindings.Proofs.Data.SortedMap
import NativeBindings.Proofs.Build.View
import NativeBindings.Proofs.Mapping.Compared
import NativeBindings.Proofs.Build.Compared
import NativeBindings.Proofs.Build.Rebuilt
import NativeBindings.Proofs.Bridge.Frame
import NativeBindings.Proofs.Bridge.Rebuilds
import NativeBindings.Proofs.Build.Leaves
import NativeBindings.Proofs.Mapping.Native
import NativeBindings.Proofs.Bridge.Native
import NativeBindings.Proofs.Build.Naming
import NativeBindings.Proofs.Mapping.Literals
import NativeBindings.Proofs.Build.Constants
import NativeBindings.Proofs.Document.Layout
import NativeBindings.Proofs.Document.Reading
import NativeBindings.Proofs.Document.Record
import NativeBindings.Proofs.Document.Types
import NativeBindings.Proofs.Document.Declarations
import NativeBindings.Proofs.Mapping.Shape
import NativeBindings.Proofs.Mapping.Undefined
import NativeBindings.Proofs.Build.Clashes
import NativeBindings.Proofs.Build.Recorded
import NativeBindings.Proofs.Build.Strictness
import NativeBindings.Proofs.Mapping.Info
import NativeBindings.Proofs.Build.Primitives
import NativeBindings.Proofs.Bridge.Storage
import NativeBindings.Proofs.Build.BitFields
import NativeBindings.Proofs.Build.Exported
import NativeBindings.Proofs.Stub.BridgeTable
import NativeBindings.Proofs.Output.Walks
import NativeBindings.Proofs.Output.Symbols
import NativeBindings.Proofs.Build.Failures
import NativeBindings.Proofs.Text.Fresh
import NativeBindings.Proofs.Build.Parameters
import NativeBindings.Proofs.Data.Ways
import NativeBindings.Proofs.Mapping.Chains
import NativeBindings.Proofs.Mapping.Stripped
import NativeBindings.Proofs.Mapping.Nesting
import NativeBindings.Proofs.Bridge.Declarators
import NativeBindings.Proofs.Target.Rendering
import NativeBindings.Proofs.Output.Signatures
import NativeBindings.Proofs.Data.SlotMap
import NativeBindings.Proofs.Native.DeclMap
import NativeBindings.Proofs.Native.Tables
import NativeBindings.Proofs.Text.Runs
import NativeBindings.Proofs.Text.Packages
