import Interop.Scenario.Trial
import Interop.Worker.Launch
import Interop.Proofs.Execution
import Interop.Proofs.Heap.Evolution
import Interop.Proofs.Machine.Evolution
import Interop.Proofs.Interaction.Trace
import Interop.Proofs.Scope.Guard
import Interop.Proofs.Scope.Nesting
import Interop.Proofs.Script.Grammar
import Interop.Proofs.Script.Reading
import Interop.Proofs.Script.Soundness
import Interop.Proofs.Script.Parsing
import Interop.Proofs.Proxy.ReadAfterWrite
import Interop.Proofs.Heap.Reachability
import Interop.Proofs.Heap.Sheltering
import Interop.Proofs.Machine.Alone
import Interop.Proofs.Machine.Sheltering
import Interop.Proofs.Template.Isolation
import Interop.Proofs.Heap.Answers
import Interop.Proofs.Marshal.ReadBack
import Interop.Proofs.Marshal.RoundTrip
import Interop.Proofs.Heap.Soundness
import Interop.Proofs.Heap.Unfolding
import Interop.Proofs.Machine.Reachable
import Interop.Proofs.Machine.Answers
import Interop.Proofs.Bridge.Wrapping
import Interop.Proofs.Bridge.RoundTrip
import Interop.Proofs.Bridge.Passing
import Interop.Proofs.Iteration.Live
import Interop.Proofs.Scope.Outcome
import Interop.Proofs.Script.Spelling
import Interop.Proofs.Script.Tokenizing
import Interop.Proofs.Sequence.Selection
import Interop.Proofs.Sequence.Reference
import Interop.Proofs.Machine.Containers
import Interop.Proofs.Machine.AttributeWrites
import Interop.Proofs.Call.Transparency
import Interop.Proofs.Sequence.Operations
import Interop.Proofs.Sequence.Refinement
import Interop.Proofs.Mapping.Writes
import Interop.Proofs.Mapping.Views
import Interop.Proofs.Mapping.Refinement
import Interop.Proofs.Identity.Proxies
import Interop.Proofs.Identity.Honesty
import Interop.Proofs.Identity.Operations
import Interop.Proofs.Identity.Known
import Interop.Proofs.Identity.Machine
import Interop.Proofs.Identity.Stability
import Interop.Proofs.Script.Composition
import Interop.Proofs.Iteration.Shared
import Interop.Proofs.Construct.Installation
import Interop.Proofs.Construct.Construction
import Interop.Proofs.Privacy.Mentions
import Interop.Proofs.Privacy.Heap
import Interop.Proofs.Privacy.Programs
import Interop.Proofs.Privacy.Machine
import Interop.Proofs.Script.Visiting
import Interop.Proofs.Template.Binding
import Interop.Proofs.Template.Substitution
import Interop.Proofs.Script.Literals
import Interop.Proofs.Script.Trimming
import Interop.Proofs.Template.Dedentation
import Interop.Proofs.Sequence.Slicing
import Interop.Proofs.Scope.Callable
import Interop.Proofs.Proxy.Assignment
import Interop.Proofs.Proxy.Numerals
import Interop.Proofs.Iteration.Fused
import Interop.Proofs.Call.Delivery
import Interop.Proofs.Script.Arithmetic
import Interop.Proofs.Script.Purity
import Interop.Proofs.Template.Evaluation
import Interop.Proofs.Proxy.Lookup
import Interop.Proofs.Template.Indentation
import Interop.Proofs.Sequence.Readings
import Interop.Proofs.Repr.Reading
import Interop.Proofs.Number.Magnitude
import Interop.Proofs.Number.Hashing
import Interop.Proofs.Script.Lines
import Interop.Proofs.Worker.Starting
import Interop.Proofs.Machine.Agreement
import Interop.Proofs.Proxy.Steadfast
import Interop.Proofs.Heap.Retention
import Interop.Proofs.Machine.Families
import Interop.Proofs.Machine.Moments
import Interop.Proofs.Machine.Persistence
