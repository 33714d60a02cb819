import IterationEngine.Number.Text
import IterationEngine.Number.Numeral
import IterationEngine.Symbol
import IterationEngine.Value
import IterationEngine.Completion
import IterationEngine.Property
import IterationEngine.Collection
import IterationEngine.Object
import IterationEngine.Heap
import IterationEngine.Context
import IterationEngine.Realm
import IterationEngine.ListIterator
import IterationEngine.CollectionIterator
import IterationEngine.Call
import IterationEngine.Access
import IterationEngine.Iterator.Protocol
import IterationEngine.Iterator.Close
import IterationEngine.Iterator.Consume
import IterationEngine.Intrinsics
import IterationEngine.Program.Command
import IterationEngine.Program.Basic
import IterationEngine.Engine
import IterationEngine.Script.Run
import IterationEngine.Proofs.Quiet
import IterationEngine.Proofs.Simulation
import IterationEngine.Proofs.Journal
import IterationEngine.Proofs.Close
import IterationEngine.Proofs.Protocol
import IterationEngine.Proofs.ForOf
import IterationEngine.Proofs.Origin
import IterationEngine.Proofs.Taking
import IterationEngine.Proofs.Failure
import IterationEngine.Proofs.Kinds
import IterationEngine.Proofs.History
import IterationEngine.Proofs.ListIterator
import IterationEngine.Proofs.Equality
import IterationEngine.Proofs.Collection
import IterationEngine.Proofs.Place
import IterationEngine.Proofs.Watch
import IterationEngine.Proofs.Collecting
import IterationEngine.Proofs.MapMaking
import IterationEngine.Proofs.Entry
import IterationEngine.Proofs.Hindered
import IterationEngine.Proofs.Agreement
import IterationEngine.Proofs.Closed.Heap
import IterationEngine.Proofs.Closed.Actions
import IterationEngine.Proofs.Closed.Commands
import IterationEngine.Proofs.Closed.Operations
import IterationEngine.Proofs.Engine
import IterationEngine.Proofs.Closed.Programs
import IterationEngine.Proofs.Operations
import IterationEngine.Proofs.Draining
import IterationEngine.Proofs.Definitions
import IterationEngine.Proofs.Configurable
import IterationEngine.Proofs.Inheritance
import IterationEngine.Proofs.CollectionIterator
import IterationEngine.Proofs.Resolution
import IterationEngine.Proofs.Lifecycle
import IterationEngine.Proofs.Changes.Actions
import IterationEngine.Proofs.Changes.Programs
import IterationEngine.Proofs.OwnProperties
import IterationEngine.Proofs.Intrinsics
import IterationEngine.Proofs.Restart
import IterationEngine.Proofs.SameValue
import IterationEngine.Proofs.SymbolKeys
import IterationEngine.Proofs.KeySpace
import IterationEngine.Proofs.HiddenWrites
import IterationEngine.Proofs.Integers
import IterationEngine.Proofs.IntegerText
import IterationEngine.Proofs.IntegerKeys
import IterationEngine.Proofs.HeapLog
import IterationEngine.Proofs.HeapRuns
import IterationEngine.Proofs.CountedSteps
import IterationEngine.Proofs.Statistics
