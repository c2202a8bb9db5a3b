import WeakIdentity.Text.Quoted
import WeakIdentity.Text.Outline
import WeakIdentity.Text.Alphanumeric
import WeakIdentity.TypeName
import WeakIdentity.Json.Basic
import WeakIdentity.Json.Printer
import WeakIdentity.Json.Parser
import WeakIdentity.Decimal.Shortest
import WeakIdentity.Decimal.Style
import WeakIdentity.DecodeError
import WeakIdentity.Fault
import WeakIdentity.ObjectId
import WeakIdentity.Options
import WeakIdentity.Location
import WeakIdentity.Tally
import WeakIdentity.Heap.Basic
import WeakIdentity.Registry.Event
import WeakIdentity.Registry.Basic
import WeakIdentity.World.Basic
import WeakIdentity.World.Lifetime
import WeakIdentity.Labeler
import WeakIdentity.Session.Bindings
import WeakIdentity.Session.Action
import WeakIdentity.Session.Basic
import WeakIdentity.Session.Request
import WeakIdentity.Proofs.Heap.Counts
import WeakIdentity.Proofs.Heap.Places
import WeakIdentity.Proofs.Registry.Table
import WeakIdentity.Proofs.Registry.Options
import WeakIdentity.Proofs.World.Sound
import WeakIdentity.Proofs.World.Operations
import WeakIdentity.Proofs.World.Changes
import WeakIdentity.Proofs.Scene.Basic
import WeakIdentity.Proofs.Session.Scene
import WeakIdentity.Proofs.Ledger.Basic
import WeakIdentity.Proofs.Ledger.Law
import WeakIdentity.Proofs.Ledger.Agreement
import WeakIdentity.Proofs.Session.History
import WeakIdentity.Proofs.Session.Identity
import WeakIdentity.Proofs.Scene.Keys
import WeakIdentity.Proofs.Session.Alike
import WeakIdentity.Proofs.Session.Reclamation
import WeakIdentity.Proofs.Ledger.Observations
import WeakIdentity.Proofs.Process.Agreement
import WeakIdentity.Proofs.Process.Pool
import WeakIdentity.Proofs.Registry.Watermark
import WeakIdentity.Proofs.Scene.Path
import WeakIdentity.Proofs.Scene.Turns
import WeakIdentity.Proofs.World.Destruction
import WeakIdentity.Proofs.Scene.Sweeps
import WeakIdentity.Proofs.Scene.Growth
import WeakIdentity.Proofs.Scene.Contents
import WeakIdentity.Proofs.Session.Lifetimes
import WeakIdentity.Proofs.Registry.Journal
import WeakIdentity.Proofs.Scene.Journal
import WeakIdentity.Proofs.Scene.Conservation
import WeakIdentity.Proofs.Session.WeakCounts
import WeakIdentity.Proofs.Session.Labels
import WeakIdentity.Proofs.TypeName.Tokens
import WeakIdentity.Proofs.TypeName.Modules
import WeakIdentity.Proofs.TypeName.Expression
import WeakIdentity.Proofs.Location.Text
import WeakIdentity.Proofs.Json.RoundTrip
import WeakIdentity.Proofs.Json.Words
import WeakIdentity.Proofs.Location.Json
import WeakIdentity.Proofs.Options.Pairs
import WeakIdentity.Proofs.Options.Json
import WeakIdentity.Proofs.Scene.Insertion
import WeakIdentity.Proofs.Session.Idle
import WeakIdentity.Proofs.TypeName.Marks
import WeakIdentity.Proofs.ObjectId
import WeakIdentity.Proofs.Scene.Doubling
import WeakIdentity.Proofs.Registry.Churn
import WeakIdentity.Proofs.Session.Churn
