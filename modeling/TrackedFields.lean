import TrackedFields.Arithmetic
import TrackedFields.Calendar.Date
import TrackedFields.Calendar.DateTime
import TrackedFields.Comparator
import TrackedFields.Descriptor.Basic
import TrackedFields.Descriptor.Json
import TrackedFields.Element
import TrackedFields.ElementSet
import TrackedFields.Failure
import TrackedFields.FieldOrdinal
import TrackedFields.Json.Basic
import TrackedFields.Json.Reader
import TrackedFields.Json.Record
import TrackedFields.Json.Writer
import TrackedFields.ObjectId
import TrackedFields.Operation.Basic
import TrackedFields.Operation.Json
import TrackedFields.Owner
import TrackedFields.Session.Basic
import TrackedFields.Session.Detachment
import TrackedFields.Session.Flush
import TrackedFields.Session.Json
import TrackedFields.Settings.Basic
import TrackedFields.Settings.File
import TrackedFields.Store.Basic
import TrackedFields.Store.Bulk
import TrackedFields.Store.Error
import TrackedFields.Store.Outage
import TrackedFields.Table
import TrackedFields.Text.Decimal
import TrackedFields.Text.Described
import TrackedFields.Text.Extending
import TrackedFields.Text.Hex
import TrackedFields.Text.Quoted
import TrackedFields.Text.Unprintable
import TrackedFields.Timestamp.Basic
import TrackedFields.Timestamp.Calendar
import TrackedFields.Timestamp.Edit
import TrackedFields.Timestamp.Json
import TrackedFields.Timestamp.Text
import TrackedFields.Toml.Document
import TrackedFields.Toml.Scalar
import TrackedFields.Tracked.Basic
import TrackedFields.Tracked.Container
import TrackedFields.TrackedList.Attach
import TrackedFields.TrackedList.Basic
import TrackedFields.TrackedQueue.Basic
import TrackedFields.TrackedQueue.Replace
import TrackedFields.TrackedQueue.Update
import TrackedFields.TrackedSet
import TrackedFields.TrackedTimestamp
import TrackedFields.Tracker.Basic
import TrackedFields.Tracker.Forward
import TrackedFields.Tracker.Report
import TrackedFields.Proofs.Keeps
import TrackedFields.Proofs.Lockstep
import TrackedFields.Proofs.StableSort
import TrackedFields.Proofs.Store.Calls
import TrackedFields.Proofs.Store.View
import TrackedFields.Proofs.Session.Frame
import TrackedFields.Proofs.Store.CarryOut
import TrackedFields.Proofs.Session.Replay
import TrackedFields.Proofs.Session.History
import TrackedFields.Proofs.Session.Behind
import TrackedFields.Proofs.Tracked.InSync
import TrackedFields.Proofs.Tracked.Exact
import TrackedFields.Proofs.Tracked.Told
import TrackedFields.Proofs.TrackedList.Plans
import TrackedFields.Proofs.TrackedList.Repeats
import TrackedFields.Proofs.TrackedList.Attach
import TrackedFields.Proofs.TrackedList.Convergence
import TrackedFields.Proofs.TrackedQueue.Follows
import TrackedFields.Proofs.TrackedQueue.Convergence
import TrackedFields.Proofs.Session.Harmless
import TrackedFields.Proofs.Tracked.HarmlessAttach
import TrackedFields.Proofs.TrackedSet.Plans
import TrackedFields.Proofs.TrackedSet.Mirrors
import TrackedFields.Proofs.TrackedSet.Convergence
import TrackedFields.Proofs.TrackedList.Trim
import TrackedFields.Proofs.TrackedList.Deletions
import TrackedFields.Proofs.AttachDeletions
import TrackedFields.Proofs.Session.Heard
import TrackedFields.Proofs.Session.Unmarked
import TrackedFields.Proofs.Session.Marks
import TrackedFields.Proofs.Session.Advances
import TrackedFields.Proofs.Session.Dedicated
import TrackedFields.Proofs.Session.Heads
import TrackedFields.Proofs.Store.Shelf
import TrackedFields.Proofs.Store.Losses
import TrackedFields.Proofs.Session.DueDeletions
import TrackedFields.Proofs.TrackedQueue.Shows
import TrackedFields.Proofs.TrackedQueue.Looks
import TrackedFields.Proofs.TrackedQueue.Requests
import TrackedFields.Proofs.TrackedQueue.Caching
import TrackedFields.Proofs.TrackedQueue.Deletions
import TrackedFields.Proofs.MemoryDeletions
import TrackedFields.Proofs.TrackedQueue.Dispatch
import TrackedFields.Proofs.TrackedQueue.Replacement
import TrackedFields.Proofs.Tracked.Untouched
import TrackedFields.Proofs.Tracked.Tells
import TrackedFields.Proofs.Tracked.TrackerIndependence
import TrackedFields.Proofs.TrackedQueue.TrackerIndependence
import TrackedFields.Proofs.Tracked.Dropped
import TrackedFields.Proofs.TrackedQueue.LockstepWithoutStore
import TrackedFields.Proofs.TrackedQueue.FailSoft
import TrackedFields.Proofs.TrackedQueue.Shadowing
import TrackedFields.Proofs.TrackedQueue.Uncached
import TrackedFields.Proofs.TrackedQueue.Losses
import TrackedFields.Proofs.DispatchDeletions
import TrackedFields.Proofs.TrackedQueue.WriteThrough
import TrackedFields.Proofs.TrackedQueue.QueuedWithoutCache
import TrackedFields.Proofs.TrackedQueue.SameStore
import TrackedFields.Proofs.Store.Disappearances
import TrackedFields.Proofs.Tracked.Balance
import TrackedFields.Proofs.TrackedList.Balance
import TrackedFields.Proofs.RelationBalance
import TrackedFields.Proofs.TrackedQueue.CleanFailures
import TrackedFields.Proofs.CleanFailures
import TrackedFields.Proofs.Session.Flushed
import TrackedFields.Proofs.Session.Sends
import TrackedFields.Proofs.TrackedQueue.SilentLoading
import TrackedFields.Proofs.TrackedQueue.PassedChanges
import TrackedFields.Proofs.TrackedQueue.StaysSupplied
import TrackedFields.Proofs.TrackedQueue.WellKept
import TrackedFields.Proofs.TrackedQueue.ExactRelations
import TrackedFields.Proofs.Session.Notices
import TrackedFields.Proofs.TrackedQueue.Notices
import TrackedFields.Proofs.Notices
import TrackedFields.Proofs.DroppedOwner
import TrackedFields.Proofs.UnsetOwner
import TrackedFields.Proofs.Tracked.Reconcile
import TrackedFields.Proofs.TrackedQueue.StoreFailures
import TrackedFields.Proofs.Tracked.Unaltered
import TrackedFields.Proofs.TrackedList.RefusedAttach
import TrackedFields.Proofs.TrackedSet.RefusedAttach
import TrackedFields.Proofs.TrackedQueue.RefusedAttach
import TrackedFields.Proofs.RejectedAttach
import TrackedFields.Proofs.Tracked.Asks
import TrackedFields.Proofs.TrackedQueue.Invariants
import TrackedFields.Proofs.TrackedQueue.InvariantsOfCalls
import TrackedFields.Proofs.Session.NullFree
import TrackedFields.Proofs.Tracked.NullFree
import TrackedFields.Proofs.TrackedList.NullFree
import TrackedFields.Proofs.TrackedSet.NullFree
import TrackedFields.Proofs.NoNulls
import TrackedFields.Proofs.TrackedQueue.Snapshots
import TrackedFields.Proofs.Session.Reads
import TrackedFields.Proofs.Session.Resembling
import TrackedFields.Proofs.TrackedQueue.LoadsOnce
import TrackedFields.Proofs.TrackedQueue.DifferInLoading
import TrackedFields.Proofs.TrackedQueue.UnseenCalls
import TrackedFields.Proofs.TrackedQueue.LoadsUnseen
import TrackedFields.Proofs.Tracked.Relates
import TrackedFields.Proofs.TrackedSet.Attached
import TrackedFields.Proofs.TrackedList.Attached
import TrackedFields.Proofs.TrackedQueue.FairOrder
import TrackedFields.Proofs.TrackedQueue.Served
import TrackedFields.Proofs.Tracked.Reconcilable
import TrackedFields.Proofs.TrackedQueue.Reconciled
import TrackedFields.Proofs.TrackedQueue.Settled
import TrackedFields.Proofs.TrackedQueue.Attached
import TrackedFields.Proofs.Session.Shuffled
import TrackedFields.Proofs.Store.Representation
import TrackedFields.Proofs.Calendar.Date
import TrackedFields.Proofs.Text.Decimal
import TrackedFields.Proofs.Timestamp.Calendar
import TrackedFields.Proofs.Timestamp.Text
import TrackedFields.Proofs.Timestamp.Grammar
import TrackedFields.Proofs.Timestamp.Millis
import TrackedFields.Proofs.Store.SizeHints
import TrackedFields.Proofs.TrackedQueue.HintedCalls
import TrackedFields.Proofs.TrackedQueue.SizeHints
import TrackedFields.Proofs.Json.RoundTrip
import TrackedFields.Proofs.Json.Record
import TrackedFields.Proofs.Descriptor.RoundTrip
import TrackedFields.Proofs.Timestamp.Fraction
import TrackedFields.Proofs.TrackedTimestamp.Edits
import TrackedFields.Proofs.TrackedTimestamp.Attached
import TrackedFields.Proofs.Store.Unhinted
import TrackedFields.Proofs.TrackedQueue.Insertion
