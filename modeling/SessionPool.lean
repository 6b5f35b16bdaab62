import SessionPool.Main
import SessionPool.CommandLine.Run
import SessionPool.Proofs.Interleaving
import SessionPool.Rehearsal.Drill
import SessionPool.Rehearsal.Stage
import SessionPool.Proofs.Lane
import SessionPool.Proofs.Custom
import SessionPool.Proofs.Projection
import SessionPool.Proofs.History
import SessionPool.Proofs.LoadOnce
import SessionPool.Proofs.Client
import SessionPool.Proofs.Lifecycle
import SessionPool.Proofs.Turns
import SessionPool.Proofs.Serial
import SessionPool.Proofs.Replay
import SessionPool.Proofs.Schedule
import SessionPool.Proofs.Lockstep
import SessionPool.Proofs.Settle
import SessionPool.Proofs.Rest
import SessionPool.Proofs.Visit
import SessionPool.Proofs.Isolation
import SessionPool.Proofs.RoundTrip
import SessionPool.Proofs.Records
import SessionPool.Proofs.Flush
import SessionPool.Proofs.Watch
import SessionPool.Proofs.Play
import SessionPool.Proofs.Quiet
import SessionPool.Proofs.Dealings
import SessionPool.Proofs.Desk
import SessionPool.Proofs.Logbook
import SessionPool.Proofs.Readiness
import SessionPool.Proofs.Keeper
import SessionPool.Proofs.Restore
import SessionPool.Proofs.Registry
import SessionPool.Proofs.ConfigText
import SessionPool.Proofs.Docket
import SessionPool.Proofs.Overlap
import SessionPool.Proofs.Teardown
import SessionPool.Proofs.Routing
import SessionPool.Proofs.Spelling
import SessionPool.Proofs.Queue
import SessionPool.Proofs.Course
import SessionPool.Proofs.Curfew
import SessionPool.Proofs.Farewell
import SessionPool.Proofs.Account
import SessionPool.Proofs.Unwrapping
import SessionPool.Proofs.Closing
import SessionPool.Proofs.Phrasing
import SessionPool.Proofs.Inquiry
import SessionPool.Proofs.Actors
import SessionPool.Proofs.Recall
import SessionPool.Proofs.Saving
import SessionPool.Proofs.Decoding
