import TorrentFlow.Main
import TorrentFlow.Engine.Bench
import TorrentFlow.Proofs.Filing
import TorrentFlow.Proofs.Holders
import TorrentFlow.Proofs.Mailboxes
import TorrentFlow.Proofs.Subscriptions
import TorrentFlow.Proofs.Tally
import TorrentFlow.Proofs.Mailroom
import TorrentFlow.Proofs.Calls
import TorrentFlow.Proofs.Delivery.Steps
import TorrentFlow.Proofs.Delivery.Invariant
import TorrentFlow.Proofs.Delivery.ExactlyOnce
import TorrentFlow.Proofs.Pumping.Changes
import TorrentFlow.Proofs.Pumping.Steps
import TorrentFlow.Proofs.Pumping.OneBatch
import TorrentFlow.Proofs.Pumping.Closing
import TorrentFlow.Proofs.Torrents
import TorrentFlow.Proofs.Delivery.Evolution
import TorrentFlow.Proofs.Services.Steps
import TorrentFlow.Proofs.Services.Attending
import TorrentFlow.Proofs.Services.Soundness
import TorrentFlow.Proofs.Services.Staffing
import TorrentFlow.Proofs.Services.Invariant
import TorrentFlow.Proofs.Services.Outcome
import TorrentFlow.Proofs.Services.Yields
import TorrentFlow.Proofs.Services.Tracking
import TorrentFlow.Proofs.Services.Ledger
import TorrentFlow.Proofs.Services.Deadlines
import TorrentFlow.Proofs.Services.Promises
import TorrentFlow.Proofs.Services.Pending
import TorrentFlow.Proofs.Services.Stalling
import TorrentFlow.Proofs.Demands.Operations
import TorrentFlow.Proofs.Demands.Subscribers
import TorrentFlow.Proofs.Demands.Telling
import TorrentFlow.Proofs.Demands.Pushing
import TorrentFlow.Proofs.Waiting.Steps
import TorrentFlow.Proofs.Waiting.Contract
import TorrentFlow.Proofs.Services.Waiters
import TorrentFlow.Proofs.Services.Invalid
import TorrentFlow.Proofs.Services.Latecomers
import TorrentFlow.Proofs.Services.Forgetting
import TorrentFlow.Proofs.Intake.Handshake
import TorrentFlow.Proofs.Handles
import TorrentFlow.Proofs.Intake.Batches
import TorrentFlow.Proofs.Roster
import TorrentFlow.Proofs.Moves
import TorrentFlow.Proofs.Claimants
import TorrentFlow.Proofs.Journal.News
import TorrentFlow.Proofs.Journal.Replay
import TorrentFlow.Proofs.Requests
import TorrentFlow.Proofs.Rings
import TorrentFlow.Proofs.Waiting.Bounds
import TorrentFlow.Proofs.Waiting.Orphans
import TorrentFlow.Proofs.Completion
import TorrentFlow.Proofs.Overrides
import TorrentFlow.Proofs.Services.Ranges
import TorrentFlow.Proofs.Services.Revoked
import TorrentFlow.Proofs.Services.Surfacing
import TorrentFlow.Proofs.Intake.Faults
import TorrentFlow.Proofs.Intake.Recovery
import TorrentFlow.Proofs.Intake.Silence
