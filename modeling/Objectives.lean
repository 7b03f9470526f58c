import Objectives.Json.Reader
import Objectives.Main
import Objectives.Memory.Calls
import Objectives.Proofs.OrderKeys
import Objectives.Proofs.Reachable
import Objectives.Proofs.Walk
import Objectives.Proofs.Cycles
import Objectives.Proofs.Subtree
import Objectives.Proofs.Forest
import Objectives.Proofs.Contributors
import Objectives.Proofs.Rollup
import Objectives.Proofs.Refusal
import Objectives.Proofs.Refusal.Memory
import Objectives.Proofs.Refusal.Database
import Objectives.Proofs.Queries
import Objectives.Proofs.Reach
import Objectives.Proofs.Alike
import Objectives.Proofs.Lockstep
import Objectives.Proofs.Mirror
import Objectives.Proofs.Mirror.Reading
import Objectives.Proofs.Mirror.Acting
import Objectives.Proofs.Mirror.Goals
import Objectives.Proofs.Mirror.Measurements
import Objectives.Proofs.Mirror.KeyResults
import Objectives.Proofs.Agreement
import Objectives.Proofs.Handover
import Objectives.Proofs.Candidates
import Objectives.Proofs.Written
import Objectives.Proofs.Runs
import Objectives.Proofs.Joining
import Objectives.Proofs.Identifiers
import Objectives.Proofs.Integrity
import Objectives.Proofs.Freeze
import Objectives.Proofs.Wording
import Objectives.Proofs.Views
import Objectives.Proofs.Intact
import Objectives.Proofs.Server
import Objectives.Proofs.Edits
import Objectives.Proofs.Interleaving
import Objectives.Proofs.Moves
import Objectives.Proofs.Neighbors
import Objectives.Proofs.Overwriting
import Objectives.Proofs.ShareOrder
import Objectives.Proofs.Sharing
import Objectives.Proofs.Revision
import Objectives.Proofs.Curve
import Objectives.Proofs.Reflection
import Objectives.Proofs.Rising
import Objectives.Proofs.Average
import Objectives.Proofs.Replay
import Objectives.Proofs.Journal
import Objectives.Proofs.Checkpoints
import Objectives.Proofs.Weighing
