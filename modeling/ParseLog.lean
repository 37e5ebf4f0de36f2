import ParseLog.Branches.Join
import ParseLog.Branches.MergeLoop
import ParseLog.Cursor
import ParseLog.Forest.Arena
import ParseLog.Forest.Growth
import ParseLog.Forest.Listing
import ParseLog.Forest.Navigation
import ParseLog.Log.Compaction
import ParseLog.Log.Lookup
import ParseLog.Log.Speculation
import ParseLog.Proofs.Branches.Alignment
import ParseLog.Proofs.Branches.Columns
import ParseLog.Proofs.Branches.Draining
import ParseLog.Proofs.Branches.Echo
import ParseLog.Proofs.Branches.Forgetting
import ParseLog.Proofs.Branches.Joint
import ParseLog.Proofs.Branches.Reordering
import ParseLog.Proofs.Branches.Repetition
import ParseLog.Proofs.Branches.Sharing
import ParseLog.Proofs.Branches.Skeleton
import ParseLog.Proofs.Branches.Turn
import ParseLog.Proofs.Forest.Arena
import ParseLog.Proofs.Forest.Bracketing
import ParseLog.Proofs.Forest.Changes
import ParseLog.Proofs.Forest.Depths
import ParseLog.Proofs.Forest.Edge
import ParseLog.Proofs.Forest.Exchanging
import ParseLog.Proofs.Forest.Extents
import ParseLog.Proofs.Forest.Forgetting
import ParseLog.Proofs.Forest.Grown
import ParseLog.Proofs.Forest.Kept
import ParseLog.Proofs.Forest.LastValue
import ParseLog.Proofs.Forest.Navigation
import ParseLog.Proofs.Forest.Outside
import ParseLog.Proofs.Forest.Relevance
import ParseLog.Proofs.Forest.Scoping
import ParseLog.Proofs.Forest.Siblings
import ParseLog.Proofs.Forest.Standing
import ParseLog.Proofs.Forest.Survivors
import ParseLog.Proofs.Forest.Walking
import ParseLog.Proofs.Input.Cursors
import ParseLog.Proofs.Input.Cutting
import ParseLog.Proofs.Log.Coalescing
import ParseLog.Proofs.Log.Committing
import ParseLog.Proofs.Log.Forgetting
import ParseLog.Proofs.Log.Provenance
import ParseLog.Proofs.Log.Recompaction
import ParseLog.Proofs.Log.Reduced
import ParseLog.Proofs.Log.Regrouping
import ParseLog.Proofs.Log.Remaining
import ParseLog.Proofs.Log.Rereading
import ParseLog.Proofs.Log.Resolving
import ParseLog.Proofs.Log.Resuming
import ParseLog.Proofs.Log.Searching
import ParseLog.Proofs.Log.Sight
import ParseLog.Proofs.Log.SingleValued
import ParseLog.Proofs.Log.Tidying
import ParseLog.Proofs.Log.Typing
import ParseLog.Proofs.Speculation.Conservation
import ParseLog.Proofs.Speculation.Crossing
import ParseLog.Proofs.Speculation.Restoring
import ParseLog.Proofs.Speculation.Rounds
import ParseLog.Proofs.Speculation.Undoing
import ParseLog.Proofs.Text.Codes
import ParseLog.Proofs.Text.DottedNames
import ParseLog.Proofs.Text.Encodings
import ParseLog.Proofs.Text.Quoting
import ParseLog.Proofs.Variable.Conversion
import ParseLog.Proofs.Variable.Meet
import ParseLog.Proofs.Workspace.Session
import ParseLog.Proofs.Workspace.Typing
import ParseLog.Text.IdentifierTables
import ParseLog.Text.Writer
import ParseLog.Variable.Typed
import ParseLog.Workspace.Command
