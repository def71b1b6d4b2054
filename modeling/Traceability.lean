import Traceability.Machine.Run
import Traceability.Machine.Programs
import Traceability.Machine.Journal
import Traceability.Machine.Commute
import Traceability.Bytes.LittleEndian
import Traceability.Bytes.Concat
import Traceability.Bytes.Text
import Traceability.Merkle.Tree
import Traceability.Merkle.Level
import Traceability.Merkle.Commitment
import Traceability.Merkle.SortedPair
import Traceability.Merkle.Path
import Traceability.Pallet.Replay
import Traceability.Pallet.Binding
import Traceability.Pallet.Lifecycle
import Traceability.Pallet.Admission
import Traceability.Pallet.Reconciliation
import Traceability.Pallet.Block
import Traceability.Generator.Commitment
import Traceability.Generator.Signing
import Traceability.Anchoring.Immutability
import Traceability.Anchoring.Outsiders
import Traceability.Anchoring.Authority
import Traceability.Anchoring.GeneratedRoots
import Traceability.Anchoring.Inclusion
import Traceability.Consumer.Tree
import Traceability.Consumer.Verification
import Traceability.Machine.Ticks
import Traceability.Simulation.Partition
import Traceability.Counting.Binomial
import Traceability.Simulation.Churn
import Traceability.Anchoring.Journal
import Traceability.Anchoring.Reordering
import Traceability.Bytes.Xorshift
import Traceability.Codes.Readable
import Traceability.Connectivity.Draws
import Traceability.Connectivity.Exactness
import Traceability.Consumer.Retrieval
import Traceability.Machine.Itinerary
import Traceability.Pallet.Itinerary
import Traceability.Pallet.Locality
import Traceability.Simulation.Backlog
import Traceability.Simulation.Intermittent
import Traceability.Simulation.Replication
import Traceability.Anchoring.Submissions
import Traceability.Consumer.Tampering
import Traceability.Generator.Keys
