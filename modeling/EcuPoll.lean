import EcuPoll.Main
import EcuPoll.Report.Record
import EcuPoll.Proofs.Engine.Course
import EcuPoll.Proofs.Engine.Addressing
import EcuPoll.Proofs.IsoTp.Segmentation
import EcuPoll.Proofs.IsoTp.Reassembly
import EcuPoll.Proofs.Engine.Accounts
import EcuPoll.Proofs.Vwtp.Blocks
import EcuPoll.Proofs.Engine.Ownership
import EcuPoll.Proofs.Vwtp.Beside
import EcuPoll.Proofs.Engine.Fates
import EcuPoll.Proofs.Engine.Parts
import EcuPoll.Proofs.Engine.Results
import EcuPoll.Proofs.Engine.Expiry
import EcuPoll.Proofs.Engine.Rounds
import EcuPoll.Proofs.Vwtp.Responses
import EcuPoll.Proofs.Vwtp.Reuse
import EcuPoll.Proofs.Engine.Dropped
import EcuPoll.Proofs.Engine.Interludes
import EcuPoll.Proofs.Vwtp.HalfOpen
import EcuPoll.Proofs.Engine.Throttling
import EcuPoll.Proofs.Engine.PassEnds
import EcuPoll.Proofs.Engine.Refusals
import EcuPoll.Proofs.Engine.Lists
import EcuPoll.Proofs.IsoTp.Bystanders
import EcuPoll.Proofs.IsoTp.Uptake
import EcuPoll.Proofs.IsoTp.Numbering
import EcuPoll.Proofs.IsoTp.Preemption
import EcuPoll.Proofs.IsoTp.Broadcasts
import EcuPoll.Proofs.IsoTp.Silence
import EcuPoll.Proofs.Engine.Arming
import EcuPoll.Proofs.Engine.Deferrals
import EcuPoll.Proofs.IsoTp.Strangers
import EcuPoll.Proofs.IsoTp.Offsets
import EcuPoll.Proofs.Vwtp.Surplus
import EcuPoll.Proofs.Vwtp.Pacing
import EcuPoll.Proofs.Engine.Starting
import EcuPoll.Proofs.Engine.Chaining
import EcuPoll.Proofs.Vwtp.Handshake
import EcuPoll.Proofs.Settings.Entries
import EcuPoll.Proofs.Settings.Buses
import EcuPoll.Proofs.Report.Collecting
import EcuPoll.Proofs.Bounds.Runs
