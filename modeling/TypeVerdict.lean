import TypeVerdict.Log.Threshold
import TypeVerdict.Main
import TypeVerdict.Workspace.Shutdown
import TypeVerdict.Proofs.Except
import TypeVerdict.Proofs.Action
import TypeVerdict.Proofs.Waiting
import TypeVerdict.Proofs.Disturbance
import TypeVerdict.Proofs.Assembly
import TypeVerdict.Proofs.Obliging
import TypeVerdict.Proofs.Settling
import TypeVerdict.Proofs.Conservation
import TypeVerdict.Proofs.Banner
import TypeVerdict.Proofs.Marks
import TypeVerdict.Proofs.Segmentation
import TypeVerdict.Proofs.Chunking
import TypeVerdict.Proofs.Phases
import TypeVerdict.Proofs.Standstill
import TypeVerdict.Proofs.Steps
import TypeVerdict.Proofs.Calls
import TypeVerdict.Proofs.Ledger
import TypeVerdict.Proofs.Silence
import TypeVerdict.Proofs.Result
import TypeVerdict.Proofs.Lineage
import TypeVerdict.Proofs.Annotation
import TypeVerdict.Proofs.Groups
import TypeVerdict.Proofs.Accounting
import TypeVerdict.Proofs.Format
import TypeVerdict.Proofs.RoundTrip
import TypeVerdict.Proofs.Freshness
import TypeVerdict.Proofs.Emission
import TypeVerdict.Proofs.Serving
import TypeVerdict.Proofs.Outcome
import TypeVerdict.Proofs.Judgement
import TypeVerdict.Proofs.Verdict
import TypeVerdict.Proofs.Decoding
import TypeVerdict.Proofs.Attachment
import TypeVerdict.Proofs.Disclosure
import TypeVerdict.Proofs.Cancellation
import TypeVerdict.Proofs.Numbering
import TypeVerdict.Proofs.Location
import TypeVerdict.Proofs.Nearest
import TypeVerdict.Proofs.Joining
import TypeVerdict.Proofs.Attribution
import TypeVerdict.Proofs.LineEnds
import TypeVerdict.Proofs.Spelling
import TypeVerdict.Proofs.Naming
import TypeVerdict.Proofs.Recording
import TypeVerdict.Proofs.Wiring
import TypeVerdict.Proofs.Collection
import TypeVerdict.Proofs.Walks
import TypeVerdict.Proofs.Reading
