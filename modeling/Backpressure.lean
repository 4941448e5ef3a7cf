import Backpressure.Json.Settings
import Backpressure.Script.Evaluate
import Backpressure.Proofs.Moves
import Backpressure.Proofs.Wakeups
import Backpressure.Proofs.Accounts
import Backpressure.Proofs.Requests
import Backpressure.Proofs.Waiters
import Backpressure.Proofs.Loads
import Backpressure.Proofs.Totals
import Backpressure.Proofs.Endings
import Backpressure.Proofs.Warnings
import Backpressure.Proofs.Scenes
import Backpressure.Proofs.Tuning
import Backpressure.Proofs.WakeOrder
import Backpressure.Proofs.Closing
import Backpressure.Proofs.Neighbours
import Backpressure.Proofs.Registers
import Backpressure.Proofs.Choices
import Backpressure.Proofs.Exports
import Backpressure.Proofs.Traces
import Backpressure.Proofs.Passes
import Backpressure.Proofs.Transparency
import Backpressure.Proofs.Numerals
import Backpressure.Proofs.RoundTrip
import Backpressure.Proofs.Spacing
import Backpressure.Proofs.StoredForm
import Backpressure.Proofs.Looks
import Backpressure.Proofs.Services
import Backpressure.Proofs.Reports
import Backpressure.Proofs.Spelling
import Backpressure.Proofs.PolicyNames
import Backpressure.Proofs.Grammar
import Backpressure.Proofs.Fields
import Backpressure.Proofs.Extents
import Backpressure.Proofs.Documents
import Backpressure.Proofs.WaitCounts
import Backpressure.Proofs.RecordSums
