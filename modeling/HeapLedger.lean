import HeapLedger.Counter.Run
import HeapLedger.OomPolicy.Run
import HeapLedger.Session.Choice
import HeapLedger.UsageReport
import HeapLedger.Proofs.Counter
import HeapLedger.Proofs.Tallies
import HeapLedger.Proofs.Backend.Contract
import HeapLedger.Proofs.Backend.Watched
import HeapLedger.Proofs.Custody
import HeapLedger.Proofs.Strategy.Contract
import HeapLedger.Proofs.Strategy.Native
import HeapLedger.Proofs.Header
import HeapLedger.Proofs.Strategy.Headered
import HeapLedger.Proofs.Ledger.Alloc
import HeapLedger.Proofs.Ledger.Layouts
import HeapLedger.Proofs.Ledger.Perform
import HeapLedger.Proofs.Strategy.Adapter
import HeapLedger.Proofs.Desk
import HeapLedger.Proofs.Accounting
import HeapLedger.Proofs.Atomicity
import HeapLedger.Proofs.Resizing
import HeapLedger.Proofs.Traffic
import HeapLedger.Proofs.Isolation
import HeapLedger.Proofs.Backend.Arena
import HeapLedger.Proofs.Follows
import HeapLedger.Proofs.Ledger.Follows
import HeapLedger.Proofs.Strategy.Pointers
import HeapLedger.Proofs.Alignment
import HeapLedger.Proofs.Checked
import HeapLedger.Proofs.Faultless
import HeapLedger.Proofs.Ledger.Discreet
import HeapLedger.Proofs.Strategy.Stack
import HeapLedger.Proofs.Ledger.Orders
import HeapLedger.Proofs.Ledger.Requests
import HeapLedger.Proofs.Errors
import HeapLedger.Proofs.Ledger.Insistence
import HeapLedger.Proofs.Handlers
import HeapLedger.Proofs.Ledger.Demands
import HeapLedger.Proofs.Wrappers
import HeapLedger.Proofs.Strategy.Sightings
import HeapLedger.Proofs.Ledger.Foresight
import HeapLedger.Proofs.Ledger.Foreseen
import HeapLedger.Proofs.Ledger.Content
import HeapLedger.Proofs.Cloakroom
import HeapLedger.Proofs.Placement
import HeapLedger.Proofs.Strategy.Stamping
import HeapLedger.Proofs.Strategy.Zeros
import HeapLedger.Proofs.Strategy.Plain
import HeapLedger.Proofs.Arrival
import HeapLedger.Proofs.Zeroing
import HeapLedger.Proofs.Strings
import HeapLedger.Proofs.Strategy.Traces
import HeapLedger.Proofs.SizedFree
import HeapLedger.Proofs.Advice
import HeapLedger.Proofs.Pages
import HeapLedger.Proofs.Text
import HeapLedger.Proofs.Mappings
import HeapLedger.Proofs.Sheets
import HeapLedger.Proofs.StatusLines
import HeapLedger.Proofs.Backend.Packing
import HeapLedger.Proofs.Strategy.SmallBlocks
import HeapLedger.Proofs.Backend.Tenure
import HeapLedger.Proofs.Conformance.Checks
import HeapLedger.Proofs.Conformance.Scripts
import HeapLedger.Proofs.Conformance.Verdicts
import HeapLedger.Proofs.Conformance.Probes
