import Lifeline.Kernel.Replay
import Lifeline.Main
import Lifeline.Reader
import Lifeline.Proofs.Identity.View
import Lifeline.Proofs.Identity.Sequence
import Lifeline.Proofs.Identity.Stability
import Lifeline.Proofs.Identity.Lifetime
import Lifeline.Proofs.Identity.Cores
import Lifeline.Proofs.Identity.Origin
import Lifeline.Proofs.Identity.Handover
import Lifeline.Proofs.Identity.Isolation
import Lifeline.Proofs.Event.Grammar
import Lifeline.Proofs.Event.RoundTrip
import Lifeline.Proofs.Kernel.Delivery
import Lifeline.Proofs.Identity.LastSeen
import Lifeline.Proofs.Kernel.Accounting
import Lifeline.Proofs.Reaper.Sweep
import Lifeline.Proofs.Reaper.Continuity
import Lifeline.Proofs.Reaper.Staleness
import Lifeline.Proofs.Reaper.Custody
import Lifeline.Proofs.Report.Chronology
import Lifeline.Proofs.Probe.Acceptance
import Lifeline.Proofs.Kernel.Configuration
import Lifeline.Proofs.Session.Loading
import Lifeline.Proofs.Report.Grouping
import Lifeline.Proofs.Report.Arrival
import Lifeline.Proofs.Report.Freeing
import Lifeline.Proofs.Report.Balance
import Lifeline.Proofs.Identity.Effect
import Lifeline.Proofs.Identity.Interference
import Lifeline.Proofs.Event.Writing
import Lifeline.Proofs.Event.Emission
import Lifeline.Proofs.Kernel.Counting
import Lifeline.Proofs.Json.Layout
import Lifeline.Proofs.Json.Reading
import Lifeline.Proofs.Report.ReadBack
import Lifeline.Proofs.Probe.Precedence
import Lifeline.Proofs.Reaper.Count
import Lifeline.Proofs.Json.Record
import Lifeline.Proofs.Json.Spelling
import Lifeline.Proofs.Probe.FileText
import Lifeline.Proofs.Symbols.Listing
import Lifeline.Proofs.Report.Keys
import Lifeline.Proofs.Probe.Argument
import Lifeline.Proofs.Symbols.Hiding
