import Lifeline.Clock
import Lifeline.Collector

/-! Reading batches of raw events while a clock runs.

Lines of progress may be asked for: one at once, then one every period. They tell what has
been read by then. -/
namespace Lifeline

/-- A reader and its clock, in milliseconds. -/
structure Reader where
  collector : Collector
  verbose : Bool
  /-- Time between two lines of progress, if they are wanted. -/
  period : Option Nat
  now : Nat

namespace Reader

/-- A reader that starts now, and what it says at once; the interval is that of progress, in
seconds. -/
def start (probes : List Probe.Resolved) (verbose : Bool) (interval : Option Nat) :
    List LogLine × Reader :=
  let collector := Collector.start probes
  (if interval.isSome then [collector.progressLine] else [],
    ⟨collector, verbose, interval.map Clock.progressPause, 0⟩)

/-- Lines of progress that fall due while the clock advances. -/
def progress (r : Reader) (wait : Nat) : List LogLine :=
  match r.period with
  | none => []
  | some period =>
    List.replicate ((r.now + wait) / period - r.now / period) r.collector.progressLine

/-- Reads a batch, then waits. -/
def read (r : Reader) (events : List (List UInt8)) (wait : Nat) : List LogLine × Reader :=
  let (lines, collector) := r.collector.receiveAll r.verbose events
  let r := { r with collector := collector }
  (lines ++ r.progress wait, { r with now := r.now + wait })

/-- What is said when nothing can be waited for any more. -/
def stopping (reason : String) : LogLine :=
  .warn s!"Stopping ring buffer reader: {reason}"

end Reader

end Lifeline
