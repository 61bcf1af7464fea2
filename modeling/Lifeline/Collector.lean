import Lifeline.Event.Decode
import Lifeline.Probe.Set
import Lifeline.Report.Basic

/-! Lifetimes from events.

The collector files every event under the identity of its buffer as it arrives, and
counts. A report lists the lifetimes by age and the observations of each by time; those
of one time stay in the order of their arrival, for processors write their events at
their own pace. -/
namespace Lifeline

/-- The observations of one buffer so far. -/
structure Lifetime where
  /-- The latest time of an observation. -/
  lastSeen : Nanos
  /-- The addresses of the buffer, in the order of their first arrival. -/
  skbs : List Address
  freed : Bool
  /-- The observations, the latest arrival first. -/
  entries : List Report.Entry

def Lifetime.blank : Lifetime := ⟨0, [], false, []⟩

/-- Probed functions, and what their events have told so far. -/
structure Collector where
  probes : List Probe.Resolved
  lifetimes : Std.ExtTreeMap Identity Lifetime Identity.compare
  eventsByFunction : Std.ExtTreeMap String Nat compare
  dropsByReason : Std.ExtTreeMap UInt32 Nat compare
  totalEvents : Nat
  untrackedEvents : Nat
  invalidEvents : Nat

namespace Collector

/-- A collector that has seen nothing yet. -/
def start (probes : List Probe.Resolved) : Collector :=
  ⟨probes, ∅, ∅, ∅, 0, 0, 0⟩

/-- Name of a probed function, or else its address; of two probes at one address the later
one has the say. -/
def functionName (c : Collector) : Option Address → String
  | none => "unknown"
  | some address =>
    match c.probes.reverse.find? (·.address == address) with
    | some probe => probe.symbol
    | none => address.format

/-- Whether a function is known to free buffers. -/
def isFreeing (c : Collector) : Option Address → Bool
  | none => false
  | some address =>
    c.probes.any fun p => p.address == address && p.behavior.any Behavior.frees

/-- One more of a kind. -/
def count {κ : Type} [Ord κ] [Std.TransOrd κ] (counts : Std.ExtTreeMap κ Nat compare) (key : κ) :
    Std.ExtTreeMap κ Nat compare :=
  counts.insert key (counts.getD key 0 + 1)

/-- The reason of a drop, where there was one. -/
def dropReason? (s : Sighting) : Option UInt32 :=
  if s.dropReason = 0 then none else some s.dropReason

/-- A lifetime with one more observation. -/
def extend (function : String) (frees : Bool) (timestamp : Nanos) (s : Sighting) (l : Lifetime) :
    Lifetime where
  lastSeen := max l.lastSeen timestamp
  skbs := if s.skb ∈ l.skbs then l.skbs else l.skbs ++ [s.skb]
  freed := l.freed || frees
  entries := ⟨timestamp, function, s.skb.format, dropReason? s⟩ :: l.entries

/-- Files an observation under its identity. -/
def file (c : Collector) (e : Event) (s : Sighting) : Collector :=
  { c with
    lifetimes :=
      c.lifetimes.insert s.identity
        (extend (c.functionName e.function) (c.isFreeing e.function) e.timestamp s
          (c.lifetimes.getD s.identity .blank))
    dropsByReason :=
      match dropReason? s with
      | some reason => count c.dropsByReason reason
      | none => c.dropsByReason }

/-- Takes an event. -/
def add (c : Collector) (e : Event) : Collector :=
  let counted :=
    { c with
      totalEvents := c.totalEvents + 1
      eventsByFunction := count c.eventsByFunction (c.functionName e.function) }
  match e.sighting with
  | some s => counted.file e s
  | none => { counted with untrackedEvents := counted.untrackedEvents + 1 }

/-- Takes note of an event that could not be decoded. -/
def addInvalid (c : Collector) : Collector :=
  { c with invalidEvents := c.invalidEvents + 1 }

/-- Number of distinct buffers. -/
def skbCount (c : Collector) : Nat :=
  c.lifetimes.size

/-- Number of buffers whose free was seen. -/
def completedCount (c : Collector) : Nat :=
  (c.lifetimes.toList.filter (·.2.freed)).length

/-! ### Reports -/

/-- Observations in the order of their times. -/
def inOrder (entries : List Report.Entry) : List Report.Entry :=
  entries.mergeSort fun a b => a.timestamp ≤ b.timestamp

def timeline (lifetime : Identity × Lifetime) : Report.Timeline where
  origHead := lifetime.1.origHead.format
  createdAt := lifetime.1.timestamp
  lastSeen := lifetime.2.lastSeen
  skbAddresses := lifetime.2.skbs.map Address.format
  freed := lifetime.2.freed
  events := inOrder lifetime.2.entries.reverse

def words {κ : Type} [Ord κ] [Std.TransOrd κ] [Std.LawfulEqOrd κ]
    (counts : Std.ExtTreeMap κ Nat compare) : Std.ExtTreeMap κ UInt64 compare :=
  counts.map fun _ n => UInt64.ofNat n

/-- What is known besides the events: when the report is made, how long the session took,
the counters of the kernel program, and how many records the reaper removed. -/
structure Circumstances where
  timestamp : String
  elapsedSeconds : UInt64
  counters : Std.ExtTreeMap String UInt64 compare
  reaped : UInt64

def summary (c : Collector) (given : Circumstances) : Report.Summary where
  totalEvents := UInt64.ofNat c.totalEvents
  untrackedEvents := UInt64.ofNat c.untrackedEvents
  invalidEvents := UInt64.ofNat c.invalidEvents
  trackedSkbs := UInt64.ofNat c.skbCount
  completedSkbs := UInt64.ofNat c.completedCount
  eventsByFunction := words c.eventsByFunction
  dropsByReason := words c.dropsByReason
  kernelCounters := given.counters
  reapedEntries := given.reaped

/-- The report on all events so far. -/
def report (c : Collector) (given : Circumstances) : Report where
  timestamp := given.timestamp
  durationSeconds := given.elapsedSeconds
  summary := c.summary given
  skbs := c.lifetimes.toList.map timeline

/-! ### Raw events -/

/-- An event on one line. -/
def describe (c : Collector) (e : Event) : String :=
  "[" ++ toString e.timestamp.toNat ++ "] " ++ c.functionName e.function ++
    match e.sighting with
    | some s =>
      " skb " ++ s.skb.brief ++ " (head " ++ s.identity.origHead.brief ++ " @ " ++
        toString s.identity.timestamp.toNat ++ ") drop " ++ toString s.dropReason.toNat
    | none => " untracked"

/-- What is said of the sections that were passed over. -/
def skippedLines (d : Decoding) : List LogLine :=
  d.skipped.map fun owner => .debug ("Skipping section of unknown owner " ++ toString owner.toNat)

/-- Takes the bytes of a raw event; a verbose log has a line for every event. -/
def receive (verbose : Bool) (c : Collector) (bytes : List UInt8) : List LogLine × Collector :=
  let d := Event.decode bytes
  match d.result with
  | .ok e => (skippedLines d ++ if verbose then [.debug (c.describe e)] else [], c.add e)
  | .error fault =>
    (skippedLines d ++ [.debug ("Dropping invalid event: " ++ fault.message)], c.addInvalid)

/-- Takes raw events one after another. -/
def receiveAll (verbose : Bool) (c : Collector) : List (List UInt8) → List LogLine × Collector
  | [] => ([], c)
  | bytes :: rest =>
    let (lines, c) := c.receive verbose bytes
    let (later, c) := c.receiveAll verbose rest
    (lines ++ later, c)

/-- How far the collection has come. -/
def progressLine (c : Collector) : LogLine :=
  .info s!"Progress: {c.totalEvents} events collected, {c.skbCount} skbs tracked"

end Collector

end Lifeline
