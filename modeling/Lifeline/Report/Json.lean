import Lifeline.Json.Read
import Lifeline.Json.Value
import Lifeline.Report.Basic

/-! Reports as JSON.

Every field is written under its name, in a fixed order, and maps in the order of their
keys; an observation without a drop reason has no such member. Reading takes the members
in any order and passes over unknown ones, and of a name that a map has twice it keeps
the last. -/
namespace Lifeline.Report

open Json

/-! ### Writing -/

def word (n : UInt64) : Value := .number n.toNat

def Entry.toValue (e : Entry) : Value :=
  .object
    ([ ("timestamp_ns", word e.timestamp),
       ("function", .text e.function),
       ("skb", .text e.skb) ] ++
      match e.dropReason with
      | some reason => [("drop_reason", .number reason.toNat)]
      | none => [])

def Timeline.toValue (t : Timeline) : Value :=
  .object
    [ ("orig_head", .text t.origHead),
      ("created_at_ns", word t.createdAt),
      ("last_seen_ns", word t.lastSeen),
      ("skb_addresses", .array (t.skbAddresses.map .text)),
      ("freed", .bool t.freed),
      ("events", .array (t.events.map Entry.toValue)) ]

/-- Counts by name. -/
def countsValue (counts : List (String × UInt64)) : Value :=
  .object (counts.map fun c => (c.1, word c.2))

def Summary.toValue (s : Summary) : Value :=
  .object
    [ ("total_events", word s.totalEvents),
      ("untracked_events", word s.untrackedEvents),
      ("invalid_events", word s.invalidEvents),
      ("tracked_skbs", word s.trackedSkbs),
      ("completed_skbs", word s.completedSkbs),
      ("events_by_function", countsValue s.eventsByFunction.toList),
      ("drops_by_reason",
        countsValue (s.dropsByReason.toList.map fun d => (toString d.1.toNat, d.2))),
      ("kernel_counters", countsValue s.kernelCounters.toList),
      ("reaped_entries", word s.reapedEntries) ]

def toValue (r : Report) : Value :=
  .object
    [ ("timestamp", .text r.timestamp),
      ("duration_seconds", word r.durationSeconds),
      ("summary", r.summary.toValue),
      ("skbs", .array (r.skbs.map Timeline.toValue)) ]

/-- The report as JSON without white space. -/
def compact (r : Report) : String :=
  String.ofList r.toValue.compact

/-- The report as JSON, one member or item on a line. -/
def pretty (r : Report) : String :=
  String.ofList r.toValue.pretty

/-! ### Reading -/

/-- The fields of an observation as they come in. -/
structure EntryDraft where
  timestamp : Option Nanos
  function : Option String
  skb : Option String
  dropReason : Option UInt32

def Entry.shape : Shape EntryDraft Entry where
  name := "TimelineEntry"
  fields :=
    [ ⟨"timestamp_ns", false, fun o d => do return { d with timestamp := some (← readUInt64 o) }⟩,
      ⟨"function", false, fun o d => do return { d with function := some (← readText o) }⟩,
      ⟨"skb", false, fun o d => do return { d with skb := some (← readText o) }⟩,
      ⟨"drop_reason", false,
        fun o d => do return { d with dropReason := ← readOption readUInt32 o }⟩ ]
  isStrict := false
  blank := ⟨none, none, none, none⟩
  finish d := do
    return ⟨← required "timestamp_ns" d.timestamp, ← required "function" d.function,
      ← required "skb" d.skb, d.dropReason⟩

/-- The fields of a lifetime as they come in. -/
structure TimelineDraft where
  origHead : Option String
  createdAt : Option Nanos
  lastSeen : Option Nanos
  skbAddresses : Option (List String)
  freed : Option Bool
  events : Option (List Entry)

def Timeline.shape : Shape TimelineDraft Timeline where
  name := "SkbTimeline"
  fields :=
    [ ⟨"orig_head", false, fun o d => do return { d with origHead := some (← readText o) }⟩,
      ⟨"created_at_ns", false, fun o d => do return { d with createdAt := some (← readUInt64 o) }⟩,
      ⟨"last_seen_ns", false, fun o d => do return { d with lastSeen := some (← readUInt64 o) }⟩,
      ⟨"skb_addresses", false,
        fun o d => do return { d with skbAddresses := some (← readList readText o) }⟩,
      ⟨"freed", false, fun o d => do return { d with freed := some (← readBool o) }⟩,
      ⟨"events", false,
        fun o d => do return { d with events := some (← readList Entry.shape.read o) }⟩ ]
  isStrict := false
  blank := ⟨none, none, none, none, none, none⟩
  finish d := do
    return ⟨← required "orig_head" d.origHead, ← required "created_at_ns" d.createdAt,
      ← required "last_seen_ns" d.lastSeen, ← required "skb_addresses" d.skbAddresses,
      ← required "freed" d.freed, ← required "events" d.events⟩

/-- Counts by name; the last of a name counts. -/
def readCounts (o : Outline) : Reading (Std.ExtTreeMap String UInt64 compare) := do
  return (← readMembers Key.readText readUInt64 o).foldl (fun m c => m.insert c.1 c.2) ∅

/-- Counts by number; the last of a number counts. -/
def readDrops (o : Outline) : Reading (Std.ExtTreeMap UInt32 UInt64 compare) := do
  return (← readMembers Key.readUInt32 readUInt64 o).foldl (fun m c => m.insert c.1 c.2) ∅

/-- The fields of a summary as they come in. -/
structure SummaryDraft where
  totalEvents : Option UInt64
  untrackedEvents : Option UInt64
  invalidEvents : Option UInt64
  trackedSkbs : Option UInt64
  completedSkbs : Option UInt64
  eventsByFunction : Option (Std.ExtTreeMap String UInt64 compare)
  dropsByReason : Option (Std.ExtTreeMap UInt32 UInt64 compare)
  kernelCounters : Option (Std.ExtTreeMap String UInt64 compare)
  reapedEntries : Option UInt64

def Summary.shape : Shape SummaryDraft Summary where
  name := "TrackingSummary"
  fields :=
    [ ⟨"total_events", false, fun o d => do return { d with totalEvents := some (← readUInt64 o) }⟩,
      ⟨"untracked_events", false,
        fun o d => do return { d with untrackedEvents := some (← readUInt64 o) }⟩,
      ⟨"invalid_events", false,
        fun o d => do return { d with invalidEvents := some (← readUInt64 o) }⟩,
      ⟨"tracked_skbs", false, fun o d => do return { d with trackedSkbs := some (← readUInt64 o) }⟩,
      ⟨"completed_skbs", false,
        fun o d => do return { d with completedSkbs := some (← readUInt64 o) }⟩,
      ⟨"events_by_function", false,
        fun o d => do return { d with eventsByFunction := some (← readCounts o) }⟩,
      ⟨"drops_by_reason", false,
        fun o d => do return { d with dropsByReason := some (← readDrops o) }⟩,
      ⟨"kernel_counters", false,
        fun o d => do return { d with kernelCounters := some (← readCounts o) }⟩,
      ⟨"reaped_entries", false,
        fun o d => do return { d with reapedEntries := some (← readUInt64 o) }⟩ ]
  isStrict := false
  blank := ⟨none, none, none, none, none, none, none, none, none⟩
  finish d := do
    return ⟨← required "total_events" d.totalEvents,
      ← required "untracked_events" d.untrackedEvents,
      ← required "invalid_events" d.invalidEvents, ← required "tracked_skbs" d.trackedSkbs,
      ← required "completed_skbs" d.completedSkbs,
      ← required "events_by_function" d.eventsByFunction,
      ← required "drops_by_reason" d.dropsByReason,
      ← required "kernel_counters" d.kernelCounters,
      ← required "reaped_entries" d.reapedEntries⟩

/-- The fields of a report as they come in. -/
structure Draft where
  timestamp : Option String
  durationSeconds : Option UInt64
  summary : Option Summary
  skbs : Option (List Timeline)

def shape : Shape Draft Report where
  name := "TrackingReport"
  fields :=
    [ ⟨"timestamp", false, fun o d => do return { d with timestamp := some (← readText o) }⟩,
      ⟨"duration_seconds", false,
        fun o d => do return { d with durationSeconds := some (← readUInt64 o) }⟩,
      ⟨"summary", false, fun o d => do return { d with summary := some (← Summary.shape.read o) }⟩,
      ⟨"skbs", false,
        fun o d => do return { d with skbs := some (← readList Timeline.shape.read o) }⟩ ]
  isStrict := false
  blank := ⟨none, none, none, none⟩
  finish d := do
    return ⟨← required "timestamp" d.timestamp, ← required "duration_seconds" d.durationSeconds,
      ← required "summary" d.summary, ← required "skbs" d.skbs⟩

/-- Reads a report from its JSON text. -/
def ofText (text : String) : Reading Report :=
  (Document.ofText text.toList).read shape.read

end Lifeline.Report
