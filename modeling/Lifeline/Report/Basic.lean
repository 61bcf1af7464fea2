import Lifeline.Address
import Std.Data.ExtTreeMap

/-! Reports of a tracing session.

A report has the lifetime of every buffer that was seen, in the order of first sights,
and what the session came to in numbers. Its addresses are texts, as the report writes
them. -/
namespace Lifeline

namespace Report

/-- One observation of a buffer. -/
structure Entry where
  timestamp : Nanos
  /-- Name of the probed function. -/
  function : String
  /-- Address of the buffer at that time. -/
  skb : String
  dropReason : Option UInt32
  deriving DecidableEq, Repr

/-- The lifetime of one buffer. -/
structure Timeline where
  /-- The head of the first sight. -/
  origHead : String
  /-- When the buffer was first seen. -/
  createdAt : Nanos
  /-- When the buffer was last seen. -/
  lastSeen : Nanos
  /-- The addresses that the buffer was seen at. -/
  skbAddresses : List String
  /-- Whether a freeing function was among the observations. -/
  freed : Bool
  /-- The observations in the order of their times. -/
  events : List Entry
  deriving DecidableEq, Repr

/-- What a session came to. -/
structure Summary where
  totalEvents : UInt64
  /-- Events without a tracking section. -/
  untrackedEvents : UInt64
  /-- Events that could not be decoded. -/
  invalidEvents : UInt64
  /-- Distinct buffers. -/
  trackedSkbs : UInt64
  /-- Buffers whose free was seen. -/
  completedSkbs : UInt64
  eventsByFunction : Std.ExtTreeMap String UInt64 compare
  dropsByReason : Std.ExtTreeMap UInt32 UInt64 compare
  /-- Counters of the kernel program. -/
  kernelCounters : Std.ExtTreeMap String UInt64 compare
  /-- Stale records that the reaper removed. -/
  reapedEntries : UInt64

end Report

/-- What a tracing session found out. -/
structure Report where
  /-- When the report was made. -/
  timestamp : String
  durationSeconds : UInt64
  summary : Report.Summary
  skbs : List Report.Timeline

end Lifeline
