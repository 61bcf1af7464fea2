import Lifeline.BoundedMap
import Lifeline.Address

/-! Counters of the kernel program.

A counter is read and written back, and these are two operations on its map: whoever
writes in between is not counted (`Counters.next` is what is written for what was read).
-/
namespace Lifeline.Kernel

/-- What is counted. -/
inductive Counter where
  | totalEvents
  | noConfig
  | noSkb
  | noHead
  | reserveFailed
  | sectionFull
  | tracked
  deriving DecidableEq, Repr

namespace Counter

/-- All counters, in the order of their indices. -/
def all : List Counter :=
  [totalEvents, noConfig, noSkb, noHead, reserveFailed, sectionFull, tracked]

/-- Key of a counter in its map. -/
def index : Counter → UInt32
  | totalEvents => 0
  | noConfig => 1
  | noSkb => 2
  | noHead => 3
  | reserveFailed => 4
  | sectionFull => 5
  | tracked => 6

def name : Counter → String
  | totalEvents => "total_events"
  | noConfig => "no_config"
  | noSkb => "no_skb"
  | noHead => "no_head"
  | reserveFailed => "event_reserve_failed"
  | sectionFull => "section_full"
  | tracked => "tracked"

end Counter

/-- The map of the counters; one that never counted has no entry. -/
abbrev Counters := BoundedMap UInt32 UInt64

namespace Counters

def empty : Counters := BoundedMap.empty Counter.all.length

/-- What a counter becomes after it was read. -/
def next : Option UInt64 → UInt64
  | some n => n + 1
  | none => 1

/-- Writes a counter; a map without room stays as it is. -/
def write (c : Counters) (counter : Counter) (value : UInt64) : Counters :=
  (c.put? counter.index value).getD c

/-- Counts one more. -/
def increment (c : Counters) (counter : Counter) : Counters :=
  c.write counter (next (c.get? counter.index))

/-- Value of a counter. -/
def value (c : Counters) (counter : Counter) : UInt64 :=
  (c.get? counter.index).getD 0

end Counters

end Lifeline.Kernel
