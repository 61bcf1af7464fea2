import Lifeline.Address

/-! The monotonic clock, and waiting by it.

Waits are asked for in seconds and told in milliseconds; none is longer than thirty years
(`wait`). What recurs comes at times that lie one period apart: `every` has all of them up
to the end. -/
namespace Lifeline.Clock

/-- What the clock shows while a session waits: the machine has been running for ten seconds. -/
def reading : Nanos := 10000000000

/-- Thirty years in seconds, the longest wait. -/
def thirtyYears : Nat := 946080000

/-- Milliseconds of a wait: what is asked for, but no more than thirty years. -/
def wait (seconds : Nat) : Nat :=
  min seconds thirtyYears * 1000

/-- Milliseconds between two lines of progress, a second at least. -/
def progressPause (seconds : Nat) : Nat :=
  wait (max 1 seconds)

/-- The times from `start` on, `period` apart, that come before the end. -/
def every (period start finish : Nat) : List Nat :=
  (List.range ((finish - start + (period - 1)) / period)).map fun k => start + k * period

end Lifeline.Clock
