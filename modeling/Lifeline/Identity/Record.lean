import Lifeline.Address
import Std.Data.ExtTreeMap

/-! Who a buffer is, and what is remembered of it.

A buffer is known by the head it was first seen with and the time of that first sight:
heads are reused once a buffer is freed, so neither part suffices. Identities are
ordered by age first. -/
namespace Lifeline

/-- The head and the time of a buffer's first sight. -/
structure Identity where
  origHead : Address
  timestamp : Nanos
  deriving DecidableEq, Repr

/-- By time of first sight, then by head. -/
def Identity.compare : Identity → Identity → Ordering :=
  compareLex (compareOn Identity.timestamp) (compareOn Identity.origHead)

instance : Std.TransCmp Identity.compare :=
  inferInstanceAs
    (Std.TransCmp (compareLex (compareOn Identity.timestamp) (compareOn Identity.origHead)))

instance : Std.LawfulEqCmp Identity.compare where
  eq_of_compare {a b} h := by
    simp only [Identity.compare, compareLex, compareOn, Ordering.then_eq_eq,
      Std.LawfulEqOrd.compare_eq_iff_eq] at h
    cases a
    cases b
    simp_all

/-- What is remembered of a tracked buffer. -/
structure Record where
  /-- When the buffer was first seen. -/
  timestamp : Nanos
  /-- When the buffer was last seen. -/
  lastSeen : Nanos
  /-- The head of the first sight; it never changes. -/
  origHead : Address
  deriving DecidableEq, Repr

namespace Record

/-- A buffer first seen now. -/
def start (head : Address) (now : Nanos) : Record :=
  ⟨now, now, head⟩

def identity (r : Record) : Identity :=
  ⟨r.origHead, r.timestamp⟩

/-- Time since the last sight; nothing for a record from the future. -/
def age (r : Record) (now : Nanos) : Nanos :=
  if r.lastSeen ≤ now then now - r.lastSeen else 0

end Record

end Lifeline
