/-! Where a probed function takes its arguments.

A position is a signed byte. Five registers can be read, so a position is usable from
zero to four (`register?`); minus one stands for an argument that a function does not
have. -/
namespace Lifeline

/-- Number of argument registers a probe can read. -/
def argumentRegisters : Nat := 5

/-- Register of a position, if a probe can read it. -/
def register? (position : Int8) : Option Nat :=
  if 0 ≤ position.toInt ∧ position.toInt < argumentRegisters then some position.toInt.toNat
  else none

/-- The position of an argument that a function does not have. -/
def unavailable : Int8 := -1

/-- Positions of the arguments that a probe asks for. -/
structure Offsets where
  /-- The buffer. -/
  skBuff : Int8
  /-- The reason of a drop. -/
  dropReason : Int8
  deriving DecidableEq

namespace Offsets

/-- A function with neither argument. -/
def none : Offsets := ⟨unavailable, unavailable⟩

/-- Register of the buffer. -/
def skBuff? (o : Offsets) : Option Nat := register? o.skBuff

/-- Register of the drop reason. -/
def dropReason? (o : Offsets) : Option Nat := register? o.dropReason

end Offsets

theorem register?_unavailable : register? unavailable = none := by decide

theorem register?_lt {position : Int8} {i : Nat} (h : register? position = some i) :
    i < argumentRegisters := by
  unfold register? at h
  split at h
  · cases h
    omega
  · contradiction

end Lifeline
