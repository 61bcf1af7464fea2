/-! What probed functions do to the buffers they are given.

A behavior is kept as the two flag bytes that the kernel program and its loader share;
any byte but zero sets a flag. -/
namespace Lifeline

/-- Behavior of a probed function, as two flag bytes. -/
structure Behavior where
  /-- The function frees the buffer. -/
  free : UInt8
  /-- The function replaces the head by one that cannot be foreseen. -/
  invHead : UInt8
  deriving DecidableEq, Repr

namespace Behavior

def ofFlags (frees invalidatesHead : Bool) : Behavior :=
  ⟨frees.toUInt8, invalidatesHead.toUInt8⟩

/-- A function that neither frees nor replaces heads. -/
def plain : Behavior :=
  ofFlags false false

def frees (b : Behavior) : Bool :=
  b.free != 0

def invalidatesHead (b : Behavior) : Bool :=
  b.invHead != 0

@[simp] theorem frees_ofFlags (f i : Bool) : (ofFlags f i).frees = f := by
  cases f <;> cases i <;> rfl

@[simp] theorem invalidatesHead_ofFlags (f i : Bool) : (ofFlags f i).invalidatesHead = i := by
  cases f <;> cases i <;> rfl

end Behavior

end Lifeline
