import Lifeline.Kernel.Counter
import Lifeline.Probe.Set
import Lifeline.Tracking

/-! The kernel program and what it works on.

The program runs at every probed function. It finds the arguments of that function in a
map, takes the buffer from a register and its head from memory, reserves an event, and
tracks the buffer (`Machine.fire`). Whatever goes wrong, it leaves by one exit, and the
probed function never notices. All exits are counted but the one where the event cannot
even take time and function. A reserved event holds whatever was left in its place, so
the program starts by forgetting it. -/
namespace Lifeline.Kernel

/-- Events on their way to the reader. The program reserves no event once `room` are
waiting. -/
structure Ring where
  room : Nat
  /-- The bytes of the waiting events, in order. -/
  waiting : List (List UInt8)

namespace Ring

/-- Room of the ring by default. -/
def defaultRoom : Nat := 512

def isFull (r : Ring) : Bool :=
  r.room ≤ r.waiting.length

def push (r : Ring) (bytes : List UInt8) : Ring :=
  { r with waiting := r.waiting ++ [bytes] }

def drained (r : Ring) : Ring :=
  { r with waiting := [] }

end Ring

/-- Maps, globals and memory of the kernel. -/
structure Machine where
  /-- Argument positions by function. -/
  probes : BoundedMap Address Offsets
  /-- Behaviors of the functions that have one to tell. -/
  behaviors : BoundedMap Address Behavior
  tracked : Store
  counters : Counters
  ring : Ring
  /-- Readable words. -/
  memory : Std.ExtTreeMap Address UInt64 compare
  /-- Where a buffer holds its head. -/
  headOffset : UInt32

/-- Most buffers that are tracked at once. -/
def maxTracked : Nat := 8192

/-- The program's own head offset, until the loader sets another. -/
def defaultHeadOffset : UInt32 := 0xC0

/-- A call of a probed function. -/
structure Invocation where
  function : Address
  timestamp : Nanos
  /-- The argument registers that can be read. -/
  registers : List UInt64
  deriving DecidableEq, Repr

namespace Invocation

/-- Value of a register; one that cannot be read is zero. -/
def register (i : Invocation) (position : Nat) : UInt64 :=
  i.registers.getD position 0

/-- The buffer, unless the function takes none or it is null. -/
def skb? (i : Invocation) (offsets : Offsets) : Option Address :=
  match offsets.skBuff? with
  | none => none
  | some position => if i.register position = 0 then none else some (i.register position)

/-- The drop reason argument, if the function takes one. -/
def dropReason? (i : Invocation) (offsets : Offsets) : Option UInt64 :=
  offsets.dropReason?.map i.register

end Invocation

/-- How the program leaves. -/
inductive Exit where
  | noConfig
  | noSkb
  | reserveFailed
  /-- The event had no room for time and function, and was given back. -/
  | discarded
  | noHead
  | sectionFull
  | tracked
  deriving DecidableEq, Repr

/-- The counter of an exit, if it has one. -/
def Exit.counter? : Exit → Option Counter
  | noConfig => some .noConfig
  | noSkb => some .noSkb
  | reserveFailed => some .reserveFailed
  | discarded => none
  | noHead => some .noHead
  | sectionFull => some .sectionFull
  | tracked => some .tracked

/-- Writes the first two sections of a reserved event, time and function, if they fit. -/
def opening? (slot : RawEvent) (i : Invocation) : Option RawEvent := do
  let event ← slot.reset.append? Owner.common.code RawEvent.defaultType
    (RawEvent.commonPayload i.timestamp)
  event.append? Owner.kernel.code RawEvent.defaultType (RawEvent.kernelPayload i.function)

namespace Machine

/-- Empty maps, no readable memory. -/
def blank (room : Nat) : Machine where
  probes := BoundedMap.empty Probe.maxProbes
  behaviors := BoundedMap.empty Probe.maxProbes
  tracked := BoundedMap.empty maxTracked
  counters := Counters.empty
  ring := ⟨room, []⟩
  memory := ∅
  headOffset := defaultHeadOffset

/-- Makes words readable, each at its address. -/
def expose (m : Machine) (words : List (Address × UInt64)) : Machine :=
  { m with memory := words.foldl (fun memory word => memory.insert word.1 word.2) m.memory }

/-- Counts one more. -/
def count (m : Machine) (counter : Counter) : Machine :=
  { m with counters := m.counters.increment counter }

/-- The head of a buffer, zero if it cannot be read. -/
def headOf (m : Machine) (skb : Address) : Address :=
  m.memory.getD (skb + m.headOffset.toUInt64) 0

/-- What is known of a function's behavior; nothing special by default. -/
def behaviorOf (m : Machine) (function : Address) : Behavior :=
  (m.behaviors.get? function).getD .plain

/-- Tracks a buffer and sends the event, unless the buffer has no head. -/
def follow (m : Machine) (event : RawEvent) (dropReason : Option UInt64) (o : Observation) :
    Exit × Machine :=
  let ((outcome, event), tracked) :=
    (track (m.behaviorOf o.function) dropReason event o).run m.tracked
  let m := { m with tracked := tracked }
  match outcome with
  | .noHead => (.noHead, m)
  | .sectionFull => (.sectionFull, { m with ring := m.ring.push event.bytes })
  | .emitted => (.tracked, { m with ring := m.ring.push event.bytes })

/-- The program between its first and its last count. -/
def probe (m : Machine) (slot : RawEvent) (i : Invocation) : Exit × Machine :=
  match m.probes.get? i.function with
  | none => (.noConfig, m)
  | some offsets =>
    match i.skb? offsets with
    | none => (.noSkb, m)
    | some skb =>
      if m.ring.isFull then (.reserveFailed, m)
      else
        match opening? slot i with
        | none => (.discarded, m)
        | some event =>
          m.follow event (i.dropReason? offsets) ⟨i.function, i.timestamp, skb, m.headOf skb⟩

/-- One run of the program, in a ring whose next event holds `slot`. -/
def fire (m : Machine) (slot : RawEvent) (i : Invocation) : Exit × Machine :=
  let (exit, m) := (m.count .totalEvents).probe slot i
  (exit, exit.counter?.elim m m.count)

/-- Takes all waiting events out of the ring. -/
def drain (m : Machine) : List (List UInt8) × Machine :=
  (m.ring.waiting, { m with ring := m.ring.drained })

/-! ### Configuration -/

/-- Sets the argument positions of a function, unless the map is full. -/
def putProbe? (m : Machine) (function : Address) (offsets : Offsets) : Option Machine :=
  (m.probes.put? function offsets).map fun probes => { m with probes := probes }

/-- Sets the behavior of a function, unless the map is full. -/
def putBehavior? (m : Machine) (function : Address) (behavior : Behavior) : Option Machine :=
  (m.behaviors.put? function behavior).map fun behaviors => { m with behaviors := behaviors }

/-- Tells the program of the probes: all positions first, then the behaviors. -/
def configure? (m : Machine) (probes : List Probe.Resolved) : Option Machine := do
  let m ← probes.foldlM (fun m p => m.putProbe? p.address p.offsets) m
  probes.foldlM
    (fun m p =>
      match p.behavior with
      | some behavior => m.putBehavior? p.address behavior
      | none => some m)
    m

end Machine

end Lifeline.Kernel
