import Lifeline.Event.Raw
import Lifeline.Identity.Record

/-! The sections of an event and what they say.

Three owners are known: the common section carries the time of the probe, the kernel
section the probed function, the tracking section the buffer's identity. Their
payloads are packed words, lowest byte first. -/
namespace Lifeline

/-- What the tracking section says of a buffer. -/
structure Sighting where
  identity : Identity
  /-- Address of the buffer at the time of the event. -/
  skb : Address
  /-- Why the buffer was dropped; zero when it was not, or when this is not known. -/
  dropReason : UInt32
  deriving DecidableEq, Repr

/-- An event once its sections are decoded. -/
structure Event where
  /-- When the probe fired. -/
  timestamp : Nanos
  /-- Address of the probed function. -/
  function : Option Address
  /-- The buffer, unless its section was left out. -/
  sighting : Option Sighting
  deriving DecidableEq, Repr

/-- Section owners. -/
inductive Owner where
  | common
  | kernel
  | tracking
  deriving DecidableEq, Repr

namespace Owner

def code : Owner → UInt8
  | common => 1
  | kernel => 2
  | tracking => 4

def ofCode? (code : UInt8) : Option Owner :=
  if code = 1 then some common
  else if code = 2 then some kernel
  else if code = 4 then some tracking
  else none

/-- Payload size of the sections of an owner. -/
def payloadSize : Owner → Nat
  | common => 8
  | kernel => 8
  | tracking => 28

theorem ofCode?_code (o : Owner) : ofCode? o.code = some o := by
  cases o <;> rfl

theorem ofCode?_eq_some_iff {code : UInt8} {o : Owner} : ofCode? code = some o ↔ code = o.code := by
  constructor
  · intro h
    unfold ofCode? at h
    repeat' split at h
    all_goals cases h
    all_goals assumption
  · rintro rfl
    exact ofCode?_code o

end Owner

namespace RawEvent

/-- Data type of every section of the known owners. -/
def defaultType : UInt8 := 1

def commonPayload (timestamp : Nanos) : List UInt8 :=
  LittleEndian.encode 8 timestamp.toNat

def kernelPayload (function : Address) : List UInt8 :=
  LittleEndian.encode 8 function.toNat

def trackingPayload (s : Sighting) : List UInt8 :=
  LittleEndian.encode 8 s.identity.origHead.toNat ++
    LittleEndian.encode 8 s.identity.timestamp.toNat ++
    LittleEndian.encode 8 s.skb.toNat ++
    LittleEndian.encode 4 s.dropReason.toNat

@[simp] theorem length_commonPayload (t : Nanos) :
    (commonPayload t).length = Owner.common.payloadSize := by
  simp [commonPayload, Owner.payloadSize]

@[simp] theorem length_kernelPayload (a : Address) :
    (kernelPayload a).length = Owner.kernel.payloadSize := by
  simp [kernelPayload, Owner.payloadSize]

@[simp] theorem length_trackingPayload (s : Sighting) :
    (trackingPayload s).length = Owner.tracking.payloadSize := by
  simp [trackingPayload, Owner.payloadSize]

end RawEvent

end Lifeline
