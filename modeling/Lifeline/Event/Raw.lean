import Lifeline.LittleEndian

/-! Raw events: a buffer of fixed size filled with sections.

A raw event is a used size and 1022 bytes. A section is a header of four bytes (owner,
data type, payload size) and its payload; sections lie back to back from the start.
A section is written whole or not at all (`append?`), and only where it fits behind the
used bytes, so a used size beyond the buffer takes no section at all. -/
namespace Lifeline

/-- Bytes for sections in a raw event. -/
def RawEvent.room : Nat := 1022

/-- Bytes of a section header. -/
def RawEvent.headerSize : Nat := 4

/-- A used size and the bytes of the buffer. -/
structure RawEvent where
  size : UInt16
  data : List UInt8
  length_data : data.length = RawEvent.room

namespace RawEvent

/-- No sections, and zeros in the buffer. -/
def blank : RawEvent where
  size := 0
  data := List.replicate room 0
  length_data := List.length_replicate

/-- Forgets all sections; the bytes of the buffer stay. -/
def reset (e : RawEvent) : RawEvent :=
  { e with size := 0 }

/-- The bytes used by sections. -/
def sections (e : RawEvent) : List UInt8 :=
  e.data.take (min e.size.toNat room)

/-- Header and payload of a section. -/
def sectionBytes (owner dataType : UInt8) (payload : List UInt8) : List UInt8 :=
  owner :: dataType :: LittleEndian.encode 2 payload.length ++ payload

/-- A section of this payload size still fits. -/
def Fits (e : RawEvent) (length : Nat) : Prop :=
  e.size.toNat + headerSize + length ≤ room

instance (e : RawEvent) (length : Nat) : Decidable (e.Fits length) :=
  inferInstanceAs (Decidable (_ ≤ _))

/-- Writes a section that fits behind the used bytes. -/
def write (e : RawEvent) (owner dataType : UInt8) (payload : List UInt8)
    (h : e.Fits payload.length) : RawEvent where
  size := UInt16.ofNat (e.size.toNat + headerSize + payload.length)
  data := e.data.take e.size.toNat ++ sectionBytes owner dataType payload ++
    e.data.drop (e.size.toNat + headerSize + payload.length)
  length_data := by
    have := e.length_data
    simp only [Fits, headerSize, room] at h this ⊢
    simp only [sectionBytes, List.length_append, List.length_take, List.length_cons,
      LittleEndian.length_encode, List.length_drop]
    omega

/-- Writes a section if it fits; otherwise there is no event to go on with. -/
def append? (e : RawEvent) (owner dataType : UInt8) (payload : List UInt8) : Option RawEvent :=
  if h : e.Fits payload.length then some (e.write owner dataType payload h) else none

/-- The event as it lies in memory: its size, then its buffer. -/
def bytes (e : RawEvent) : List UInt8 :=
  LittleEndian.encode 2 e.size.toNat ++ e.data

theorem toNat_size_write (e : RawEvent) (owner dataType : UInt8) (payload : List UInt8)
    (h : e.Fits payload.length) :
    (e.write owner dataType payload h).size.toNat = e.size.toNat + headerSize + payload.length := by
  simp only [Fits, headerSize, room] at h
  simp only [write, headerSize, UInt16.toNat_ofNat']
  omega

end RawEvent

end Lifeline
