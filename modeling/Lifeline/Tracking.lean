import Lifeline.Event.Section
import Lifeline.Identity.Resolve

/-! One observation, from the store to the event.

The store is brought up to date first, whatever the event can still take; then the
tracking section is written if it fits. An observation without a head leaves both as
they are. -/
namespace Lifeline

/-- What became of the tracking section of an event. -/
inductive Outcome where
  /-- There was no usable head; nothing was tracked or written. -/
  | noHead
  /-- The section was written. -/
  | emitted
  /-- The event had no room left for the section. -/
  | sectionFull
  deriving DecidableEq, Repr

/-- Writes the tracking section of a buffer whose identity is known. -/
def emit (event : RawEvent) (sighting : Sighting) : Outcome × RawEvent :=
  match event.append? Owner.tracking.code RawEvent.defaultType
      (RawEvent.trackingPayload sighting) with
  | some event' => (.emitted, event')
  | none => (.sectionFull, event)

/-- The drop reason that a section carries: the low half of the argument, zero without one. -/
def dropReasonOf (argument : Option UInt64) : UInt32 :=
  match argument with
  | some word => word.toUInt32
  | none => 0

/-- Tracks one observation and adds its section to the event. -/
def track (behavior : Behavior) (dropReason : Option UInt64) (event : RawEvent)
    (o : Observation) : Program (Outcome × RawEvent) := do
  match ← observe behavior o with
  | none => return (.noHead, event)
  | some identity => return emit event ⟨identity, o.skb, dropReasonOf dropReason⟩

end Lifeline
