import Lifeline.Proofs.Identity.View
import Lifeline.Tracking

/-! Firings one after another on one store.

A `Firing` is everything that tracking is given at once. What it writes follows from the
identity that its observation is resolved to (`Firing.program_run`), so a run of firings
writes what the run of their observations resolves (`reports_eq`). -/
namespace Lifeline

/-- One firing of a probe on a buffer, with all that tracking is given. -/
structure Firing where
  /-- Behavior of the probed function. -/
  behavior : Behavior
  /-- The drop reason argument, if the function takes one. -/
  dropReason : Option UInt64
  /-- The event to write to. -/
  event : RawEvent
  observation : Observation

namespace Firing

abbrev head (f : Firing) : Address := f.observation.head

abbrev skb (f : Firing) : Address := f.observation.skb

abbrev timestamp (f : Firing) : Nanos := f.observation.timestamp

abbrev frees (f : Firing) : Bool := f.behavior.frees

abbrev invalidates (f : Firing) : Bool := f.behavior.invalidatesHead

/-- A firing that writes to a blank event. -/
def bare (behavior : Behavior) (timestamp : Nanos) (skb head : Address) : Firing :=
  ⟨behavior, none, RawEvent.blank, ⟨0, timestamp, skb, head⟩⟩

/-- The identity of a buffer that is first seen by this firing. -/
def origin (f : Firing) : Identity :=
  ⟨f.head, f.timestamp⟩

/-- The whole of tracking. -/
def program (f : Firing) : Program (Outcome × RawEvent) :=
  track f.behavior f.dropReason f.event f.observation

/-- What comes before the event is written. -/
def identify (f : Firing) : Program (Option Identity) :=
  observe f.behavior f.observation

/-- What becomes of the event once the buffer is identified, or has no head. -/
def report (f : Firing) : Option Identity → Outcome × RawEvent
  | none => (.noHead, f.event)
  | some identity => emit f.event ⟨identity, f.skb, dropReasonOf f.dropReason⟩

theorem program_run (f : Firing) (s : Store) :
    f.program.run s = (f.report (f.identify.run s).1, (f.identify.run s).2) := by
  rw [program, track, Program.run_bind]
  show Program.run (match (f.identify.run s).1 with | none => _ | some identity => _) _ = _
  cases (f.identify.run s).1 <;> rfl

theorem identify_run (f : Firing) (s : Store) (h : f.head ≠ 0) :
    f.identify.run s =
      (some (s.recordOf f.observation).identity, s.observed f.behavior f.observation) :=
  observe_run s f.behavior f.observation h

/-- The store after a firing with a usable head. -/
theorem store_run (f : Firing) (s : Store) (h : f.head ≠ 0) :
    (f.program.run s).2 = s.observed f.behavior f.observation := by
  rw [f.program_run, f.identify_run s h]

theorem program_run_of_identify {f : Firing} {s : Store} {i : Identity}
    (h : (f.identify.run s).1 = some i) : (f.program.run s).1 = f.report (some i) := by
  rw [f.program_run, h]

end Firing

/-- Runs programs one after another: what each gives, and the store that is left. -/
def runAll {α β : Type} (program : α → Program β) : Store → List α → List β × Store
  | s, [] => ([], s)
  | s, a :: rest =>
    let now := (program a).run s
    let later := runAll program now.2 rest
    (now.1 :: later.1, later.2)

/-- The identities that firings one after another are resolved to. -/
def identities (s : Store) (firings : List Firing) : List (Option Identity) :=
  (runAll Firing.identify s firings).1

/-- What firings one after another write. -/
def reports (s : Store) (firings : List Firing) : List (Outcome × RawEvent) :=
  (runAll Firing.program s firings).1

theorem identities_cons (s : Store) (f : Firing) (rest : List Firing) :
    identities s (f :: rest) = (f.identify.run s).1 :: identities (f.identify.run s).2 rest := rfl

/-- Whatever is in the events, they get the sections of the resolved identities. -/
theorem reports_eq (s : Store) (firings : List Firing) :
    reports s firings = List.zipWith Firing.report firings (identities s firings) := by
  induction firings generalizing s with
  | nil => rfl
  | cons f rest ih =>
    have hrun := f.program_run s
    show (f.program.run s).1 :: reports (f.program.run s).2 rest = _
    rw [ih, hrun]
    rfl

end Lifeline
