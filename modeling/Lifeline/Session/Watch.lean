import Lifeline.Clock
import Lifeline.Collector
import Lifeline.Reaper
import Lifeline.Session.Options
import Lifeline.Session.World

/-! What happens while a session waits.

A session waits until its duration is over or it is interrupted. Meanwhile functions are
called, lines of progress are due from the start on, and sweeps from one interval on; all
of it lies on one line of time. What is due at one time comes in the order in which it was
set: first what has the longer interval, and progress before sweeps if both are as long.
The events of a step are read before time goes on. -/
namespace Lifeline.Session

/-- A call of a function of the kernel. -/
structure FunctionCall where
  name : String
  invocation : Kernel.Invocation

/-- Something that happens on the machine. -/
structure Step where
  /-- Milliseconds since the session began to wait. -/
  time : Nat
  /-- Words that become readable. -/
  memory : List (Address × UInt64)
  /-- Records put in the map of tracked buffers. -/
  records : List (Address × Record)
  /-- Events put in the ring as they are. -/
  raw : List (List UInt8)
  call : Option FunctionCall

/-- What is due at a time. -/
inductive Moment where
  | progress
  | sweep
  | step (step : Step)

/-- How a session ends. -/
inductive Ending where
  | durationOver
  | interrupted
  deriving DecidableEq, Repr

def Ending.announcement : Ending → String
  | durationOver => "Duration reached, shutting down..."
  | interrupted => "Interrupted, shutting down..."

/-- When a session ends, in milliseconds, and how. -/
def ending (o : Options) (interrupt : Nat) : Nat × Ending :=
  let finish := Clock.wait o.duration
  if 0 < o.duration ∧ finish ≤ interrupt then (finish, .durationOver)
  else (interrupt, .interrupted)

/-- All that happens before the end, in order. -/
def moments (o : Options) (steps : List Step) (finish : Nat) : List Moment :=
  let progressPause := Clock.progressPause o.progressInterval
  let sweepPause := Clock.wait o.reapInterval
  let progress := (Clock.every progressPause 0 finish).map fun t => (t, Moment.progress)
  let sweeps :=
    if sweepPause = 0 then []
    else (Clock.every sweepPause sweepPause finish).map fun t => (t, Moment.sweep)
  let timed := if progressPause < sweepPause then sweeps ++ progress else progress ++ sweeps
  let steps := (steps.filter (·.time < finish)).map fun s => (s.time, Moment.step s)
  ((timed ++ steps).mergeSort fun a b => a.1 ≤ b.1).map (·.2)

/-- Age from which on buffers are reaped: whole seconds, as far as nanoseconds can tell. -/
def Options.maxAge (o : Options) : Nanos :=
  UInt64.ofNat (min (o.reapMaxAge * 1000000000) (UInt64.size - 1))

/-- What a session has gathered while it waits. -/
structure Watch where
  collector : Collector
  reaped : Nat

/-! ### Sweeps of the kernel's map -/

/-- The entries that are met without a fault, in order. -/
def walk (faults : Faults) : List (Address × Record) → List (Address × Record) × Faults
  | [] => ([], faults)
  | entry :: rest =>
    let (fault, faults) := faults.meet .iter "TRACKING_MAP"
    let (later, faults) := walk faults rest
    (if fault.isSome then later else entry :: later, faults)

/-- The map of tracked buffers as the reaper has it: entries that fail are passed over, a
removal that fails ends the sweep. -/
def trackedCustody : Reaper.Custody World Explanation where
  entries w :=
    let (entries, faults) := walk w.faults w.machine.tracked.toList
    (.ok entries, { w with faults := faults })
  remove key w :=
    let (fault, faults) := w.faults.meet .remove "TRACKING_MAP"
    let w := { w with faults := faults }
    match fault with
    | some fault =>
      (.error (.under ("Failed to remove tracking entry " ++ key.brief)
        (Task.failure "bpf_map_delete_elem" fault)), w)
    | none =>
      let tracked := w.machine.tracked.delete key
      (.ok (), { w with machine := { w.machine with tracked := tracked } })

/-- One sweep at a time of the monotonic clock. -/
def sweepOnce (now maxAge : Nanos) (watch : Watch) : Task Watch := do
  let (reaped, remark) ← modifyGet fun w =>
    let (reaped, remark, w) := Reaper.tick trackedCustody now maxAge watch.reaped w
    ((reaped, remark), w)
  match remark with
  | some remark => Task.say (remark.line Explanation.oneLine)
  | none => pure ()
  return { watch with reaped := reaped }

/-! ### Steps -/

/-- The machine after a step, up to the call. -/
def Step.prepare (s : Step) (m : Kernel.Machine) : Kernel.Machine :=
  { m.expose s.memory with
    tracked := s.records.foldl (fun t entry => (t.put? entry.1 entry.2).getD t) m.tracked
    ring := s.raw.foldl Kernel.Ring.push m.ring }

/-- A function is called; the program runs if it is attached to it. -/
def callFunction (call : FunctionCall) : Task Unit :=
  modify fun w =>
    if call.name ∈ w.attached then
      { w with
        machine := (w.machine.fire .blank call.invocation).2
        fired := w.fired ++ [true] }
    else { w with fired := w.fired ++ [false] }

/-- The reader takes all waiting events. -/
def readEvents (verbose : Bool) (watch : Watch) : Task Watch := do
  let events ← modifyGet fun w =>
    let (events, machine) := w.machine.drain
    (events, { w with machine := machine })
  let (lines, collector) := watch.collector.receiveAll verbose events
  Task.sayAll lines
  return { watch with collector := collector }

def takeStep (verbose : Bool) (s : Step) (watch : Watch) : Task Watch := do
  modify fun w => { w with machine := s.prepare w.machine }
  match s.call with
  | some call => callFunction call
  | none => pure ()
  readEvents verbose watch

/-! ### Waiting -/

/-- One moment. -/
def live (o : Options) (watch : Watch) : Moment → Task Watch
  | .progress => do
    Task.say watch.collector.progressLine
    return watch
  | .sweep => sweepOnce Clock.reading o.maxAge watch
  | .step s => takeStep o.verbose s watch

end Lifeline.Session
