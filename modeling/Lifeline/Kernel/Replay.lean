import Lifeline.Kernel.Machine
import Lifeline.Reaper

/-! Replaying what happens on a machine.

A replay knows the kernel's symbols and a machine that was told of the probes. Functions
are called by name, and between the calls the tracked buffers may be swept; nothing is
read from the ring meanwhile. -/
namespace Lifeline.Kernel

/-- A machine, and the addresses of its functions. -/
structure Replay where
  symbols : Symbols
  machine : Machine

namespace Replay

/-- What happens on the machine. -/
inductive Step where
  /-- Words become readable, then a function is called. -/
  | call (function : String) (timestamp : Nanos) (registers : List UInt64)
      (memory : List (Address × UInt64))
  | sweep (now maxAge : Nanos)

/-- What came of a step. -/
inductive Outcome where
  /-- The program ran, and sent an event or not. -/
  | ran (sent : Bool)
  /-- A sweep removed so many records. -/
  | swept (removed : Nat)
  deriving DecidableEq, Repr

/-- Where a function lies that the kernel does not list. -/
def unlisted : Address := 0xDEAD

/-- The machine before the first step; probes that do not fit are left out together. -/
def start (symbols : Symbols) (probes : List Probe.Resolved) (room : Nat) : Replay :=
  ⟨symbols, ((Machine.blank room).configure? probes).getD (.blank room)⟩

def step (r : Replay) : Step → Outcome × Replay
  | .call function timestamp registers memory =>
    let address := (r.symbols.addressOf? function).getD unlisted
    let (exit, after) := (r.machine.expose memory).fire .blank ⟨address, timestamp, registers⟩
    (.ran (exit matches .tracked | .sectionFull), { r with machine := after })
  | .sweep now maxAge =>
    let (removed, tracked) := Reaper.sweep (Reaper.ofStore .never) now maxAge r.machine.tracked
    (.swept (removed.toOption.getD 0), { r with machine := { r.machine with tracked := tracked } })

/-- Steps one after another. -/
def run (r : Replay) : List Step → List Outcome × Replay
  | [] => ([], r)
  | s :: rest =>
    let (outcome, r) := r.step s
    let (outcomes, r) := r.run rest
    (outcome :: outcomes, r)

/-- How many records the sweeps of a replay removed. -/
def removed : List Outcome → Nat
  | [] => 0
  | .swept n :: rest => n + removed rest
  | .ran _ :: rest => removed rest

end Replay

/-- The counters by name, all of them. -/
def Machine.countersByName (m : Machine) : Std.ExtTreeMap String UInt64 compare :=
  Counter.all.foldl (fun t c => t.insert c.name (m.counters.value c)) ∅

end Lifeline.Kernel
