import Lifeline.Errno

/-! Calls to the kernel that are made to fail.

A fault names a kind of call, and perhaps what the call is about, and strikes the calls it
matches: one of them by its number, or all of them. Of two faults that strike one call
the first in the list has the say (`Faults.meet`). -/
namespace Lifeline.Session

/-- The calls that can fail. -/
inductive Call where
  | mapMissing
  | mapKind
  | programMissing
  | programKind
  | programLoad
  | attach
  | insert
  | get
  | remove
  | iter
  deriving DecidableEq, Repr

/-- A failure to come. -/
structure Fault where
  call : Call
  /-- What the call is about; any if not given. -/
  name : Option String
  /-- Which of the calls it matches, counted from one; zero is all. -/
  nth : Nat
  errno : Errno
  /-- What the verifier says, where the call has one. -/
  log : String
  deriving DecidableEq, Repr

/-- A fault and how many calls it has matched. -/
structure Fault.Armed where
  fault : Fault
  met : Nat
  deriving DecidableEq, Repr

abbrev Faults := List Fault.Armed

def Fault.isAbout (f : Fault) (call : Call) (name : String) : Bool :=
  f.call == call && f.name.all (· == name)

namespace Faults

/-- Faults that have met no call yet. -/
def ofList (faults : List Fault) : Faults :=
  faults.map fun f => ⟨f, 0⟩

/-- The faults after a call. -/
def after (faults : Faults) (call : Call) (name : String) : Faults :=
  faults.map fun f => if f.fault.isAbout call name then { f with met := f.met + 1 } else f

/-- A call: the fault that strikes it, if one does, and the faults after it. -/
def meet (faults : Faults) (call : Call) (name : String) : Option Fault × Faults :=
  let faults := faults.after call name
  let strikes (f : Fault.Armed) : Bool :=
    f.fault.isAbout call name && (f.fault.nth == 0 || f.fault.nth == f.met)
  ((faults.find? strikes).map (·.fault), faults)

end Faults

end Lifeline.Session
