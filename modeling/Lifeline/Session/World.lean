import Lifeline.Files.Tree
import Lifeline.Kernel.Machine
import Lifeline.Log
import Lifeline.Session.Fault

/-! What a session works on: files, the kernel, and the log.

A session is a sequence of effects on a `World` that may end in an error (`Task`). Every
call to the kernel first meets the faults that were laid for it. -/
namespace Lifeline.Session

/-- Files, kernel and log. -/
structure World where
  files : Files.Tree
  /-- The kernel's list of its symbols, if it has one. -/
  symbols : Option (List UInt8)
  machine : Kernel.Machine
  /-- Globals that were set when the program was loaded, with their bytes. -/
  globals : List (String × List UInt8)
  /-- Functions that the program is attached to, in order. -/
  attached : List String
  /-- For each call of a function so far, whether the program was attached to it. -/
  fired : List Bool
  faults : Faults
  log : Array LogLine

/-- A part of a session: it changes the world and may fail. -/
abbrev Task (α : Type) := ExceptT Explanation (StateM World) α

namespace Task

def run {α : Type} (task : Task α) (w : World) : Except Explanation α × World :=
  StateT.run (ExceptT.run task) w

def say (line : LogLine) : Task Unit :=
  modify fun w => { w with log := w.log.push line }

def sayAll (lines : List LogLine) : Task Unit :=
  modify fun w => { w with log := w.log ++ lines }

def info (text : String) : Task Unit :=
  say (.info text)

/-- Ends the session. -/
def fail {α : Type} (e : Explanation) : Task α :=
  throw e

/-- A pure result, its error put into words. -/
def ofExcept {ε α : Type} (explain : ε → Explanation) : Except ε α → Task α
  | .ok value => pure value
  | .error e => throw (explain e)

/-- Says what was being done when a part fails. -/
def within {α : Type} (message : String) (task : Task α) : Task α :=
  tryCatch task fun e => throw (.under message e)

/-- The fault that strikes a call, if one does. -/
def fault? (call : Call) (name : String) : Task (Option Fault) :=
  modifyGet fun w =>
    let (fault, faults) := w.faults.meet call name
    (fault, { w with faults := faults })

/-- A failed system call. -/
def failure (call : String) (fault : Fault) : Explanation :=
  ⟨"`" ++ call ++ "` failed", [fault.errno.message]⟩

end Task

/-! ### Maps of the loaded program -/

/-- What a map is. -/
inductive MapKind where
  | hash
  | ring
  deriving DecidableEq, Repr

/-- Number of a kind. -/
def MapKind.number : MapKind → Nat
  | hash => 1
  | ring => 27

/-- The kind that a map turns out to be when it is not of this one. -/
def MapKind.other : MapKind → MapKind
  | hash => ring
  | ring => hash

/-- Finds a map of the loaded program. -/
def findMap (name : String) : Task Unit := do
  if (← Task.fault? .mapMissing name).isSome then
    throw (.plain s!"{name} map not found in eBPF object")

/-- Takes a map that was found for one of a kind. -/
def takeAs (kind : MapKind) (name : String) : Task Unit := do
  if (← Task.fault? .mapKind name).isSome then
    throw (.plain s!"invalid map type {kind.other.number}")

/-- Finds a hash map. -/
def openHash (name : String) : Task Unit := do
  findMap name
  takeAs .hash name

/-- Writes an entry of a map, unless a fault strikes or there is no room. -/
def update (name : String) (put : Kernel.Machine → Option Kernel.Machine) : Task Unit := do
  match ← Task.fault? .insert name with
  | some fault => throw (Task.failure "bpf_map_update_elem" fault)
  | none =>
    match put (← get).machine with
    | some machine => modify fun w => { w with machine := machine }
    | none => throw ⟨"`bpf_map_update_elem` failed", [Errno.argumentListTooLong.message]⟩

end Lifeline.Session
