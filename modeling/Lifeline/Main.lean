import Lifeline.Session.Run
import Std.Time.Format

/-! The command line.

The files that the options name and the symbols of the running kernel are read, the
session is run on a kernel in which every function can be attached to and none is
called, and its log and report are written. -/

namespace Lifeline.CommandLine

open Session

/-- Bytes of a file, if it can be read. -/
def readIfThere (path : String) : IO (Option (List UInt8)) := do
  try
    return some (← IO.FS.readBinFile path).toList
  catch _ =>
    return none

/-- The files among these that can be read. -/
def readFiles (paths : List String) : IO (List (String × List UInt8)) :=
  paths.filterMapM fun path => do
    return (← readIfThere path).map (path, ·)

/-- Longest time that a session without an end is run for, in milliseconds. -/
def patience : Nat := 3600000

/-- The world before the session. -/
def worldOf (o : Options) : IO World := do
  let files := Files.Tree.ofFiles (← readFiles (o.object.toList ++ o.trackingConfig.toList))
  return {
    files := files.addParent o.output
    symbols := ← readIfThere "/proc/kallsyms"
    machine := .blank Kernel.Ring.defaultRoom
    globals := []
    attached := []
    fired := []
    faults := []
    log := #[] }

/-- The present time. -/
def presentTime : IO String := do
  let now := Std.Time.WallTime.ofNanoseconds (← Std.Time.Timestamp.now).toNanosecondsSinceUnixEpoch
  return (Std.Time.PlainDateTime.ofWallTime now).format "uuuu-MM-dd'T'HH:mm:ss.SSSSSSSSS" ++
    "+00:00"

/-- Runs the session and writes what came of it. -/
def runSession (o : Options) : IO UInt32 := do
  IO.print banner
  let (result, w) := (trace o [] patience (← presentTime)).run (← worldOf o)
  for line in w.log.filter (·.isShown o.verbose) do
    IO.eprintln line.plain
  match result, w.files.read o.output with
  | .ok (), .ok bytes =>
    IO.FS.writeBinFile o.output ⟨bytes.toArray⟩
    return 0
  | .error e, _ =>
    IO.eprintln ("Error: " ++ e.oneLine)
    return 1
  | _, _ => return 1

end Lifeline.CommandLine

open Lifeline in
/-- Exits with two when the arguments are refused and with one when the session fails. -/
def main (arguments : List String) : IO UInt32 := do
  match Session.Options.ofArguments arguments with
  | .ok o => CommandLine.runSession o
  | .error e =>
    IO.eprint e.message
    return 2
