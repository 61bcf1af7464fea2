import Lifeline.Probe.Build
import Lifeline.Report.Export
import Lifeline.Session.Loader
import Lifeline.Session.Watch

/-! A tracing session from its options to its report.

The format and the probe set are settled first, then the kernel's symbols are read, the
program is loaded and attached, and the session waits. In the end the counters are read
and the report is written. The first failure ends the session; what was logged and done
until then stays. -/
namespace Lifeline.Session

/-- What is written to the standard output. -/
def banner : String :=
  "\n╔═══════════════════════════════════════════════════╗\n" ++
    "║        skbtrack - Kernel skb Lifetime Tracking    ║\n" ++
    "╚═══════════════════════════════════════════════════╝\n    \n"

/-- The probe set of the options. -/
def chooseProbes (o : Options) : Task Probe.ProbeSet := do
  let file ←
    match o.trackingConfig with
    | none => pure none
    | some path =>
      Task.info ("Loading probe configuration from: " ++ Text.quote path)
      pure (some (path, (← get).files.read path))
  let set ← Task.ofExcept Probe.BuildError.explain (Probe.ProbeSet.assemble file o.probes)
  Task.sayAll set.warnings
  Task.ofExcept Probe.BuildError.explain (set.check.mapError .set)
  return set

/-- All that needs no kernel: the export format and the probe set. -/
def prepare (o : Options) : Task (Report.Format × Probe.ProbeSet) := do
  Task.info "Starting skb tracking..."
  let duration := if o.duration = 0 then "infinite" else toString o.duration
  Task.info s!"   Duration: {duration} seconds"
  Task.info ("   Output: " ++ Text.quote o.output)
  Task.info ("   Format: " ++ o.format)
  let format ← Task.ofExcept (fun e => .plain e.message) (Report.Format.ofName o.format)
  return (format, ← chooseProbes o)

/-- The probes that the kernel has; there must be one. -/
def resolveProbes (set : Probe.ProbeSet) : Task (List Probe.Resolved) := do
  let bytes ←
    match (← get).symbols with
    | some bytes => pure bytes
    | none => throw ⟨"Failed to open /proc/kallsyms", [Errno.noSuchFile.message]⟩
  let symbols ← Task.ofExcept SymbolsError.explain (Symbols.read bytes)
  Task.info s!"{symbols.size} kernel functions known"
  Task.sayAll (set.missing symbols)
  let probes := set.resolve symbols
  if probes = [] then
    throw (.plain s!"None of the {set.size} configured functions exist in the running kernel")
  return probes

/-- Sets up the periodic task, if one is wanted. -/
def startReaper (o : Options) : Task Unit := do
  if 0 < o.reapInterval then
    openTracked
    Task.info (Reaper.Settings.announcement ⟨o.reapInterval, o.maxAge⟩)

/-- A name and a count in columns. -/
def countLine (name : String) (count : UInt64) : String :=
  "    " ++ Text.padRight 24 name ++ " " ++ Text.padLeft 8 (toString count.toNat)

/-- What is said of the report in the end. -/
def summaryLines (r : Report) : List String :=
  let s := r.summary
  let rule := "============================================"
  let drops := s.dropsByReason.toList.map fun d => countLine (toString d.1.toNat) d.2
  [ "", rule, "             Summary Report", rule, "",
    "  Total events:       " ++ toString s.totalEvents.toNat,
    "  Untracked events:   " ++ toString s.untrackedEvents.toNat,
    "  Invalid events:     " ++ toString s.invalidEvents.toNat,
    "  Tracked skbs:       " ++ toString s.trackedSkbs.toNat,
    "  Freed skbs:         " ++ toString s.completedSkbs.toNat,
    "  Reaped entries:     " ++ toString s.reapedEntries.toNat,
    "  Duration:           " ++ toString r.durationSeconds.toNat ++ " seconds",
    "", "  Events by function:" ] ++
    s.eventsByFunction.toList.map (fun e => countLine e.1 e.2) ++
    (if drops = [] then [] else "" :: "  Drops by reason:" :: drops) ++
    ["", "  Kernel counters:"] ++
    s.kernelCounters.toList.map (fun e => countLine e.1 e.2) ++ ["", rule]

/-- Writes the report to its file. -/
def writeReport (o : Options) (format : Report.Format) (r : Report) : Task Unit := do
  let place ← Task.ofExcept (Report.explainUncreated o.output) ((← get).files.create o.output)
  let content := (r.render format).toUTF8.toList
  let files ← Task.ofExcept (Report.explainUnwritten o.output) ((← get).files.fill place content)
  modify fun w => { w with files := files }
  Task.info ("Report written to " ++ Text.quote o.output)
  Task.sayAll ((summaryLines r).map .info)

/-- A whole session. The steps are what happens on the machine, the interrupt comes at a
time in milliseconds, and the report is told when it is made. -/
def trace (o : Options) (steps : List Step) (interrupt : Nat) (madeAt : String) : Task Unit := do
  let (format, set) ← prepare o
  let probes ← resolveProbes set
  loadProgram o.object o.headOffset
  configureProbes probes
  attachProbes probes
  openEvents
  Task.info "Tracking skbs..."
  Task.info "Spawning ring buffer reader"
  startReaper o
  let (finish, how) := ending o interrupt
  let watch ← (moments o steps finish).foldlM (live o) ⟨.start probes, 0⟩
  Task.info how.announcement
  Task.info "Generating tracking report..."
  let counters ← readCounters
  writeReport o format
    (watch.collector.report
      ⟨madeAt, UInt64.ofNat (finish / 1000), counters, UInt64.ofNat watch.reaped⟩)

end Lifeline.Session
