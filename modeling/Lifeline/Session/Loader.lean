import Lifeline.Session.World
import Lifeline.Text.Quoted

/-! Loading the kernel program and attaching it.

The program's object is read from a file and must be an object file; loading it sets the
head offset. The maps are then filled for the resolved probes, first all positions, then
the behaviors. A function that cannot be attached is left out with a warning, but one at
least must be attached. -/
namespace Lifeline.Session

/-- Name of the program. -/
def programName : String := "probe_kprobe"

/-- The first bytes of an object file. -/
def objectMagic : List UInt8 := [0x7F, 0x45, 0x4C, 0x46]

/-- Bytes of the program's object. -/
def readObject (path : Option String) : Task (List UInt8) := do
  match path with
  | none =>
    throw (.plain ("No eBPF object file provided. Use --ebpf-object or compile with " ++
      "'embedded' feature"))
  | some path =>
    Task.info ("Loading eBPF object from: " ++ Text.quote path)
    match (← get).files.read path with
    | .ok bytes => return bytes
    | .error reason =>
      throw ⟨"Failed to read eBPF object file: " ++ Text.quote path, [reason.message]⟩

/-- Loads the program and sets its head offset. -/
def loadProgram (path : Option String) (headOffset : UInt32) : Task Unit := do
  Task.info ("Loading eBPF program (skb->head at " ++ Address.brief headOffset.toUInt64 ++ ")...")
  let bytes ← readObject path
  if objectMagic.isPrefixOf bytes then
    modify fun w =>
      { w with
        globals := [("SKB_HEAD_OFFSET", LittleEndian.encode 4 headOffset.toNat)]
        machine := { w.machine with headOffset := headOffset } }
    Task.info "eBPF program loaded successfully"
  else
    throw
      ⟨"Failed to load eBPF program",
        ["error parsing BPF object: error parsing ELF data", "error parsing ELF data"]⟩

/-- Fills the maps for the probes. -/
def configureProbes (probes : List Probe.Resolved) : Task Unit := do
  openHash "PROBE_CONFIG"
  for p in probes do
    Task.within s!"Failed to configure probe {p.symbol}"
      (update "PROBE_CONFIG" fun m => m.putProbe? p.address p.offsets)
  openHash "TRACKING_CONFIG"
  for p in probes do
    match p.behavior with
    | none => pure ()
    | some behavior =>
      Task.within s!"Failed to configure tracking of {p.symbol}"
        (update "TRACKING_CONFIG" fun m => m.putBehavior? p.address behavior)
  let special := (probes.filter (·.behavior.isSome)).length
  Task.info s!"Configured {probes.length} probes ({special} with tracking behavior)"

/-- Finds the program and loads it into the kernel. -/
def loadKprobe : Task Unit := do
  if (← Task.fault? .programMissing programName).isSome then
    throw (.plain s!"{programName} program not found in eBPF object")
  if (← Task.fault? .programKind programName).isSome then
    throw ⟨s!"Failed to get {programName} as KProbe", ["unexpected program type"]⟩
  match ← Task.fault? .programLoad programName with
  | none => pure ()
  | some fault =>
    throw
      ⟨s!"Failed to load {programName}",
        [ s!"the BPF_PROG_LOAD syscall failed. Verifier output: {fault.log}",
          fault.errno.message ]⟩

/-- Attaches the program to a function, or warns. -/
def attachTo (symbol : String) : Task Unit := do
  match ← Task.fault? .attach symbol with
  | none =>
    modify fun w => { w with attached := w.attached ++ [symbol] }
    Task.info s!"  ✓ Attached to {symbol}"
  | some _ => Task.say (.warn s!"  ⚠ Failed to attach {symbol}: `perf_event_open` failed")

/-- Attaches the program to the functions of the probes. -/
def attachProbes (probes : List Probe.Resolved) : Task Unit := do
  Task.info "Attaching kprobes for skb tracking..."
  loadKprobe
  for p in probes do
    attachTo p.symbol
  let count := (← get).attached.length
  if count = 0 then throw (.plain "No kprobe could be attached")
  Task.info s!"{count}/{probes.length} kprobes attached"

/-- Opens the ring of events. -/
def openEvents : Task Unit := do
  findMap "EVENTS"
  Task.within "Failed to create RingBuf from EVENTS map" (takeAs .ring "EVENTS")

/-- Opens the map of tracked buffers. -/
def openTracked : Task Unit := do
  findMap "TRACKING_MAP"
  Task.within "Failed to create HashMap from TRACKING_MAP map" (takeAs .hash "TRACKING_MAP")

/-- Reads one counter. -/
def readCounter (counter : Kernel.Counter) : Task (String × UInt64) := do
  match ← Task.fault? .get "STATS" with
  | some fault =>
    throw (.under s!"Failed to read stat {counter.name}" (Task.failure "bpf_map_lookup_elem" fault))
  | none => return (counter.name, (← get).machine.counters.value counter)

/-- Reads all counters of the kernel program. -/
def readCounters : Task (Std.ExtTreeMap String UInt64 compare) :=
  Task.within "Failed to read kernel counters" do
    openHash "STATS"
    let counters ← Kernel.Counter.all.mapM readCounter
    return counters.foldl (fun m c => m.insert c.1 c.2) ∅

end Lifeline.Session
