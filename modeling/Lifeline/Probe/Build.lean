import Lifeline.Probe.ConfigFile

/-! The probe set of a session: the built-in probes, changed by a configuration file if
there is one, then by the probes of the command line in order, and checked last. -/
namespace Lifeline.Probe

/-- Why there is no probe set. -/
inductive BuildError where
  | config (path : String) (reason : ConfigError)
  | apply (reason : ApplyError)
  | argument (reason : ArgumentError)
  | set (reason : SetError)

def BuildError.explain : BuildError → Explanation
  | config path reason => reason.explain path
  | apply reason => .plain reason.message
  | argument reason => reason.explain
  | set reason => .plain reason.message

namespace ProbeSet

/-- Adds the probes of the command line, up to one that is no probe. -/
def addArguments (s : ProbeSet) : List String → Except ArgumentError ProbeSet
  | [] => .ok s
  | argument :: rest => do
    let probe ← Spec.ofArgument? argument
    (s.upsert probe).addArguments rest

/-- The probe set of these settings before it is checked, the content of the configuration
file being given with its path. -/
def assemble (file : Option (String × Except Files.FileError (List UInt8)))
    (arguments : List String) : Except BuildError ProbeSet := do
  let set ←
    match file with
    | none => pure builtin
    | some (path, content) =>
      let file ← (ConfigFile.load content).mapError (.config path)
      match builtin.applyFile file with
      | (set, .ok ()) => pure set
      | (_, .error reason) => throw (.apply reason)
  (set.addArguments arguments).mapError .argument

/-- The probe set of these settings. -/
def build (file : Option (String × Except Files.FileError (List UInt8)))
    (arguments : List String) : Except BuildError ProbeSet := do
  let set ← assemble file arguments
  set.check.mapError .set
  return set

end ProbeSet

end Lifeline.Probe
