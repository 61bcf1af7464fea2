import Lifeline.Probe.Spec
import Lifeline.Symbols

/-! The set of functions to probe.

A set lists its probes in the order in which their symbols were first named, one for
each symbol; naming a symbol again replaces its probe in place (`upsert`). It starts
from the built-in probes, which a file and the command line change and extend. -/
namespace Lifeline.Probe

/-- The probes to attach, in order. -/
structure ProbeSet where
  probes : List Spec

/-- What a configuration file asks for. -/
structure ConfigFile where
  /-- Start from no probes instead of the built-in ones. -/
  replaceDefaults : Bool
  probes : List Spec

/-- A probe whose symbol the running kernel has. -/
structure Resolved where
  symbol : String
  address : Address
  offsets : Offsets
  behavior : Option Behavior
  deriving DecidableEq

/-- Why a set cannot be loaded. -/
inductive SetError where
  | none
  | tooMany (count : Nat)
  | spec (reason : SpecError)
  deriving DecidableEq

/-- Most probes that a kernel map takes. -/
def maxProbes : Nat := 128

def SetError.message : SetError → String
  | none => "No probe configured"
  | tooMany count => s!"Too many probes: {count} (max {maxProbes})"
  | spec reason => reason.message

/-- A file that names a symbol twice. -/
inductive ApplyError where
  | repeated (symbol : String)
  deriving DecidableEq, Repr

def ApplyError.message : ApplyError → String
  | repeated symbol => s!"Probe '{symbol}' configured more than once"

/-- Puts a probe in the place of the one with its symbol, or behind all others. -/
def upsert (probe : Spec) : List Spec → List Spec
  | [] => [probe]
  | p :: rest => if p.symbol = probe.symbol then probe :: rest else p :: upsert probe rest

namespace ProbeSet

def empty : ProbeSet := ⟨[]⟩

/-- Functions probed by default: the common ways in and out, the end of a buffer's life,
the function that replaces heads, and the one that tells why a buffer was dropped. -/
def builtin : ProbeSet where
  probes :=
    [ .generic "napi_gro_receive" 1,
      .generic "netif_receive_skb" 0,
      .generic "ip_rcv" 0,
      .generic "tcp_v4_rcv" 0,
      .generic "udp_rcv" 0,
      .generic "ip_output" 2,
      .generic "__dev_queue_xmit" 0,
      .generic "dev_hard_start_xmit" 0,
      .generic "consume_skb" 0,
      { Spec.generic "kfree_skb_reason" 0 with dropReason := some 1 },
      { Spec.generic "pskb_expand_head" 0 with invHead := true },
      .generic "skb_free_head" 0,
      { Spec.generic "kfree_skbmem" 0 with free := true } ]

def size (s : ProbeSet) : Nat :=
  s.probes.length

def upsert (s : ProbeSet) (probe : Spec) : ProbeSet :=
  ⟨Probe.upsert probe s.probes⟩

/-- Applies the probes of a file in order, up to one whose symbol the file named before. -/
def applyProbes (named : List String) (s : ProbeSet) :
    List Spec → ProbeSet × Except ApplyError Unit
  | [] => (s, .ok ())
  | probe :: rest =>
    if probe.symbol ∈ named then (s, .error (.repeated probe.symbol))
    else applyProbes (probe.symbol :: named) (s.upsert probe) rest

/-- Merges a configuration file. The set is changed up to the first repeated symbol. -/
def applyFile (s : ProbeSet) (file : ConfigFile) : ProbeSet × Except ApplyError Unit :=
  applyProbes [] (if file.replaceDefaults then empty else s) file.probes

/-- Checks that a set can be loaded: its size, then its probes in order. -/
def check (s : ProbeSet) : Except SetError Unit :=
  if s.probes = [] then .error .none
  else if maxProbes < s.size then .error (.tooMany s.size)
  else
    match s.probes.findSome? fun p => match p.check with
      | .error reason => some reason
      | .ok () => none with
    | some reason => .error (.spec reason)
    | none => .ok ()

def warnOdd (p : Spec) : LogLine :=
  .warn (s!"{p.symbol} both frees skbs and invalidates their head; " ++
    "the skb will be untracked after it")

/-- What the check warns of: odd probes before the first one that cannot be used. -/
def warnings (s : ProbeSet) : List LogLine :=
  if s.probes = [] ∨ maxProbes < s.size then []
  else
    ((s.probes.takeWhile fun p => p.check matches .ok ()).filter (·.isOdd)).map warnOdd

/-- A probe as the running kernel has it. -/
def locate? (symbols : Symbols) (p : Spec) : Option Resolved :=
  (symbols.addressOf? p.symbol).map fun address => ⟨p.symbol, address, p.offsets, p.behavior?⟩

/-- The probes that the running kernel has, in order. -/
def resolve (s : ProbeSet) (symbols : Symbols) : List Resolved :=
  s.probes.filterMap (locate? symbols)

def warnMissing (p : Spec) : LogLine :=
  .warn s!"  ⚠ {p.symbol} not found in the running kernel, skipping"

/-- A warning for each probe that the running kernel does not have. -/
def missing (s : ProbeSet) (symbols : Symbols) : List LogLine :=
  (s.probes.filter fun p => (locate? symbols p).isNone).map warnMissing

end ProbeSet

end Lifeline.Probe
