import Lifeline.Event.Section

/-! Reading raw events back into events.

The bytes are a size, then that many bytes of sections back to back. They are first cut
into sections (`split`), then the sections are gathered in order: the last one of
each known owner counts, sections of other owners are noted and skipped, and the first
fault met in reading order decides. What lies behind the announced size is never
looked at. -/
namespace Lifeline

/-- A section as it was cut out. -/
structure Section where
  owner : UInt8
  dataType : UInt8
  payload : List UInt8
  deriving DecidableEq, Repr

/-- Why bytes are not an event. -/
inductive DecodeError where
  | tooShort (length : Nat)
  | invalidSize (size : Nat)
  | truncatedHeader
  | truncatedSection (owner : UInt8) (length : Nat)
  | wrongLength (owner : Owner) (length : Nat)
  | noCommonSection
  deriving DecidableEq, Repr

def DecodeError.message : DecodeError → String
  | tooShort length => s!"Event too short: {length} bytes"
  | invalidSize size => s!"Invalid event size: {size}"
  | truncatedHeader => "Truncated section header"
  | truncatedSection owner length =>
    "Truncated section (owner " ++ toString owner.toNat ++ s!", {length} bytes)"
  | wrongLength owner length =>
    "Section of owner " ++ toString owner.code.toNat ++ s!" has size {length}, expected " ++
      toString owner.payloadSize
  | noCommonSection => "Event without common section"

/-- An event as its sections come in. -/
structure Draft where
  timestamp : Option Nanos
  function : Option Address
  sighting : Option Sighting

/-- The owners skipped, and the event or the first fault. -/
structure Decoding where
  skipped : List UInt8
  result : Except DecodeError Event

namespace Event

/-- Cuts bytes into sections, up to the end or the first truncated section. -/
def split : List UInt8 → List Section × Option DecodeError
  | [] => ([], none)
  | owner :: dataType :: low :: high :: rest =>
    let length := LittleEndian.decode [low, high]
    if length ≤ rest.length then
      let (sections, ending) := split (rest.drop length)
      (⟨owner, dataType, rest.take length⟩ :: sections, ending)
    else ([], some (.truncatedSection owner length))
  | _ => ([], some .truncatedHeader)
  termination_by bytes => bytes.length
  decreasing_by simp only [List.length_drop, List.length_cons]; omega

def readWord (bytes : List UInt8) : UInt64 :=
  UInt64.ofNat (LittleEndian.decode bytes)

/-- The fields of a tracking payload. -/
def readSighting (payload : List UInt8) : Sighting where
  identity :=
    { origHead := readWord (payload.take 8)
      timestamp := readWord ((payload.drop 8).take 8) }
  skb := readWord ((payload.drop 16).take 8)
  dropReason := UInt32.ofNat (LittleEndian.decode (payload.drop 24))

end Event

namespace Draft

def blank : Draft := ⟨none, none, none⟩

/-- The draft with a section of a known owner read into it. -/
def read (d : Draft) (owner : Owner) (payload : List UInt8) : Draft :=
  match owner with
  | .common => { d with timestamp := some (Event.readWord payload) }
  | .kernel => { d with function := some (Event.readWord payload) }
  | .tracking => { d with sighting := some (Event.readSighting payload) }

/-- The event, if there was a common section. -/
def finish (d : Draft) : Except DecodeError Event :=
  match d.timestamp with
  | some timestamp => .ok ⟨timestamp, d.function, d.sighting⟩
  | none => .error .noCommonSection

/-- Reads sections in order, then ends as the cutting did. -/
def gather (ending : Option DecodeError) (d : Draft) : List Section → Decoding
  | [] =>
    match ending with
    | some fault => ⟨[], .error fault⟩
    | none => ⟨[], d.finish⟩
  | s :: rest =>
    match Owner.ofCode? s.owner with
    | none =>
      let later := d.gather ending rest
      { later with skipped := s.owner :: later.skipped }
    | some owner =>
      if s.payload.length = owner.payloadSize then (d.read owner s.payload).gather ending rest
      else ⟨[], .error (.wrongLength owner s.payload.length)⟩

end Draft

/-- Decodes a raw event from its bytes. -/
def Event.decode : List UInt8 → Decoding
  | low :: high :: rest =>
    let size := LittleEndian.decode [low, high]
    if size > RawEvent.room ∨ size > rest.length then ⟨[], .error (.invalidSize size)⟩
    else
      let (sections, ending) := split (rest.take size)
      Draft.blank.gather ending sections
  | bytes => ⟨[], .error (.tooShort bytes.length)⟩

end Lifeline
