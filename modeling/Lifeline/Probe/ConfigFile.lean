import Lifeline.Files.Path
import Lifeline.Json.Read
import Lifeline.Probe.Set

/-! Configuration files.

A file is a JSON record of two fields, all of them optional, and its probes are records
of five fields of which only the symbol is needed. Fields of other names are refused. -/
namespace Lifeline.Probe

open Json

/-- Why a configuration file cannot be used. -/
inductive ConfigError where
  | unreadable (reason : Files.FileError)
  | notText
  | rejected (reason : ReadError)

/-- The reason that a text was refused, in words. -/
def describe : ReadError → String
  | .malformed => "malformed JSON"
  | .misfit reason => reason.message

def ConfigError.explain (path : String) : ConfigError → Explanation
  | unreadable reason =>
    ⟨"Failed to read tracking config: " ++ Text.quote path, [reason.message]⟩
  | notText =>
    ⟨"Failed to read tracking config: " ++ Text.quote path,
      ["stream did not contain valid UTF-8"]⟩
  | rejected reason =>
    ⟨"Failed to parse tracking config: " ++ Text.quote path, [describe reason]⟩

/-- The fields of a probe as they come in. -/
structure SpecDraft where
  symbol : Option String
  skBuff : Int8
  dropReason : Option Int8
  free : Bool
  invHead : Bool

/-- How a probe is written in a file. -/
def Spec.shape : Shape SpecDraft Spec where
  name := "ProbeSpec"
  fields :=
    [ ⟨"symbol", false, fun o d => do return { d with symbol := some (← readText o) }⟩,
      ⟨"sk_buff", true, fun o d => do return { d with skBuff := ← readInt8 o }⟩,
      ⟨"skb_drop_reason", true,
        fun o d => do return { d with dropReason := ← readOption readInt8 o }⟩,
      ⟨"free", true, fun o d => do return { d with free := ← readBool o }⟩,
      ⟨"inv_head", true, fun o d => do return { d with invHead := ← readBool o }⟩ ]
  isStrict := true
  blank := ⟨none, 0, none, false, false⟩
  finish d := do
    return ⟨← required "symbol" d.symbol, d.skBuff, d.dropReason, d.free, d.invHead⟩

/-- How a configuration file is written. -/
def ConfigFile.shape : Shape ConfigFile ConfigFile where
  name := "TrackingConfigFile"
  fields :=
    [ ⟨"replace_defaults", true,
        fun o f => do return { f with replaceDefaults := ← readBool o }⟩,
      ⟨"probes", true,
        fun o f => do return { f with probes := ← readList Spec.shape.read o }⟩ ]
  isStrict := true
  blank := ⟨false, []⟩
  finish f := .ok f

/-- Reads the text of a configuration file. -/
def ConfigFile.ofText (text : String) : Reading ConfigFile :=
  (Document.ofText text.toList).read ConfigFile.shape.read

/-- Reads a configuration file from its bytes, if they could be read. -/
def ConfigFile.load (content : Except Files.FileError (List UInt8)) :
    Except ConfigError ConfigFile :=
  match content with
  | .error reason => .error (.unreadable reason)
  | .ok bytes =>
    match String.fromUTF8? ⟨bytes.toArray⟩ with
    | none => .error .notText
    | some text =>
      match ConfigFile.ofText text with
      | .ok file => .ok file
      | .error reason => .error (.rejected reason)

end Lifeline.Probe
