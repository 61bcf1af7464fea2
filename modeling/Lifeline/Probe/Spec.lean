import Lifeline.Behavior
import Lifeline.Log
import Lifeline.Probe.Offsets
import Lifeline.Text.Integer

/-! A function to probe: its name, its arguments and its behavior.

On the command line a probe is a name, or a name, a colon and the position of the
buffer among the arguments (`Spec.ofArgument?`). The colon that counts is the first
one, and a bad position is told before an empty name. -/
namespace Lifeline.Probe

/-- A function to probe. -/
structure Spec where
  symbol : String
  /-- Position of the buffer. -/
  skBuff : Int8
  /-- Position of the drop reason, if the function takes one. -/
  dropReason : Option Int8
  free : Bool
  invHead : Bool
  deriving DecidableEq

/-- Why a command line argument is not a probe. -/
inductive ArgumentError where
  | invalidPosition (argument : String) (reason : Text.IntegerError)
  | emptySymbol (argument : String)
  deriving DecidableEq, Repr

def ArgumentError.explain : ArgumentError → Explanation
  | invalidPosition argument reason =>
    ⟨s!"Invalid skb argument position in '{argument}'", [reason.message]⟩
  | emptySymbol argument => .plain s!"Empty symbol in probe '{argument}'"

/-- Why a probe cannot be used. -/
inductive SpecError where
  | emptySymbol
  | skBuffOutOfRange (symbol : String) (position : Int8)
  | invalidDropReason (symbol : String) (position : Int8)
  deriving DecidableEq

def SpecError.message : SpecError → String
  | emptySymbol => "Probe with an empty symbol"
  | skBuffOutOfRange symbol position =>
    s!"{symbol}: skb argument position " ++ toString position.toInt ++
      s!" out of range (0..{argumentRegisters})"
  | invalidDropReason symbol position =>
    s!"{symbol}: invalid drop reason argument position " ++ toString position.toInt

namespace Spec

/-- A function without special behavior. -/
def generic (symbol : String) (skBuff : Int8) : Spec :=
  ⟨symbol, skBuff, none, false, false⟩

/-- Reads a position of the command line. -/
def readPosition (text : List Char) : Except Text.IntegerError Int8 :=
  (Text.readInteger 10 127 text).map Int8.ofInt

/-- Reads a probe of the command line. -/
def ofArgument? (argument : String) : Except ArgumentError Spec :=
  let text := argument.toList
  let symbol := text.takeWhile (· != ':')
  let position : Except Text.IntegerError Int8 :=
    match text.dropWhile (· != ':') with
    | [] => .ok 0
    | _ :: rest => readPosition rest
  match position with
  | .error reason => .error (.invalidPosition argument reason)
  | .ok skBuff =>
    if symbol = [] then .error (.emptySymbol argument)
    else .ok (generic (String.ofList symbol) skBuff)

/-- Positions as the kernel program is told them. -/
def offsets (p : Spec) : Offsets :=
  ⟨p.skBuff, p.dropReason.getD unavailable⟩

/-- Behavior as the kernel program is told it, only where there is something to tell. -/
def behavior? (p : Spec) : Option Behavior :=
  if p.free || p.invHead then some (.ofFlags p.free p.invHead) else none

/-- Checks that a probe can be used. -/
def check (p : Spec) : Except SpecError Unit :=
  if p.symbol = "" then .error .emptySymbol
  else if register? p.skBuff = none then .error (.skBuffOutOfRange p.symbol p.skBuff)
  else
    match p.dropReason with
    | none => .ok ()
    | some position =>
      if register? position = none ∨ position = p.skBuff then
        .error (.invalidDropReason p.symbol position)
      else .ok ()

/-- Frees buffers and replaces their heads: accepted, but worth a warning. -/
def isOdd (p : Spec) : Bool :=
  p.free && p.invHead

end Spec

end Lifeline.Probe
