import Lifeline.Behavior
import Lifeline.Identity.Program

/-! How one observation of a buffer is resolved to an identity.

A buffer is looked up by its head, then by its own address. A record found under the
address is moved under the head; it leaves the address only once the head holds a
record, so that a full store loses nothing. A buffer that is not known is entered
under its head, unless it is being freed. A function that replaces heads leaves the
record under the buffer's address as well, until the next observation tells the new
head. -/
namespace Lifeline

/-- One firing of a probe on a buffer. -/
structure Observation where
  /-- Address of the probed function. -/
  function : Address
  timestamp : Nanos
  /-- Address of the buffer. -/
  skb : Address
  /-- The buffer's present head, zero when it cannot be read. -/
  head : Address
  deriving DecidableEq, Repr

namespace Program

def get (key : Address) : Program (Option Record) :=
  lookup key done

def insert (key : Address) (record : Record) : Program Bool :=
  insertIfAbsent key record done

def renew (key : Address) (now : Nanos) : Program Bool :=
  touch key now done

def remove (key : Address) : Program Unit :=
  delete key (done ())

end Program

open Program

/-- Whether the head holds a record in the end: this one, or one that came first. -/
def relocate (head : Address) (record : Record) : Program Bool := do
  if ← insert head record then
    return true
  else
    return (← get head).isSome

/-- The record of a buffer, by head or else by buffer address; one found under the
buffer address is moved under the head. -/
def resolve (skb head : Address) : Program (Option Record) := do
  match ← get head with
  | some record => return some record
  | none =>
    match ← get skb with
    | none => return none
    | some record =>
      if ← relocate head record then
        remove skb
      return some record

/-- The record of a buffer, entered under its head if it has none and is not being freed. -/
def recognize (behavior : Behavior) (o : Observation) : Program Record := do
  match ← resolve o.skb o.head with
  | some record => return record
  | none =>
    if !behavior.frees then
      let _ ← insert o.head (Record.start o.head o.timestamp)
    return Record.start o.head o.timestamp

/-- Drops what a freeing function leaves behind. -/
def forget (behavior : Behavior) (o : Observation) : Program Unit := do
  if behavior.frees then
    remove o.head
    if behavior.invalidatesHead then
      remove o.skb

/-- Follows a buffer through one observation with a usable head. -/
def follow (behavior : Behavior) (o : Observation) : Program Identity := do
  let record ← recognize behavior o
  let _ ← renew o.head o.timestamp
  if behavior.invalidatesHead then
    let _ ← insert o.skb { record with lastSeen := o.timestamp }
  forget behavior o
  return record.identity

/-- Follows a buffer through one observation; without a head nothing is done. -/
def observe (behavior : Behavior) (o : Observation) : Program (Option Identity) :=
  if o.head = 0 then
    return none
  else
    return some (← follow behavior o)

end Lifeline
