import Lifeline.BoundedMap
import Lifeline.Identity.Record

/-! The tracked buffers, and the operations on them that are atomic.

A record lies under the head of its buffer, or under the buffer's own address while
its head is being replaced. Each operation acts on one key at once; what a probe does
in all is a sequence of them (`Lifeline.Identity.Program`). An insertion never
overwrites, and fails when the store is full. -/
namespace Lifeline

/-- Records by head, or by buffer address while the head is unknown. -/
abbrev Store := BoundedMap Address Record

namespace Store

def lookup (s : Store) (key : Address) : Option Record :=
  s.get? key

/-- Adds a record at a free key while there is room; tells whether it did. -/
def insertIfAbsent (s : Store) (key : Address) (record : Record) : Bool × Store :=
  match s.insertNew? key record with
  | some s' => (true, s')
  | none => (false, s)

/-- Renews the last sight of an entry in place; tells whether there is one. -/
def touch (s : Store) (key : Address) (now : Nanos) : Bool × Store :=
  ((s.get? key).isSome, s.modify key fun r => { r with lastSeen := now })

def delete (s : Store) (key : Address) : Store :=
  s.erase key

end Store

end Lifeline
