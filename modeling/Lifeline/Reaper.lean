import Lifeline.Identity.Store
import Lifeline.Log

/-! The reaper: records not seen for a while are removed.

A sweep looks at a snapshot of the store, then removes the stale entries one by one in
the order of the snapshot. Either part can fail; a sweep that fails keeps the removals
made so far and counts none of them (`sweep`). `Custody` is what a sweep needs of the
place where the records are kept, so that one sweep serves the plain store and the
maps of a kernel. -/
namespace Lifeline.Reaper

/-- A place whose entries can be listed and removed; both may fail, and both may change it. -/
structure Custody (σ ε : Type) where
  entries : σ → Except ε (List (Address × Record)) × σ
  remove : Address → σ → Except ε Unit × σ

/-- Keys of the entries last seen more than `maxAge` before `now`, in order. -/
def stale (now maxAge : Nanos) (entries : List (Address × Record)) : List Address :=
  (entries.filter fun e => maxAge < e.2.age now).map (·.1)

variable {σ ε : Type}

/-- Removes keys in order, up to the first failure. -/
def removeAll (custody : Custody σ ε) : List Address → σ → Except ε Unit × σ
  | [], s => (.ok (), s)
  | key :: rest, s =>
    match custody.remove key s with
    | (.ok (), s') => removeAll custody rest s'
    | (.error e, s') => (.error e, s')

/-- Removes the stale entries and tells how many there were. -/
def sweep (custody : Custody σ ε) (now maxAge : Nanos) (s : σ) : Except ε Nat × σ :=
  match custody.entries s with
  | (.error e, s') => (.error e, s')
  | (.ok entries, s') =>
    match removeAll custody (stale now maxAge entries) s' with
    | (.ok (), s'') => (.ok (stale now maxAge entries).length, s'')
    | (.error e, s'') => (.error e, s'')

/-! ### The plain store -/

/-- Failures to expect of a plain store: its snapshot, and the removal of some keys. -/
structure Failing where
  snapshot : Bool
  removal : Address → Bool

def Failing.never : Failing := ⟨false, fun _ => false⟩

/-- Why a sweep of a plain store stopped. -/
inductive SweepError where
  | entries
  | remove
  deriving DecidableEq, Repr

def SweepError.message : SweepError → String
  | entries => "entries failed"
  | remove => "remove failed"

/-- The store itself, with the given failures. -/
def ofStore (failing : Failing) : Custody Store SweepError where
  entries s := (if failing.snapshot then .error .entries else .ok s.toList, s)
  remove key s := if failing.removal key then (.error .remove, s) else (.ok (), s.delete key)

/-! ### The periodic task -/

/-- The settings of the periodic task. -/
structure Settings where
  intervalSeconds : Nat
  maxAge : Nanos

/-- Told when the task starts. -/
def Settings.announcement (s : Settings) : String :=
  "Reaping tracking entries older than " ++ toString (s.maxAge / 1000000000).toNat ++
    "s every " ++ toString s.intervalSeconds ++ "s"

/-- What is worth telling of a sweep: its failure, or how much it removed if it removed any. -/
inductive Remark (ε : Type) where
  | failed (reason : ε)
  | reaped (count : Nat)

def Remark.line (oneLine : ε → String) : Remark ε → LogLine
  | .failed reason => .warn ("Tracking map sweep failed: " ++ oneLine reason)
  | .reaped count => .debug s!"Reaped {count} stale tracking entries"

/-- One tick: a sweep, with the number it removed added to the running count. A sweep
that fails adds nothing. -/
def tick (custody : Custody σ ε) (now maxAge : Nanos) (reaped : Nat) (s : σ) :
    Nat × Option (Remark ε) × σ :=
  match sweep custody now maxAge s with
  | (.ok 0, s') => (reaped, none, s')
  | (.ok n, s') => (reaped + n, some (.reaped n), s')
  | (.error e, s') => (reaped, some (.failed e), s')

/-- Ticks one after another on a clock that stands still: what is said, the running count,
and what is left. -/
def ticks (custody : Custody σ ε) (oneLine : ε → String) (now maxAge : Nanos) :
    (count : Nat) → (reaped : Nat) → σ → List LogLine × Nat × σ
  | 0, reaped, s => ([], reaped, s)
  | count + 1, reaped, s =>
    let (reaped, remark, s) := tick custody now maxAge reaped s
    let (later, reaped, s) := ticks custody oneLine now maxAge count reaped s
    ((remark.map (Remark.line oneLine)).toList ++ later, reaped, s)

end Lifeline.Reaper
