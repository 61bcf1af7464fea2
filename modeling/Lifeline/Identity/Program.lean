import Lifeline.Identity.Store

/-! What a probe does to the store: a sequence of atomic operations.

A `Program` is the next operation and what follows each of its answers, so that one
text of the algorithm serves every way of running it: alone (`run`), with acts of
other cores between its operations (`runAmong`), or as one of many cores that take
turns. -/
namespace Lifeline

/-- Atomic store operations one after another, ending in a result. -/
inductive Program (α : Type) where
  | done (result : α)
  | lookup (key : Address) (next : Option Record → Program α)
  | insertIfAbsent (key : Address) (record : Record) (next : Bool → Program α)
  | touch (key : Address) (now : Nanos) (next : Bool → Program α)
  | delete (key : Address) (next : Program α)

namespace Program

variable {α β : Type}

/-- One program after another. -/
def andThen : Program α → (α → Program β) → Program β
  | done result, k => k result
  | lookup key next, k => lookup key fun answer => (next answer).andThen k
  | insertIfAbsent key record next, k =>
    insertIfAbsent key record fun answer => (next answer).andThen k
  | touch key now next, k => touch key now fun answer => (next answer).andThen k
  | delete key next, k => delete key (next.andThen k)

instance : Monad Program where
  pure := done
  bind := andThen

/-! ### Alone -/

/-- Runs every operation on one store, with nothing in between. -/
def run : Program α → Store → α × Store
  | done result, s => (result, s)
  | lookup key next, s => (next (s.lookup key)).run s
  | insertIfAbsent key record next, s =>
    (next (s.insertIfAbsent key record).1).run (s.insertIfAbsent key record).2
  | touch key now next, s => (next (s.touch key now).1).run (s.touch key now).2
  | delete key next, s => next.run (s.delete key)

theorem run_bind (p : Program α) (k : α → Program β) (s : Store) :
    (p >>= k).run s = (k (p.run s).1).run (p.run s).2 := by
  show (p.andThen k).run s = _
  induction p generalizing s with
  | done => rfl
  | lookup _ _ ih => exact ih _ _
  | insertIfAbsent _ _ _ ih => exact ih _ _
  | touch _ _ _ ih => exact ih _ _
  | delete _ _ ih => exact ih _

/-! ### Among other cores -/

/-- The operations that change the store. -/
inductive Mutation where
  | insert
  | touch
  | delete
  deriving DecidableEq, Repr

/-- What another core may do in between. -/
inductive Rival where
  | insert (key : Address) (record : Record)
  | delete (key : Address)
  deriving DecidableEq, Repr

def Rival.act : Rival → Store → Store
  | .insert key record, s => (s.insertIfAbsent key record).2
  | .delete key, s => s.delete key

/-- What other cores do right before the `n`th operation of a kind, counted from one. -/
abbrev Schedule := Mutation → Nat → List Rival

/-- How many operations of each kind have been met. -/
abbrev Tally := Mutation → Nat

def Tally.zero : Tally := fun _ => 0

def Tally.next (t : Tally) (kind : Mutation) : Tally :=
  fun k => if k = kind then t k + 1 else t k

/-- The store after the acts that come right before the next operation of a kind. -/
def Schedule.disturb (others : Schedule) (t : Tally) (kind : Mutation) (s : Store) : Store :=
  (others kind (t kind + 1)).foldl (fun s rival => rival.act s) s

/-- Runs a program while other cores act before its changes to the store. -/
def runAmong (others : Schedule) : Tally → Program α → Store → α × Store
  | _, done result, s => (result, s)
  | t, lookup key next, s => (next (s.lookup key)).runAmong others t s
  | t, insertIfAbsent key record next, s =>
    let answer := (others.disturb t .insert s).insertIfAbsent key record
    (next answer.1).runAmong others (t.next .insert) answer.2
  | t, touch key now next, s =>
    let answer := (others.disturb t .touch s).touch key now
    (next answer.1).runAmong others (t.next .touch) answer.2
  | t, delete key next, s =>
    next.runAmong others (t.next .delete) ((others.disturb t .delete s).delete key)

end Program

end Lifeline
