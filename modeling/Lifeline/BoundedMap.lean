import Std.Data.ExtTreeMap

/-! Maps of a fixed capacity, with keys in order.

A map never holds more entries than its capacity (`size_le`, kept by every operation).
A new key is refused once the map is full (`insertNew?`, `put?`); an entry that is
already there can always be changed or removed. Each operation is described through
the view `get?`, and two maps of one capacity with one view are equal (`ext_get?`). -/
namespace Lifeline

/-- At most `capacity` entries, one for a key. -/
structure BoundedMap (κ ν : Type) [Ord κ] [Std.TransOrd κ] where
  capacity : Nat
  entries : Std.ExtTreeMap κ ν compare
  size_le : entries.size ≤ capacity

namespace BoundedMap

variable {κ ν : Type} [Ord κ] [Std.TransOrd κ]

/-- No entries yet. -/
def empty (capacity : Nat) : BoundedMap κ ν where
  capacity := capacity
  entries := ∅
  size_le := by simp

/-- The value at a key. -/
def get? (m : BoundedMap κ ν) (key : κ) : Option ν :=
  m.entries[key]?

/-- How many entries there are. -/
def size (m : BoundedMap κ ν) : Nat :=
  m.entries.size

/-- The entries in the order of their keys. -/
def toList (m : BoundedMap κ ν) : List (κ × ν) :=
  m.entries.toList

/-- Adds an entry at a new key; refused when the key is present or the map is full. -/
def insertNew? (m : BoundedMap κ ν) (key : κ) (value : ν) : Option (BoundedMap κ ν) :=
  if h : m.entries.contains key = false ∧ m.entries.size < m.capacity then
    some
      { m with
        entries := m.entries.insert key value
        size_le := by
          rw [Std.ExtTreeMap.size_insert, h.1]
          exact h.2 }
  else none

/-- Adds or overwrites an entry; refused when the key is new and the map is full. -/
def put? (m : BoundedMap κ ν) (key : κ) (value : ν) : Option (BoundedMap κ ν) :=
  if h : m.entries.contains key = true ∨ m.entries.size < m.capacity then
    some
      { m with
        entries := m.entries.insert key value
        size_le := by
          have := m.size_le
          rw [Std.ExtTreeMap.size_insert]
          split
          · exact this
          · rcases h with h | h
            · contradiction
            · exact h }
  else none

/-- Changes the value at a key, if it is present. -/
def modify (m : BoundedMap κ ν) (key : κ) (change : ν → ν) : BoundedMap κ ν where
  capacity := m.capacity
  entries := m.entries.modify key change
  size_le := by
    rw [Std.ExtTreeMap.size_modify]
    exact m.size_le

/-- Removes the entry at a key, if it is present. -/
def erase (m : BoundedMap κ ν) (key : κ) : BoundedMap κ ν where
  capacity := m.capacity
  entries := m.entries.erase key
  size_le := Nat.le_trans Std.ExtTreeMap.size_erase_le m.size_le

/-! ### What the operations do to the view -/

theorem contains_eq_isSome_get? (m : BoundedMap κ ν) (key : κ) :
    m.entries.contains key = (m.get? key).isSome := by
  simp [get?]

@[simp] theorem get?_empty (capacity : Nat) (key : κ) :
    (empty capacity : BoundedMap κ ν).get? key = none := by
  simp [empty, get?]

theorem insertNew?_eq_none_iff (m : BoundedMap κ ν) (key : κ) (value : ν) :
    m.insertNew? key value = none ↔ (m.get? key).isSome ∨ m.capacity ≤ m.size := by
  unfold insertNew?
  rw [← contains_eq_isSome_get?]
  split <;> rename_i h <;> simp only [reduceCtorEq, false_iff, true_iff, size] <;> grind

theorem put?_eq_none_iff (m : BoundedMap κ ν) (key : κ) (value : ν) :
    m.put? key value = none ↔ m.get? key = none ∧ m.capacity ≤ m.size := by
  unfold put?
  have hget : m.get? key = none ↔ m.entries.contains key = false := by
    rw [contains_eq_isSome_get?, Option.isSome_eq_false_iff, Option.isNone_iff_eq_none]
  rw [hget]
  split <;> rename_i h <;> simp only [reduceCtorEq, false_iff, true_iff, size] <;> grind

@[simp] theorem size_empty (capacity : Nat) : (empty capacity : BoundedMap κ ν).size = 0 := by
  simp [empty, size]

@[simp] theorem capacity_empty (capacity : Nat) :
    (empty capacity : BoundedMap κ ν).capacity = capacity := rfl

theorem capacity_insertNew? {m m' : BoundedMap κ ν} {key : κ} {value : ν}
    (h : m.insertNew? key value = some m') : m'.capacity = m.capacity := by
  unfold insertNew? at h
  split at h
  · cases h
    rfl
  · contradiction

theorem size_insertNew? {m m' : BoundedMap κ ν} {key : κ} {value : ν}
    (h : m.insertNew? key value = some m') : m'.size = m.size + 1 := by
  unfold insertNew? at h
  split at h
  · rename_i hfree
    cases h
    simp [size, Std.ExtTreeMap.size_insert, hfree.1]
  · contradiction

theorem capacity_put? {m m' : BoundedMap κ ν} {key : κ} {value : ν}
    (h : m.put? key value = some m') : m'.capacity = m.capacity := by
  unfold put? at h
  split at h
  · cases h
    rfl
  · contradiction

@[simp] theorem size_modify (m : BoundedMap κ ν) (key : κ) (change : ν → ν) :
    (m.modify key change).size = m.size :=
  Std.ExtTreeMap.size_modify

theorem size_erase (m : BoundedMap κ ν) (key : κ) :
    (m.erase key).size = if (m.get? key).isSome then m.size - 1 else m.size := by
  rw [← contains_eq_isSome_get?]
  simp [size, erase, Std.ExtTreeMap.size_erase, Std.ExtTreeMap.contains_iff_mem]

variable [Std.LawfulEqOrd κ]

theorem get?_insertNew? [DecidableEq κ] {m m' : BoundedMap κ ν} {key : κ} {value : ν}
    (h : m.insertNew? key value = some m') (k : κ) :
    m'.get? k = if key = k then some value else m.get? k := by
  unfold insertNew? at h
  split at h
  · cases h
    simp [get?, Std.ExtTreeMap.getElem?_insert]
  · contradiction

theorem get?_put? [DecidableEq κ] {m m' : BoundedMap κ ν} {key : κ} {value : ν}
    (h : m.put? key value = some m') (k : κ) :
    m'.get? k = if key = k then some value else m.get? k := by
  unfold put? at h
  split at h
  · cases h
    simp [get?, Std.ExtTreeMap.getElem?_insert]
  · contradiction

theorem get?_modify [DecidableEq κ] (m : BoundedMap κ ν) (key : κ) (change : ν → ν) (k : κ) :
    (m.modify key change).get? k = if key = k then (m.get? key).map change else m.get? k := by
  simp [get?, modify, Std.ExtTreeMap.getElem?_modify]

theorem get?_erase [DecidableEq κ] (m : BoundedMap κ ν) (key k : κ) :
    (m.erase key).get? k = if key = k then none else m.get? k := by
  simp [get?, erase, Std.ExtTreeMap.getElem?_erase]

theorem ext_get? {m m' : BoundedMap κ ν} (hcapacity : m.capacity = m'.capacity)
    (hget : ∀ k, m.get? k = m'.get? k) : m = m' := by
  cases m
  cases m'
  cases hcapacity
  congr
  exact Std.ExtTreeMap.ext_getElem? hget

end BoundedMap

end Lifeline
