import Lifeline.Proofs.Identity.Isolation
import Lifeline.Proofs.Identity.LastSeen

/-! What one firing may do to the store.

Two promises pull in opposite directions: a buffer that is freed leaves nothing behind, and one
that is not freed is never lost, although a full store refuses what it is given. A full store
decides only where the head has no record, and then it stays as it was
(`Store.observed_of_refused`), so that a record under the buffer's address is still there.

`firing_effect` says all that an undisturbed firing may do. -/
namespace Lifeline

/-- An undisturbed firing changes nothing at other addresses. -/
theorem Firing.lookup_run_of_ne (f : Firing) (s : Store) {key : Address} (hhead : key ≠ f.head)
    (hskb : key ≠ f.skb) : (f.program.run s).2.lookup key = s.lookup key := by
  have hkey : key ∉ f.addresses := by
    unfold Firing.addresses
    split <;> simp [hskb, hhead]
  have hsame := f.uses_addresses.restrict_run_of_disjoint (s := s)
    (Finset.disjoint_singleton_right.mpr hkey)
  exact (Store.restrict_eq_iff (Program.capacity_run f.program s) {key}).mp hsame key
    (Finset.mem_singleton_self key)

namespace Store

variable {s : Store} {behavior : Behavior} {o : Observation}

/-! ### A freed buffer -/

theorem lookup_observed_of_frees (hfrees : behavior.frees = true) {key : Address}
    (hkey : o.head = key ∨ behavior.invalidatesHead = true ∧ o.skb = key) :
    (s.observed behavior o).lookup key = none := by
  rw [← identityAt_eq_none_iff, observed, identityAt_forgotten, if_pos ⟨hfrees, hkey⟩]

/-! ### A buffer that goes on -/

/-- The record that was found stays under one of the two addresses, with room or without. -/
theorem identityAt_observed_of_found (hfrees : behavior.frees = false) {r : Record}
    (h : s.found o = some r) :
    (s.observed behavior o).identityAt o.head = some r.identity ∨
      (s.observed behavior o).identityAt o.skb = some r.identity := by
  by_cases hheld : s.lookup o.head ≠ none ∨ s.HasRoom
  · left
    rw [identityAt_of_lookup (lookup_observed_head hfrees hheld), Record.identity_renewed, recordOf,
      h, Option.getD_some]
  · -- refused under the head, it was found under the buffer's address and is still there
    right
    obtain ⟨hhead, hfull⟩ := not_or.mp hheld
    have hhead : s.lookup o.head = none := not_not.mp hhead
    rw [found, hhead, Option.none_or] at h
    rw [observed_of_refused hfrees hhead hfull, identityAt_of_lookup h]

/-- A buffer that is not known is entered under its head if there is room. -/
theorem lookup_observed_of_new (hfrees : behavior.frees = false) (hhead : s.lookup o.head = none)
    (hskb : s.lookup o.skb = none) :
    (s.observed behavior o).lookup o.head =
      if s.HasRoom then some (Record.start o.head o.timestamp) else none := by
  split
  · rename_i hroom
    rw [lookup_observed_head hfrees (.inr hroom), recordOf, found, hhead, hskb]
    rfl
  · rename_i hfull
    rw [observed_of_refused hfrees hhead hfull, hhead]

/-- Only a new buffer takes room, unless it is about to be tracked twice. -/
theorem size_observed_of_plain (hfrees : behavior.frees = false)
    (hinvalidates : behavior.invalidatesHead = false) :
    (s.observed behavior o).size =
      if s.lookup o.head = none ∧ s.lookup o.skb = none ∧ s.HasRoom then s.size + 1
      else s.size := by
  have hsize : (s.observed behavior o).size = (s.recognized behavior o).size := by
    simp [observed, doubled, forgotten, hfrees, hinvalidates]
  rw [hsize]
  cases hhead : s.lookup o.head with
  | some r => rw [recognized_of_hit behavior hhead, if_neg (by simp)]
  | none =>
    cases hskb : s.lookup o.skb with
    | some r =>
      rw [recognized_of_moved behavior hhead hskb]
      by_cases hroom : s.HasRoom
      · rw [if_pos hroom, if_neg (by simp)]
        exact size_moved hhead (by simp [hskb]) hroom
      · rw [if_neg hroom, if_neg (by simp)]
    | none =>
      rw [recognized_of_new behavior hhead hskb, hfrees, if_neg Bool.false_ne_true]
      by_cases hroom : s.HasRoom
      · rw [if_pos ⟨rfl, rfl, hroom⟩, size_insertIfAbsent hhead hroom]
      · rw [if_neg (fun h => hroom h.2.2), insertIfAbsent_refused (fun h => hroom h.2)]

end Store

/-- **A firing leaves a freed buffer nowhere, and loses no other.** It touches no other address. A
record that it finds, by head or else by buffer address, is the one that it reports, and unless the
buffer is freed that identity stays under one of the two, even in a full store; a buffer that is
not known is entered under its head if and only if there is room, and without room nothing changes.
A function without flags adds an entry in that case only. -/
theorem firing_effect (s : Store) (f : Firing) (h : f.head ≠ 0) :
    let after := (f.program.run s).2
    (∀ key, key ≠ f.head → key ≠ f.skb → after.lookup key = s.lookup key) ∧
      (f.frees = true →
        after.lookup f.head = none ∧ (f.invalidates = true → after.lookup f.skb = none)) ∧
      (∀ r, s.found f.observation = some r →
        (f.program.run s).1 = f.report (some r.identity) ∧
          (f.frees = false →
            after.identityAt f.head = some r.identity ∨
              after.identityAt f.skb = some r.identity)) ∧
      (f.frees = false → s.lookup f.head = none → s.lookup f.skb = none →
        (after.lookup f.head = some (Record.start f.head f.timestamp) ↔ s.HasRoom) ∧
          (¬s.HasRoom → after = s)) ∧
      (f.frees = false → f.invalidates = false →
        after.size ≤ s.size + 1 ∧
          (s.size < after.size →
            s.lookup f.head = none ∧ s.lookup f.skb = none ∧ s.HasRoom)) := by
  intro after
  have hafter : after = s.observed f.behavior f.observation := f.store_run s h
  refine ⟨fun key => f.lookup_run_of_ne s, fun hfrees => ?_, fun r hr => ⟨?_, fun hfrees => ?_⟩,
    fun hfrees hhead hskb => ⟨?_, fun hfull => ?_⟩, fun hfrees hinvalidates => ?_⟩
  · rw [hafter]
    exact ⟨Store.lookup_observed_of_frees hfrees (.inl rfl),
      fun hinvalidates => Store.lookup_observed_of_frees hfrees (.inr ⟨hinvalidates, rfl⟩)⟩
  · rw [f.program_run, f.identify_run s h, Store.recordOf, hr, Option.getD_some]
  · rw [hafter]
    exact Store.identityAt_observed_of_found hfrees hr
  · rw [hafter, Store.lookup_observed_of_new hfrees hhead hskb]
    simp
  · rw [hafter, Store.observed_of_refused hfrees hhead hfull]
  · rw [hafter, Store.size_observed_of_plain hfrees hinvalidates]
    split
    · rename_i hnew
      exact ⟨Nat.le_refl _, fun _ => hnew⟩
    · exact ⟨Nat.le_succ _, fun hlt => absurd hlt (Nat.lt_irrefl _)⟩

/-- A function that replaces heads, in a full store that has the buffer under its address. -/
def cramped : Store :=
  (Store.insertIfAbsent (.empty 1) 0x1000 (Record.start 0x11 100)).2

theorem cramped_kept :
    let f := Firing.bare ⟨0, 1⟩ 200 0x1000 0x22
    f.head ≠ 0 ∧ ¬cramped.HasRoom ∧
      (f.program.run cramped).1 = f.report (some ⟨0x11, 100⟩) ∧
      ((f.program.run cramped).2.identityAt 0x22 = some ⟨0x11, 100⟩ ∨
        (f.program.run cramped).2.identityAt 0x1000 = some ⟨0x11, 100⟩) := by
  intro f
  have hhead : f.head ≠ 0 := by decide
  have hfound : cramped.found f.observation = some (Record.start 0x11 100) := by decide +kernel
  obtain ⟨-, -, hresolved, -⟩ := firing_effect cramped f hhead
  obtain ⟨hreport, hkept⟩ := hresolved _ hfound
  exact ⟨hhead, by decide +kernel, hreport, hkept rfl⟩

end Lifeline
