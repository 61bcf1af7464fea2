import Lifeline.Identity.Resolve
import Mathlib.Data.Finset.Card

/-! The store read as identities by address, and one observation as one step.

What a buffer is reported as depends on the identities in the store only, so a store is
read through `identityAt`: a touch leaves it alone, a deletion clears one address, and an
insertion fills one address that is free while there is room. `observe_run` says what an
undisturbed observation does in all: it reports the record found by head, else by buffer
address, else a new one, and leaves the store `observed`. -/
namespace Lifeline

theorem BoundedMap.nodup_keys {κ ν : Type} [Ord κ] [Std.TransOrd κ] [Std.LawfulEqOrd κ]
    (m : BoundedMap κ ν) : m.entries.keys.Nodup := by
  have := Std.ExtTreeMap.distinct_keys (t := m.entries)
  simpa [List.Nodup, Std.LawfulEqOrd.compare_eq_iff_eq] using this

/-- A map has no more entries than there are keys that it may use. -/
theorem BoundedMap.size_le_card {κ ν : Type} [Ord κ] [Std.TransOrd κ] [Std.LawfulEqOrd κ]
    [DecidableEq κ] (m : BoundedMap κ ν) {keys : Finset κ}
    (h : ∀ key, m.get? key ≠ none → key ∈ keys) : m.size ≤ keys.card := by
  have hkeys : m.entries.keys.toFinset ⊆ keys := by
    intro key hkey
    rw [List.mem_toFinset, Std.ExtTreeMap.mem_keys] at hkey
    apply h key
    rw [ne_eq, get?]
    simpa using hkey
  have hsize : m.size = m.entries.keys.toFinset.card := by
    rw [List.toFinset_card_of_nodup m.nodup_keys, Std.ExtTreeMap.length_keys]
    rfl
  rw [hsize]
  exact Finset.card_le_card hkeys

namespace Record

/-- The record, last seen now. -/
def renewed (r : Record) (now : Nanos) : Record :=
  { r with lastSeen := now }

@[simp] theorem identity_renewed (r : Record) (now : Nanos) :
    (r.renewed now).identity = r.identity := rfl

end Record

namespace Store

/-- Room for one more record. -/
def HasRoom (s : Store) : Prop :=
  s.size < s.capacity

instance (s : Store) : Decidable s.HasRoom :=
  inferInstanceAs (Decidable (_ < _))

/-- Whose record an address holds. -/
def identityAt (s : Store) (key : Address) : Option Identity :=
  (s.lookup key).map Record.identity

/-! ### The operations -/

@[simp] theorem identityAt_eq_none_iff {s : Store} {key : Address} :
    s.identityAt key = none ↔ s.lookup key = none := by
  simp [identityAt]

theorem identityAt_of_lookup {s : Store} {key : Address} {r : Record} (h : s.lookup key = some r) :
    s.identityAt key = some r.identity := by
  simp [identityAt, h]

theorem lookup_of_identityAt {s : Store} {key : Address} {i : Identity}
    (h : s.identityAt key = some i) : ∃ r, s.lookup key = some r ∧ r.identity = i := by
  simpa [identityAt] using h

@[simp] theorem lookup_empty (capacity : Nat) (key : Address) :
    lookup (BoundedMap.empty capacity) key = none :=
  BoundedMap.get?_empty capacity key

theorem insertIfAbsent_fst (s : Store) (key : Address) (r : Record) :
    (s.insertIfAbsent key r).1 = true ↔ s.lookup key = none ∧ s.HasRoom := by
  have hrefused := BoundedMap.insertNew?_eq_none_iff s key r
  unfold insertIfAbsent lookup HasRoom
  cases h : s.insertNew? key r with
  | none =>
    rw [h] at hrefused
    have := hrefused.mp rfl
    grind
  | some s' =>
    rw [h] at hrefused
    simp only [reduceCtorEq, false_iff, not_or] at hrefused
    have hsize := Nat.lt_of_not_le hrefused.2
    simp [hsize, Option.eq_none_iff_forall_ne_some, Option.isSome_iff_exists] at hrefused ⊢
    exact hrefused

theorem insertIfAbsent_refused {s : Store} {key : Address} {r : Record}
    (h : ¬(s.lookup key = none ∧ s.HasRoom)) : s.insertIfAbsent key r = (false, s) := by
  rw [← insertIfAbsent_fst s key r] at h
  unfold insertIfAbsent at h ⊢
  split
  · rename_i heq
    simp [heq] at h
  · rfl

theorem lookup_insertIfAbsent (s : Store) (key : Address) (r : Record) (k : Address) :
    (s.insertIfAbsent key r).2.lookup k =
      if (s.lookup key = none ∧ s.HasRoom) ∧ key = k then some r else s.lookup k := by
  by_cases h : s.lookup key = none ∧ s.HasRoom
  · have hfst := (insertIfAbsent_fst s key r).mpr h
    unfold insertIfAbsent at hfst ⊢
    cases hnew : s.insertNew? key r with
    | none => simp [hnew] at hfst
    | some s' =>
      show s'.get? k = _
      rw [BoundedMap.get?_insertNew? hnew]
      simp only [h.1, h.2, and_self, true_and]
      rfl
  · rw [insertIfAbsent_refused h]
    simp [h]

@[simp] theorem capacity_insertIfAbsent (s : Store) (key : Address) (r : Record) :
    (s.insertIfAbsent key r).2.capacity = s.capacity := by
  unfold insertIfAbsent
  split
  · rename_i h
    exact BoundedMap.capacity_insertNew? h
  · rfl

theorem size_insertIfAbsent {s : Store} {key : Address} {r : Record} (hfree : s.lookup key = none)
    (hroom : s.HasRoom) : (s.insertIfAbsent key r).2.size = s.size + 1 := by
  have hfst := (insertIfAbsent_fst s key r).mpr ⟨hfree, hroom⟩
  unfold insertIfAbsent at hfst ⊢
  cases hnew : s.insertNew? key r with
  | none => simp [hnew] at hfst
  | some s' => exact BoundedMap.size_insertNew? hnew

theorem lookup_touch (s : Store) (key : Address) (now : Nanos) (k : Address) :
    (s.touch key now).2.lookup k =
      if key = k then (s.lookup k).map (fun r => { r with lastSeen := now }) else s.lookup k := by
  simp only [touch, lookup, BoundedMap.get?_modify]
  split
  · rename_i h
    rw [h]
  · rfl

@[simp] theorem capacity_touch (s : Store) (key : Address) (now : Nanos) :
    (s.touch key now).2.capacity = s.capacity := rfl

@[simp] theorem size_touch (s : Store) (key : Address) (now : Nanos) :
    (s.touch key now).2.size = s.size :=
  BoundedMap.size_modify s key _

theorem lookup_delete (s : Store) (key k : Address) :
    (s.delete key).lookup k = if key = k then none else s.lookup k :=
  BoundedMap.get?_erase s key k

@[simp] theorem capacity_delete (s : Store) (key : Address) :
    (s.delete key).capacity = s.capacity := rfl

theorem size_delete (s : Store) (key : Address) :
    (s.delete key).size = if (s.lookup key).isSome then s.size - 1 else s.size :=
  BoundedMap.size_erase s key

/-! ### The operations, as identities -/

@[simp] theorem identityAt_empty (capacity : Nat) (key : Address) :
    identityAt (BoundedMap.empty capacity) key = none := by
  simp

theorem identityAt_insertIfAbsent (s : Store) (key : Address) (r : Record) (k : Address) :
    (s.insertIfAbsent key r).2.identityAt k =
      if (s.identityAt key = none ∧ s.HasRoom) ∧ key = k then some r.identity
      else s.identityAt k := by
  simp only [identityAt_eq_none_iff]
  rw [identityAt, lookup_insertIfAbsent]
  split <;> rfl

@[simp] theorem identityAt_touch (s : Store) (key : Address) (now : Nanos) (k : Address) :
    (s.touch key now).2.identityAt k = s.identityAt k := by
  rw [identityAt, lookup_touch]
  split
  · rw [identityAt, Option.map_map]
    rfl
  · rfl

@[simp] theorem hasRoom_touch (s : Store) (key : Address) (now : Nanos) :
    (s.touch key now).2.HasRoom ↔ s.HasRoom := by
  simp [HasRoom]

theorem identityAt_delete (s : Store) (key k : Address) :
    (s.delete key).identityAt k = if key = k then none else s.identityAt k := by
  rw [identityAt, lookup_delete]
  split <;> rfl

/-! ### Every record -/

section

variable {P : Record → Prop} {s : Store}

/-- This holds of every record. -/
def Each (P : Record → Prop) (s : Store) : Prop :=
  ∀ key r, s.lookup key = some r → P r

theorem Each.imp {Q : Record → Prop} (h : s.Each P) (hpq : ∀ r, P r → Q r) : s.Each Q :=
  fun key r hr => hpq r (h key r hr)

theorem each_empty (P : Record → Prop) (capacity : Nat) : Each P (BoundedMap.empty capacity) := by
  intro key r h
  rw [lookup_empty] at h
  cases h

theorem Each.insertIfAbsent (h : s.Each P) (key : Address) {r : Record} (hr : P r) :
    (s.insertIfAbsent key r).2.Each P := by
  intro k r' hr'
  rw [lookup_insertIfAbsent] at hr'
  split at hr'
  · cases hr'
    exact hr
  · exact h k r' hr'

theorem Each.touch (h : s.Each P) (key : Address)
    {now : Nanos} (hrenew : ∀ r, P r → P (r.renewed now)) :
    (s.touch key now).2.Each P := by
  intro k r' hr'
  rw [lookup_touch] at hr'
  split at hr'
  · obtain ⟨r, hr, rfl⟩ := Option.map_eq_some_iff.mp hr'
    exact hrenew r (h k r hr)
  · exact h k r' hr'

theorem Each.delete (h : s.Each P) (key : Address) : (s.delete key).Each P := by
  intro k r hr
  rw [lookup_delete] at hr
  split at hr
  · cases hr
  · exact h k r hr

end

/-- Every record is of a known identity. -/
def Knows (known : Identity → Prop) (s : Store) : Prop :=
  ∀ key i, s.identityAt key = some i → known i

section

variable {known : Identity → Prop} {s : Store}

theorem knows_iff_each : s.Knows known ↔ s.Each fun r => known r.identity := by
  constructor
  · intro h key r hr
    exact h key r.identity (identityAt_of_lookup hr)
  · intro h key i hi
    obtain ⟨r, hr, rfl⟩ := lookup_of_identityAt hi
    exact h key r hr

theorem Knows.insertIfAbsent (h : s.Knows known) (key : Address) {record : Record}
    (hrecord : known record.identity) : (s.insertIfAbsent key record).2.Knows known :=
  knows_iff_each.mpr ((knows_iff_each.mp h).insertIfAbsent key hrecord)

theorem Knows.touch (h : s.Knows known) (key : Address) (now : Nanos) :
    (s.touch key now).2.Knows known :=
  knows_iff_each.mpr ((knows_iff_each.mp h).touch key fun _ hr => hr)

theorem Knows.delete (h : s.Knows known) (key : Address) : (s.delete key).Knows known :=
  knows_iff_each.mpr ((knows_iff_each.mp h).delete key)

end

/-! ### Stores that use few addresses -/

/-- Every record lies under one of these addresses. -/
def Within (s : Store) (addresses : Finset Address) : Prop :=
  ∀ key, s.identityAt key ≠ none → key ∈ addresses

theorem within_empty (capacity : Nat) (addresses : Finset Address) :
    Within (BoundedMap.empty capacity) addresses := by
  intro key h
  simp at h

/-- A store with more room than addresses in use is never full. -/
theorem Within.hasRoom {s : Store} {addresses : Finset Address} (h : s.Within addresses)
    (hcard : addresses.card < s.capacity) : s.HasRoom := by
  have hsize : s.size ≤ addresses.card := s.size_le_card fun key hkey =>
    h key fun hnone => hkey (identityAt_eq_none_iff.mp hnone)
  unfold HasRoom
  omega

end Store

/-! ### One observation -/

namespace Store

/-- The record that an observation finds: under the head, else under the buffer's address. -/
def found (s : Store) (o : Observation) : Option Record :=
  (s.lookup o.head).or (s.lookup o.skb)

/-- The record that an observation goes on with: the one it finds, else a new one. -/
def recordOf (s : Store) (o : Observation) : Record :=
  (s.found o).getD (Record.start o.head o.timestamp)

/-- The store once the record is resolved: moved under the head, or entered there. -/
def recognized (s : Store) (behavior : Behavior) (o : Observation) : Store :=
  match s.lookup o.head, s.lookup o.skb with
  | some _, _ => s
  | none, some r => if s.HasRoom then (s.insertIfAbsent o.head r).2.delete o.skb else s
  | none, none =>
    if behavior.frees then s
    else (s.insertIfAbsent o.head (Record.start o.head o.timestamp)).2

/-- The store once the head is renewed, and also tracked by buffer address if the head is
about to be replaced. -/
def doubled (s : Store) (behavior : Behavior) (o : Observation) (r : Record) : Store :=
  if behavior.invalidatesHead then
    ((s.touch o.head o.timestamp).2.insertIfAbsent o.skb { r with lastSeen := o.timestamp }).2
  else (s.touch o.head o.timestamp).2

/-- The store once a freed buffer is dropped. -/
def forgotten (s : Store) (behavior : Behavior) (o : Observation) : Store :=
  if behavior.frees then
    if behavior.invalidatesHead then (s.delete o.head).delete o.skb else s.delete o.head
  else s

/-- The store after an observation with a usable head. -/
def observed (s : Store) (behavior : Behavior) (o : Observation) : Store :=
  ((s.recognized behavior o).doubled behavior o (s.recordOf o)).forgotten behavior o

end Store

namespace Program

variable {α : Type}

@[simp] theorem run_pure (a : α) (s : Store) : (pure a : Program α).run s = (a, s) := rfl

@[simp] theorem run_get (key : Address) (s : Store) : (get key).run s = (s.lookup key, s) := rfl

@[simp] theorem run_insert (key : Address) (r : Record) (s : Store) :
    (insert key r).run s = s.insertIfAbsent key r := rfl

@[simp] theorem run_renew (key : Address) (now : Nanos) (s : Store) :
    (renew key now).run s = s.touch key now := rfl

@[simp] theorem run_remove (key : Address) (s : Store) :
    (remove key).run s = ((), s.delete key) := rfl

end Program

open Program

theorem relocate_run (s : Store) (head : Address) (r : Record) (h : s.lookup head = none) :
    (relocate head r).run s = (decide s.HasRoom, (s.insertIfAbsent head r).2) := by
  have hfst := Store.insertIfAbsent_fst s head r
  rw [relocate, run_bind, run_insert]
  by_cases hroom : s.HasRoom
  · rw [if_pos (hfst.mpr ⟨h, hroom⟩), run_pure, decide_eq_true hroom]
  · have hrefused : s.insertIfAbsent head r = (false, s) :=
      Store.insertIfAbsent_refused fun hin => hroom hin.2
    rw [hrefused, if_neg Bool.false_ne_true, run_bind, run_get, run_pure, h,
      decide_eq_false hroom]
    rfl

theorem recognize_run (s : Store) (behavior : Behavior) (o : Observation) :
    (recognize behavior o).run s = (s.recordOf o, s.recognized behavior o) := by
  rw [recognize, resolve, run_bind, run_bind, run_get]
  cases hhead : s.lookup o.head with
  | some r => simp [Store.recordOf, Store.found, Store.recognized, hhead]
  | none =>
    simp only
    rw [run_bind, run_get]
    cases hskb : s.lookup o.skb with
    | none =>
      cases hfrees : behavior.frees <;>
        simp [Store.recordOf, Store.found, Store.recognized, hhead, hskb, hfrees, run_bind]
    | some r =>
      simp only
      rw [run_bind, relocate_run s o.head r hhead]
      by_cases hroom : s.HasRoom
      · simp [Store.recordOf, Store.found, Store.recognized, hhead, hskb, hroom, run_bind]
      · rw [Store.insertIfAbsent_refused (fun hin => hroom hin.2)]
        simp [Store.recordOf, Store.found, Store.recognized, hhead, hskb, hroom]

theorem forget_run (s : Store) (behavior : Behavior) (o : Observation) :
    (forget behavior o).run s = ((), s.forgotten behavior o) := by
  cases hfrees : behavior.frees <;> cases hinv : behavior.invalidatesHead <;>
    simp [forget, Store.forgotten, hfrees, hinv, run_bind]

/-- What an undisturbed observation reports, and what it leaves. -/
theorem observe_run (s : Store) (behavior : Behavior) (o : Observation) (h : o.head ≠ 0) :
    (observe behavior o).run s = (some (s.recordOf o).identity, s.observed behavior o) := by
  rw [observe, if_neg h, run_bind, follow, run_bind, recognize_run, run_bind, run_renew]
  cases hinv : behavior.invalidatesHead <;>
    simp [Store.observed, Store.doubled, hinv, run_bind, forget_run]

theorem observe_run_of_no_head (s : Store) (behavior : Behavior) (o : Observation)
    (h : o.head = 0) : (observe behavior o).run s = (none, s) := by
  rw [observe, if_pos h, run_pure]

/-! ### One observation, as identities -/

namespace Store

variable {s : Store} {behavior : Behavior} {o : Observation}

theorem identity_recordOf (s : Store) (o : Observation) :
    (s.recordOf o).identity =
      ((s.identityAt o.head).or (s.identityAt o.skb)).getD ⟨o.head, o.timestamp⟩ := by
  unfold recordOf found identityAt
  cases s.lookup o.head <;> cases s.lookup o.skb <;> rfl

theorem recognized_of_hit (behavior : Behavior) {r : Record} (h : s.lookup o.head = some r) :
    s.recognized behavior o = s := by
  simp [recognized, h]

theorem recognized_of_moved (behavior : Behavior) {r : Record} (hhead : s.lookup o.head = none)
    (hskb : s.lookup o.skb = some r) :
    s.recognized behavior o =
      if s.HasRoom then (s.insertIfAbsent o.head r).2.delete o.skb else s := by
  simp [recognized, hhead, hskb]

/-- A move takes one record in and one out. -/
theorem size_moved {r : Record} (hhead : s.lookup o.head = none) (hskb : s.lookup o.skb ≠ none)
    (hroom : s.HasRoom) : ((s.insertIfAbsent o.head r).2.delete o.skb).size = s.size := by
  have hne : o.head ≠ o.skb := fun heq => hskb (heq ▸ hhead)
  have hheld : ((s.insertIfAbsent o.head r).2.lookup o.skb).isSome = true := by
    rw [lookup_insertIfAbsent, if_neg (fun h => hne h.2)]
    exact Option.isSome_iff_ne_none.mpr hskb
  rw [size_delete, if_pos hheld, size_insertIfAbsent hhead hroom]
  omega

theorem recognized_of_new (behavior : Behavior) (hhead : s.lookup o.head = none)
    (hskb : s.lookup o.skb = none) :
    s.recognized behavior o =
      if behavior.frees then s
      else (s.insertIfAbsent o.head (Record.start o.head o.timestamp)).2 := by
  simp [recognized, hhead, hskb]

theorem identityAt_recognized_of_ne (s : Store) (behavior : Behavior) {k : Address}
    (hhead : k ≠ o.head) (hskb : k ≠ o.skb) :
    (s.recognized behavior o).identityAt k = s.identityAt k := by
  have hinsert (r : Record) : (s.insertIfAbsent o.head r).2.identityAt k = s.identityAt k := by
    rw [identityAt_insertIfAbsent, if_neg (fun h => hhead h.2.symm)]
  unfold recognized
  split
  · rfl
  · split
    · rw [identityAt_delete, if_neg hskb.symm, hinsert]
    · rfl
  · split
    · rfl
    · exact hinsert _

@[simp] theorem capacity_recognized (s : Store) (behavior : Behavior) (o : Observation) :
    (s.recognized behavior o).capacity = s.capacity := by
  unfold recognized
  split
  · rfl
  · split <;> simp
  · split <;> simp

theorem Within.recognized {addresses : Finset Address} (h : s.Within addresses)
    (hhead : o.head ∈ addresses) (hskb : o.skb ∈ addresses) :
    (s.recognized behavior o).Within addresses := by
  intro key hkey
  by_cases hkh : key = o.head
  · exact hkh ▸ hhead
  · by_cases hks : key = o.skb
    · exact hks ▸ hskb
    · rw [identityAt_recognized_of_ne s behavior hkh hks] at hkey
      exact h key hkey

/-- With room, the head ends up with a record, unless it is a freed buffer's first. -/
theorem identityAt_recognized_head (hne : o.skb ≠ o.head) (hroom : s.HasRoom)
    (hkept : behavior.frees = false ∨ s.found o ≠ none) :
    (s.recognized behavior o).identityAt o.head = some (s.recordOf o).identity := by
  cases hhead : s.lookup o.head with
  | some r =>
    rw [recognized_of_hit behavior hhead, identityAt_of_lookup hhead]
    simp [recordOf, found, hhead]
  | none =>
    have hfree := identityAt_eq_none_iff.mpr hhead
    cases hskb : s.lookup o.skb with
    | some r =>
      rw [recognized_of_moved behavior hhead hskb, if_pos hroom, identityAt_delete, if_neg hne,
        identityAt_insertIfAbsent, if_pos ⟨⟨hfree, hroom⟩, rfl⟩]
      simp [recordOf, found, hhead, hskb]
    | none =>
      have hfound : s.found o = none := by simp [found, hhead, hskb]
      have hfrees : behavior.frees = false := by
        rcases hkept with h | h
        · exact h
        · exact absurd hfound h
      rw [recognized_of_new behavior hhead hskb, hfrees, if_neg Bool.false_ne_true,
        identityAt_insertIfAbsent, if_pos ⟨⟨hfree, hroom⟩, rfl⟩]
      simp [recordOf, hfound]

/-- With room, the buffer's address keeps its record only where the head had one already. -/
theorem identityAt_recognized_skb (hne : o.skb ≠ o.head) (hroom : s.HasRoom) :
    (s.recognized behavior o).identityAt o.skb =
      if s.identityAt o.head = none then none else s.identityAt o.skb := by
  cases hhead : s.lookup o.head with
  | some r =>
    rw [recognized_of_hit behavior hhead, identityAt_of_lookup hhead,
      if_neg (Option.some_ne_none _)]
  | none =>
    rw [if_pos (identityAt_eq_none_iff.mpr hhead)]
    cases hskb : s.lookup o.skb with
    | some r =>
      rw [recognized_of_moved behavior hhead hskb, if_pos hroom, identityAt_delete, if_pos rfl]
    | none =>
      have hfree := identityAt_eq_none_iff.mpr hskb
      rw [recognized_of_new behavior hhead hskb]
      split
      · exact hfree
      · rw [identityAt_insertIfAbsent, if_neg (fun h => hne h.2.symm), hfree]

theorem identityAt_doubled (s : Store) (behavior : Behavior) (o : Observation) (r : Record)
    (k : Address) :
    (s.doubled behavior o r).identityAt k =
      if behavior.invalidatesHead = true ∧ (s.identityAt o.skb = none ∧ s.HasRoom) ∧ o.skb = k
      then some r.identity else s.identityAt k := by
  unfold doubled
  cases behavior.invalidatesHead
  · simp
  · simp only [if_true, identityAt_insertIfAbsent, identityAt_touch, hasRoom_touch, true_and]
    rfl

theorem identityAt_forgotten (s : Store) (behavior : Behavior) (o : Observation) (k : Address) :
    (s.forgotten behavior o).identityAt k =
      if behavior.frees = true ∧ (o.head = k ∨ behavior.invalidatesHead = true ∧ o.skb = k)
      then none else s.identityAt k := by
  unfold forgotten
  cases hfrees : behavior.frees
  · simp
  · cases hinv : behavior.invalidatesHead
    · simp [identityAt_delete]
    · simp only [if_true, identityAt_delete]
      grind

/-- An observation changes nothing at other addresses. -/
theorem identityAt_observed_of_ne (s : Store) (behavior : Behavior) {k : Address}
    (hhead : k ≠ o.head) (hskb : k ≠ o.skb) :
    (s.observed behavior o).identityAt k = s.identityAt k := by
  rw [observed, identityAt_forgotten, if_neg (by grind), identityAt_doubled, if_neg (by grind),
    identityAt_recognized_of_ne s behavior hhead hskb]

@[simp] theorem capacity_observed (s : Store) (behavior : Behavior) (o : Observation) :
    (s.observed behavior o).capacity = s.capacity := by
  rw [observed, forgotten, doubled]
  split <;> split <;> simp_all

theorem Within.observed {addresses : Finset Address} (h : s.Within addresses)
    (hhead : o.head ∈ addresses) (hskb : o.skb ∈ addresses) :
    (s.observed behavior o).Within addresses := by
  intro key hkey
  by_cases hkh : key = o.head
  · exact hkh ▸ hhead
  · by_cases hks : key = o.skb
    · exact hks ▸ hskb
    · rw [identityAt_observed_of_ne s behavior hkh hks] at hkey
      exact h key hkey

/-- With room, the head holds the reported identity afterwards, unless the buffer was freed. -/
theorem identityAt_observed_head (hne : o.skb ≠ o.head) (hroom : s.HasRoom) :
    (s.observed behavior o).identityAt o.head =
      if behavior.frees = true then none else some (s.recordOf o).identity := by
  rw [observed, identityAt_forgotten]
  by_cases hfrees : behavior.frees = true
  · rw [if_pos ⟨hfrees, .inl rfl⟩, if_pos hfrees]
  · rw [if_neg (fun h => hfrees h.1), if_neg hfrees, identityAt_doubled,
      if_neg (fun h => hne h.2.2)]
    exact identityAt_recognized_head hne hroom (.inl (by simpa using hfrees))

/-- With room, what the buffer's address holds afterwards. -/
theorem identityAt_observed_skb (hne : o.skb ≠ o.head) (hroom : s.HasRoom)
    (hroom' : (s.recognized behavior o).HasRoom) :
    (s.observed behavior o).identityAt o.skb =
      if behavior.invalidatesHead = true then
        if behavior.frees = true then none
        else (if s.identityAt o.head = none then none else s.identityAt o.skb).or
          (some (s.recordOf o).identity)
      else if s.identityAt o.head = none then none else s.identityAt o.skb := by
  rw [observed, identityAt_forgotten, identityAt_doubled, identityAt_recognized_skb hne hroom]
  cases behavior.invalidatesHead
  · simp [hne.symm]
  · cases behavior.frees
    · simp only [hroom', Bool.false_eq_true, false_and, if_false, if_true, and_true, true_and]
      cases (if s.identityAt o.head = none then none else s.identityAt o.skb) <;> simp
    · simp

end Store

end Lifeline
