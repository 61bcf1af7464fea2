import Lifeline.Proofs.Kernel.Delivery

/-! The maps that the kernel program works by.

Filling a map overwrites, so of several entries for one key the last one stays
(`BoundedMap.get?_putEach?`). Of several probes at one address the last one says where the
arguments are, and the last of those that have a behavior says what the function does
(`Machine.exists_configure?`). The exit of a call and the drop reason that it sends follow from the
positions of its function alone. -/
namespace Lifeline

/-! ### Filling a map -/

namespace BoundedMap

variable {κ ν α : Type} [Ord κ] [Std.TransOrd κ] {m m' : BoundedMap κ ν}

/-- Puts an entry for each of these in order, unless one of them finds no room. -/
def putEach? (key : α → κ) (value : α → ν) (m : BoundedMap κ ν) (xs : List α) :
    Option (BoundedMap κ ν) :=
  xs.foldlM (fun m x => m.put? (key x) (value x)) m

theorem size_put?_le {k : κ} {v : ν} (h : m.put? k v = some m') : m'.size ≤ m.size + 1 := by
  unfold put? at h
  split at h
  · cases h
    exact Std.ExtTreeMap.size_insert_le
  · contradiction

variable (key : α → κ) (value : α → ν)

/-- Entries that would fit one by one all fit. -/
theorem exists_putEach? {xs : List α} (h : m.size + xs.length ≤ m.capacity) :
    ∃ m', putEach? key value m xs = some m' := by
  induction xs generalizing m with
  | nil => exact ⟨m, rfl⟩
  | cons x rest ih =>
    rw [List.length_cons] at h
    have hroom : m.put? (key x) (value x) ≠ none := fun hnone => by
      have := ((put?_eq_none_iff m (key x) (value x)).mp hnone).2
      omega
    obtain ⟨next, hput⟩ := Option.ne_none_iff_exists'.mp hroom
    -- a key that is there already takes no room, so this is a bound only
    have hnext : next.size + rest.length ≤ next.capacity := by
      have := size_put?_le hput
      rw [capacity_put? hput]
      omega
    obtain ⟨m', hrest⟩ := ih hnext
    exact ⟨m', by rw [putEach?, List.foldlM_cons, hput]; exact hrest⟩

theorem exists_putEach?_empty {xs : List α} {capacity : Nat} (h : xs.length ≤ capacity) :
    ∃ m', putEach? key value (empty capacity : BoundedMap κ ν) xs = some m' :=
  exists_putEach? key value (by rwa [size_empty, Nat.zero_add, capacity_empty])

variable [Std.LawfulEqOrd κ] [DecidableEq κ] {key value}

/-- The last entry that was put for a key stays. -/
theorem get?_putEach? {xs : List α} (h : putEach? key value m xs = some m') (k : κ) :
    m'.get? k = ((xs.reverse.find? (key · == k)).map value).or (m.get? k) := by
  induction xs generalizing m with
  | nil =>
    obtain rfl : m = m' := Option.some.inj h
    rfl
  | cons x rest ih =>
    rw [putEach?, List.foldlM_cons] at h
    obtain ⟨next, hput, hrest⟩ := Option.bind_eq_some_iff.mp h
    rw [ih hrest, get?_put? hput, List.reverse_cons, List.find?_append, Option.map_or,
      Option.or_assoc]
    by_cases hkey : key x = k <;> simp [hkey]

end BoundedMap

/-! ### Telling the program of its probes -/

namespace Probe

/-- The last of the probes at an address. -/
def lastAt? (probes : List Resolved) (address : Address) : Option Resolved :=
  probes.reverse.find? (·.address == address)

/-- No later one of the probes is at the address of this one. -/
def IsLast (probes : List Resolved) (p : Resolved) : Prop :=
  ∃ before after, probes = before ++ p :: after ∧ ∀ q ∈ after, q.address ≠ p.address

theorem lastAt?_eq_some_iff {probes : List Resolved} {address : Address} {p : Resolved} :
    lastAt? probes address = some p ↔ p.address = address ∧ IsLast probes p := by
  rw [lastAt?, List.find?_eq_some_iff_append]
  constructor
  · rintro ⟨haddress, after, before, hsplit, hafter⟩
    have haddress : p.address = address := by simpa using haddress
    refine ⟨haddress, before.reverse, after.reverse, ?_, fun q hq => ?_⟩
    · rw [← List.reverse_reverse probes, hsplit]
      simp
    · have := hafter q (List.mem_reverse.mp hq)
      rw [haddress]
      simpa using this
  · rintro ⟨rfl, before, after, rfl, hafter⟩
    refine ⟨by simp, after.reverse, before.reverse, by simp, fun q hq => ?_⟩
    simpa using hafter q (List.mem_reverse.mp hq)

theorem IsLast.mem {probes : List Resolved} {p : Resolved} (h : IsLast probes p) : p ∈ probes := by
  obtain ⟨before, after, rfl, -⟩ := h
  simp

/-- Where there is a probe, there is a last one. -/
theorem exists_isLast {probes : List Resolved} {p : Resolved} (h : p ∈ probes) :
    ∃ q, lastAt? probes p.address = some q ∧ q.address = p.address ∧ IsLast probes q := by
  have hfound : (lastAt? probes p.address).isSome := by
    rw [lastAt?, List.find?_isSome]
    exact ⟨p, List.mem_reverse.mpr h, by simp⟩
  obtain ⟨q, hq⟩ := Option.isSome_iff_exists.mp hfound
  exact ⟨q, hq, lastAt?_eq_some_iff.mp hq⟩

/-- The probes that have a behavior to tell. -/
def special (probes : List Resolved) : List Resolved :=
  probes.filter (·.behavior.isSome)

end Probe

open Probe

namespace Kernel.Machine

variable {m : Machine} {probes : List Resolved}

theorem foldlM_putProbe? (m : Machine) (probes : List Resolved) :
    probes.foldlM (fun m p => m.putProbe? p.address p.offsets) m =
      (m.probes.putEach? (·.address) (·.offsets) probes).map fun positions =>
        { m with probes := positions } := by
  induction probes generalizing m with
  | nil => rfl
  | cons p rest ih =>
    rw [List.foldlM_cons, BoundedMap.putEach?, List.foldlM_cons, putProbe?]
    cases m.probes.put? p.address p.offsets with
    | none => rfl
    | some positions => exact ih _

theorem foldlM_putBehavior? (m : Machine) (probes : List Resolved) :
    probes.foldlM (fun m p =>
        match p.behavior with
        | some behavior => m.putBehavior? p.address behavior
        | none => some m) m =
      (m.behaviors.putEach? (·.address) (·.behavior.getD .plain) (special probes)).map
        fun behaviors => { m with behaviors := behaviors } := by
  induction probes generalizing m with
  | nil => rfl
  | cons p rest ih =>
    rw [List.foldlM_cons, special, List.filter_cons]
    cases hbehavior : p.behavior with
    | none => exact ih m
    | some behavior =>
      rw [BoundedMap.putEach?, Option.isSome_some, if_pos rfl, List.foldlM_cons, hbehavior,
        Option.getD_some]
      simp only [putBehavior?]
      cases m.behaviors.put? p.address behavior with
      | none => rfl
      | some behaviors => exact ih _

/-- Positions go to one map and behaviors to the other, and nothing else is told. -/
theorem configure?_eq (m : Machine) (probes : List Resolved) :
    m.configure? probes =
      (m.probes.putEach? (·.address) (·.offsets) probes).bind fun positions =>
        (m.behaviors.putEach? (·.address) (·.behavior.getD .plain) (special probes)).map
          fun behaviors => { m with probes := positions, behaviors := behaviors } := by
  unfold configure?
  rw [foldlM_putProbe?]
  cases m.probes.putEach? (·.address) (·.offsets) probes with
  | none => rfl
  | some positions => exact foldlM_putBehavior? _ probes

/-- In empty maps, the last probe at an address has the say on its positions, and the last with a
behavior on what it does. -/
theorem exists_configure? (hpositions : m.probes = .empty maxProbes)
    (hbehaviors : m.behaviors = .empty maxProbes) (hfew : probes.length ≤ maxProbes) :
    ∃ positions behaviors,
      m.configure? probes = some { m with probes := positions, behaviors := behaviors } ∧
      (∀ a, positions.get? a = (lastAt? probes a).map (·.offsets)) ∧
      ∀ a, behaviors.get? a = (lastAt? (special probes) a).map (·.behavior.getD .plain) := by
  have hspecial : (special probes).length ≤ maxProbes :=
    Nat.le_trans (List.length_filter_le ..) hfew
  obtain ⟨positions, hput⟩ : ∃ positions,
      (BoundedMap.empty maxProbes).putEach? Resolved.address Resolved.offsets probes =
        some positions :=
    BoundedMap.exists_putEach?_empty _ _ hfew
  obtain ⟨behaviors, hput'⟩ : ∃ behaviors,
      (BoundedMap.empty maxProbes).putEach? Resolved.address (·.behavior.getD .plain)
        (special probes) = some behaviors :=
    BoundedMap.exists_putEach?_empty _ _ hspecial
  refine ⟨positions, behaviors, ?_, fun a => ?_, fun a => ?_⟩
  · rw [configure?_eq, hpositions, hbehaviors, hput, hput']
    rfl
  · rw [BoundedMap.get?_putEach? hput, BoundedMap.get?_empty, Option.or_none, lastAt?]
  · rw [BoundedMap.get?_putEach? hput', BoundedMap.get?_empty, Option.or_none, lastAt?]

/-! ### Calls of a function -/

/-- What is followed has been found. -/
theorem follow_exit_ne (m : Machine) (event : RawEvent) (dropReason : Option UInt64)
    (o : Observation) :
    (m.follow event dropReason o).1 ≠ .noConfig ∧ (m.follow event dropReason o).1 ≠ .noSkb := by
  unfold follow
  split
  rename_i outcome event tracked _
  cases outcome <;> exact ⟨nofun, nofun⟩

/-- A function with positions is never without configuration, and without a buffer only if its
positions lead to none. -/
theorem exit_fire_of_configured (slot : RawEvent) {i : Invocation} {offsets : Offsets}
    (h : m.probes.get? i.function = some offsets) :
    (m.fire slot i).1 ≠ .noConfig ∧ ((m.fire slot i).1 = .noSkb ↔ i.skb? offsets = none) := by
  have hcounted : (m.count .totalEvents).probes.get? i.function = some offsets := h
  have hexit : (m.fire slot i).1 = ((m.count .totalEvents).probe slot i).1 := rfl
  rw [hexit, probe, hcounted]
  simp only
  cases i.skb? offsets with
  | none => simp
  | some skb =>
    simp only
    split
    · simp
    · split
      · simp
      · rename_i event _
        obtain ⟨hconfig, hskb⟩ := follow_exit_ne (m.count .totalEvents) event
          (i.dropReason? offsets) ⟨i.function, i.timestamp, skb, (m.count .totalEvents).headOf skb⟩
        exact ⟨hconfig, iff_of_false hskb nofun⟩

/-- The event that a call sends carries the drop reason that the positions of its function lead
to. -/
theorem dropReason_of_sent {slot : RawEvent} {i : Invocation} {offsets : Offsets}
    (h : m.probes.get? i.function = some offsets) {bytes : List UInt8}
    (hsent : (m.fire slot i).2.ring = m.ring.push bytes) :
    ∃ e s, (Event.decode bytes).result = .ok e ∧ e.sighting = some s ∧
      s.dropReason = dropReasonOf (i.dropReason? offsets) := by
  obtain ⟨-, hring⟩ | ⟨e, sent, hmessage, hdecode, hring⟩ := m.fire_cases slot i
  · -- a ring that is left as it is has no more events waiting
    have := congrArg (List.length ∘ Ring.waiting) (hring.symm.trans hsent)
    simp [Ring.push] at this
  · have hbytes := congrArg Ring.waiting (hring.symm.trans hsent)
    obtain rfl : sent = bytes := by simpa [Ring.push] using hbytes
    rw [message?, h] at hmessage
    simp only at hmessage
    split at hmessage
    · cases hmessage
    · split at hmessage
      · cases hmessage
      · cases hmessage
        refine ⟨_, _, hdecode, rfl, ?_⟩
        unfold Invocation.dropReason?
        cases offsets.dropReason? <;> rfl

end Kernel.Machine

theorem Kernel.Invocation.skb?_eq_none_iff {i : Invocation} {offsets : Offsets} {position : Nat}
    (h : offsets.skBuff? = some position) : i.skb? offsets = none ↔ i.register position = 0 := by
  unfold skb?
  rw [h]
  simp

end Lifeline
