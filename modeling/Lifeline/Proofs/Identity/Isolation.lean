import Lifeline.Proofs.Identity.Sequence

/-! Buffers at disjoint addresses do not influence each other.

A program works on certain addresses only (`Program.Uses`): what lies elsewhere it neither
sees nor changes, as long as the store has room for every address that is ever used
(`Store.Ample`), for then no insertion is refused because of the others. So restricting a
store to some addresses and running a program on them can be done in either order
(`Program.run_restrict`), and a program on other addresses leaves the restricted store alone
(`Program.restrict_run_of_disjoint`).

`groups_isolated` says what this comes to for a run that is divided into groups. -/
namespace Lifeline

/-! ### Stores seen at some addresses -/

namespace Store

/-- What a store holds at some addresses. -/
def restrict (s : Store) (keys : Finset Address) : Store where
  capacity := s.capacity
  entries := s.entries.filter fun key _ => decide (key ∈ keys)
  size_le := Nat.le_trans Std.ExtTreeMap.size_filter_le_size s.size_le

theorem lookup_restrict (s : Store) (keys : Finset Address) (k : Address) :
    (s.restrict keys).lookup k = if k ∈ keys then s.lookup k else none := by
  simp only [lookup, BoundedMap.get?, restrict, Std.ExtTreeMap.getElem?_filter']
  cases s.entries[k]? <;> simp [Option.filter]

theorem restrict_eq_iff {s t : Store} (hcapacity : s.capacity = t.capacity)
    (keys : Finset Address) :
    s.restrict keys = t.restrict keys ↔ ∀ k ∈ keys, s.lookup k = t.lookup k := by
  constructor
  · intro h k hk
    have hat := congrArg (lookup · k) h
    simpa only [lookup_restrict, if_pos hk] using hat
  · intro h
    refine BoundedMap.ext_get? hcapacity fun k => ?_
    show (s.restrict keys).lookup k = (t.restrict keys).lookup k
    rw [lookup_restrict, lookup_restrict]
    split
    · rename_i hk
      exact h k hk
    · rfl

theorem restrict_empty (capacity : Nat) (keys : Finset Address) :
    restrict (BoundedMap.empty capacity) keys = BoundedMap.empty capacity := by
  refine BoundedMap.ext_get? rfl fun k => ?_
  show (restrict (BoundedMap.empty capacity) keys).lookup k = lookup (BoundedMap.empty capacity) k
  rw [lookup_restrict, lookup_empty]
  split <;> rfl

/-- A store on these addresses, with room for a record at each of them. -/
structure Ample (addresses : Finset Address) (s : Store) : Prop where
  within : s.Within addresses
  enough : addresses.card ≤ s.capacity

variable {addresses keys : Finset Address} {s : Store}

theorem ample_empty {capacity : Nat} (h : addresses.card ≤ capacity) :
    Ample addresses (BoundedMap.empty capacity) :=
  ⟨within_empty capacity addresses, h⟩

/-- A free address has its room. -/
theorem Ample.hasRoom (h : s.Ample addresses) {key : Address} (hkey : key ∈ addresses)
    (hfree : s.lookup key = none) : s.HasRoom := by
  have hothers : s.Within (addresses.erase key) := by
    intro k hk
    refine Finset.mem_erase.mpr ⟨?_, h.within k hk⟩
    rintro rfl
    exact hk (identityAt_eq_none_iff.mpr hfree)
  exact hothers.hasRoom (Nat.lt_of_lt_of_le (Finset.card_erase_lt_of_mem hkey) h.enough)

theorem Ample.insertIfAbsent_fst (h : s.Ample addresses) {key : Address} (hkey : key ∈ addresses)
    (r : Record) : (s.insertIfAbsent key r).1 = true ↔ s.lookup key = none := by
  rw [Store.insertIfAbsent_fst]
  exact ⟨fun hfree => hfree.1, fun hfree => ⟨hfree, h.hasRoom hkey hfree⟩⟩

theorem Ample.lookup_insertIfAbsent (h : s.Ample addresses) {key : Address}
    (hkey : key ∈ addresses) (r : Record) (k : Address) :
    (s.insertIfAbsent key r).2.lookup k =
      if s.lookup key = none ∧ key = k then some r else s.lookup k := by
  rw [Store.lookup_insertIfAbsent]
  by_cases hfree : s.lookup key = none
  · simp [hfree, h.hasRoom hkey hfree]
  · simp [hfree]

theorem Ample.insertIfAbsent (h : s.Ample addresses) {key : Address} (hkey : key ∈ addresses)
    (r : Record) : (s.insertIfAbsent key r).2.Ample addresses := by
  refine ⟨fun k hk => ?_, by simpa using h.enough⟩
  rw [identityAt_insertIfAbsent] at hk
  split at hk
  · rename_i hin
    exact hin.2 ▸ hkey
  · exact h.within k hk

theorem Ample.touch (h : s.Ample addresses) (key : Address) (now : Nanos) :
    (s.touch key now).2.Ample addresses := by
  refine ⟨fun k hk => h.within k ?_, by simpa using h.enough⟩
  rwa [identityAt_touch] at hk

theorem Ample.delete (h : s.Ample addresses) (key : Address) :
    (s.delete key).Ample addresses := by
  refine ⟨fun k hk => h.within k ?_, by simpa using h.enough⟩
  rw [identityAt_delete] at hk
  split at hk
  · exact absurd rfl hk
  · exact hk

theorem Ample.restrict (h : s.Ample addresses) (keys : Finset Address) :
    (s.restrict keys).Ample addresses := by
  refine ⟨fun k hk => h.within k ?_, h.enough⟩
  intro hfree
  rw [identityAt_eq_none_iff] at hfree
  refine hk (identityAt_eq_none_iff.mpr ?_)
  rw [lookup_restrict, hfree, ite_self]

/-! ### One operation -/

theorem Ample.insertIfAbsent_restrict (h : s.Ample addresses) {key : Address}
    (haddresses : key ∈ addresses) (hkey : key ∈ keys) (r : Record) :
    (s.restrict keys).insertIfAbsent key r =
      ((s.insertIfAbsent key r).1, (s.insertIfAbsent key r).2.restrict keys) := by
  have hsame : (s.restrict keys).lookup key = s.lookup key := by
    rw [lookup_restrict, if_pos hkey]
  have hanswer : ((s.restrict keys).insertIfAbsent key r).1 = (s.insertIfAbsent key r).1 := by
    rw [Bool.eq_iff_iff, (h.restrict keys).insertIfAbsent_fst haddresses,
      h.insertIfAbsent_fst haddresses, hsame]
  refine Prod.ext hanswer (BoundedMap.ext_get? (by simp [Store.restrict]) fun k => ?_)
  show ((s.restrict keys).insertIfAbsent key r).2.lookup k =
    ((s.insertIfAbsent key r).2.restrict keys).lookup k
  rw [(h.restrict keys).lookup_insertIfAbsent haddresses, hsame, lookup_restrict, lookup_restrict,
    h.lookup_insertIfAbsent haddresses]
  by_cases hk : key = k
  · subst hk
    simp [hkey]
  · simp [hk]

theorem touch_restrict (s : Store) {key : Address} (hkey : key ∈ keys) (now : Nanos) :
    (s.restrict keys).touch key now =
      ((s.touch key now).1, (s.touch key now).2.restrict keys) := by
  have hsame : (s.restrict keys).lookup key = s.lookup key := by
    rw [lookup_restrict, if_pos hkey]
  refine Prod.ext (congrArg Option.isSome hsame) (BoundedMap.ext_get? rfl fun k => ?_)
  show ((s.restrict keys).touch key now).2.lookup k =
    ((s.touch key now).2.restrict keys).lookup k
  rw [lookup_touch, lookup_restrict, lookup_restrict, lookup_touch]
  by_cases hk : key = k
  · subst hk
    simp [hkey]
  · simp [hk]

theorem delete_restrict (s : Store) (keys : Finset Address) (key : Address) :
    (s.restrict keys).delete key = (s.delete key).restrict keys := by
  refine BoundedMap.ext_get? rfl fun k => ?_
  show ((s.restrict keys).delete key).lookup k = ((s.delete key).restrict keys).lookup k
  rw [lookup_delete, lookup_restrict, lookup_restrict, lookup_delete]
  split <;> simp

/-! An operation at another address does not show in the restricted store. -/

theorem restrict_insertIfAbsent_of_notMem (s : Store) {key : Address} (hkey : key ∉ keys)
    (r : Record) : (s.insertIfAbsent key r).2.restrict keys = s.restrict keys := by
  refine (restrict_eq_iff (capacity_insertIfAbsent s key r) keys).mpr fun k hk => ?_
  rw [Store.lookup_insertIfAbsent, if_neg]
  rintro ⟨-, rfl⟩
  exact hkey hk

theorem restrict_touch_of_notMem (s : Store) {key : Address} (hkey : key ∉ keys) (now : Nanos) :
    (s.touch key now).2.restrict keys = s.restrict keys := by
  refine (restrict_eq_iff (capacity_touch s key now) keys).mpr fun k hk => ?_
  rw [lookup_touch, if_neg]
  rintro rfl
  exact hkey hk

theorem restrict_delete_of_notMem (s : Store) {key : Address} (hkey : key ∉ keys) :
    (s.delete key).restrict keys = s.restrict keys := by
  refine (restrict_eq_iff (capacity_delete s key) keys).mpr fun k hk => ?_
  rw [lookup_delete, if_neg]
  rintro rfl
  exact hkey hk

end Store

/-! ### Programs on some addresses -/

namespace Program

variable {α β : Type} {used addresses keys : Finset Address}

/-- Every operation is on one of these addresses. -/
def Uses (used : Finset Address) : Program α → Prop
  | done _ => True
  | lookup key next => key ∈ used ∧ ∀ answer, (next answer).Uses used
  | insertIfAbsent key _ next => key ∈ used ∧ ∀ added, (next added).Uses used
  | touch key _ next => key ∈ used ∧ ∀ renewed, (next renewed).Uses used
  | delete key next => key ∈ used ∧ next.Uses used

theorem Uses.bind {p : Program α} {k : α → Program β} (h : p.Uses used)
    (hk : ∀ a, (k a).Uses used) : (p >>= k).Uses used := by
  show (p.andThen k).Uses used
  induction p with
  | done result => exact hk result
  | lookup key next ih => exact ⟨h.1, fun answer => ih answer (h.2 answer)⟩
  | insertIfAbsent key record next ih => exact ⟨h.1, fun added => ih added (h.2 added)⟩
  | touch key now next ih => exact ⟨h.1, fun renewed => ih renewed (h.2 renewed)⟩
  | delete key next ih => exact ⟨h.1, ih h.2⟩

theorem uses_pure (used : Finset Address) (a : α) : (pure a : Program α).Uses used :=
  trivial

theorem uses_get {key : Address} (h : key ∈ used) : (get key).Uses used :=
  ⟨h, fun _ => trivial⟩

theorem uses_insert {key : Address} (h : key ∈ used) (r : Record) : (insert key r).Uses used :=
  ⟨h, fun _ => trivial⟩

theorem uses_renew {key : Address} (h : key ∈ used) (now : Nanos) : (renew key now).Uses used :=
  ⟨h, fun _ => trivial⟩

theorem uses_remove {key : Address} (h : key ∈ used) : (remove key).Uses used :=
  ⟨h, trivial⟩

theorem capacity_run (p : Program α) (s : Store) : (p.run s).2.capacity = s.capacity := by
  induction p generalizing s with
  | done result => rfl
  | lookup key next ih => exact ih _ s
  | insertIfAbsent key record next ih => exact (ih _ _).trans (s.capacity_insertIfAbsent key record)
  | touch key now next ih => exact (ih _ _).trans (s.capacity_touch key now)
  | delete key next ih => exact (ih _).trans (s.capacity_delete key)

variable {p : Program α} {s : Store}

theorem Uses.run_ample (h : p.Uses used) (haddresses : used ⊆ addresses)
    (hs : s.Ample addresses) : (p.run s).2.Ample addresses := by
  induction p generalizing s with
  | done result => exact hs
  | lookup key next ih => exact ih _ (h.2 _) hs
  | insertIfAbsent key record next ih =>
    exact ih _ (h.2 _) (hs.insertIfAbsent (haddresses h.1) record)
  | touch key now next ih => exact ih _ (h.2 _) (hs.touch key now)
  | delete key next ih => exact ih h.2 (hs.delete key)

/-- Seen at its own addresses, a program does the same whatever lies elsewhere. -/
theorem Uses.run_restrict (h : p.Uses used) (haddresses : used ⊆ addresses) (hkeys : used ⊆ keys)
    (hs : s.Ample addresses) :
    p.run (s.restrict keys) = ((p.run s).1, (p.run s).2.restrict keys) := by
  induction p generalizing s with
  | done result => rfl
  | lookup key next ih =>
    have hsame : (s.restrict keys).lookup key = s.lookup key := by
      rw [Store.lookup_restrict, if_pos (hkeys h.1)]
    rw [run, run, hsame]
    exact ih _ (h.2 _) hs
  | insertIfAbsent key record next ih =>
    rw [run, run, hs.insertIfAbsent_restrict (haddresses h.1) (hkeys h.1) record]
    exact ih _ (h.2 _) (hs.insertIfAbsent (haddresses h.1) record)
  | touch key now next ih =>
    rw [run, run, s.touch_restrict (hkeys h.1) now]
    exact ih _ (h.2 _) (hs.touch key now)
  | delete key next ih =>
    rw [run, run, s.delete_restrict keys key]
    exact ih h.2 (hs.delete key)

/-- Seen elsewhere, it does nothing. -/
theorem Uses.restrict_run_of_disjoint (h : p.Uses used) (hkeys : Disjoint used keys) :
    (p.run s).2.restrict keys = s.restrict keys := by
  have helsewhere {key : Address} (hkey : key ∈ used) : key ∉ keys :=
    Finset.disjoint_left.mp hkeys hkey
  induction p generalizing s with
  | done result => rfl
  | lookup key next ih => exact ih _ (h.2 _)
  | insertIfAbsent key record next ih =>
    exact (ih _ (h.2 _)).trans (s.restrict_insertIfAbsent_of_notMem (helsewhere h.1) record)
  | touch key now next ih =>
    exact (ih _ (h.2 _)).trans (s.restrict_touch_of_notMem (helsewhere h.1) now)
  | delete key next ih =>
    exact (ih h.2).trans (s.restrict_delete_of_notMem (helsewhere h.1))

end Program

open Program

/-! ### What a firing uses -/

variable {used : Finset Address}

theorem uses_relocate {head : Address} (hhead : head ∈ used) (record : Record) :
    (relocate head record).Uses used := by
  refine (uses_insert hhead record).bind fun added => ?_
  split
  · exact uses_pure used true
  · exact (uses_get hhead).bind fun answer => uses_pure used answer.isSome

theorem uses_resolve {skb head : Address} (hskb : skb ∈ used) (hhead : head ∈ used) :
    (resolve skb head).Uses used := by
  refine (uses_get hhead).bind fun byHead => ?_
  cases byHead with
  | some record => exact uses_pure used (some record)
  | none =>
    refine (uses_get hskb).bind fun bySkb => ?_
    cases bySkb with
    | none => exact uses_pure used none
    | some record =>
      refine (uses_relocate hhead record).bind fun moved => ?_
      split
      · exact (uses_remove hskb).bind fun _ => uses_pure used (some record)
      · exact uses_pure used (some record)

variable {o : Observation} (hskb : o.skb ∈ used) (hhead : o.head ∈ used)

include hskb hhead

theorem uses_recognize (behavior : Behavior) : (recognize behavior o).Uses used := by
  refine (uses_resolve hskb hhead).bind fun found => ?_
  cases found with
  | some record => exact uses_pure used record
  | none =>
    cases behavior.frees with
    | true => exact uses_pure used _
    | false => exact (uses_insert hhead _).bind fun _ => uses_pure used _

theorem uses_forget (behavior : Behavior) : (forget behavior o).Uses used := by
  unfold forget
  split
  · refine (uses_remove hhead).bind fun _ => ?_
    split
    · exact uses_remove hskb
    · exact uses_pure used ()
  · exact uses_pure used ()

theorem uses_follow (behavior : Behavior) : (follow behavior o).Uses used := by
  refine (uses_recognize hskb hhead behavior).bind fun record => ?_
  refine (uses_renew hhead o.timestamp).bind fun _ => ?_
  have hend : Uses used (forget behavior o >>= fun _ => pure record.identity) :=
    (uses_forget hskb hhead behavior).bind fun _ => uses_pure used record.identity
  split
  · exact (uses_insert hskb _).bind fun _ => hend
  · exact hend

omit hskb hhead

/-- The addresses of a firing; a head that could not be read is none. -/
def Firing.addresses (f : Firing) : Finset Address :=
  if f.head = 0 then {f.skb} else {f.skb, f.head}

theorem Firing.uses_addresses (f : Firing) : f.program.Uses f.addresses := by
  unfold Firing.program track observe
  by_cases hhead : f.head = 0
  · rw [if_pos hhead]
    exact uses_pure f.addresses _
  · have hskb : f.skb ∈ f.addresses := by simp [Firing.addresses, hhead]
    have hhead' : f.head ∈ f.addresses := by simp [Firing.addresses, hhead]
    rw [if_neg hhead]
    have hidentify :
        Uses f.addresses (follow f.behavior f.observation >>= fun i => pure (some i)) :=
      (uses_follow hskb hhead' f.behavior).bind fun i => uses_pure f.addresses (some i)
    refine hidentify.bind fun found => ?_
    cases found with
    | none => exact uses_pure f.addresses _
    | some i => exact uses_pure f.addresses _

/-! ### Runs in groups -/

/-- The addresses that firings use. -/
def usedBy : List Firing → Finset Address
  | [] => ∅
  | f :: rest => f.addresses ∪ usedBy rest

theorem mem_usedBy {firings : List Firing} {key : Address} :
    key ∈ usedBy firings ↔ ∃ f ∈ firings, key ∈ f.addresses := by
  induction firings with
  | nil => simp [usedBy]
  | cons f rest ih => simp [usedBy, ih]

/-- A firing, and the group that it is part of. -/
structure Grouped (ι : Type) extends Firing where
  group : ι

variable {ι : Type}

/-- The firings of a run, without their groups. -/
abbrev firings (run : List (Grouped ι)) : List Firing :=
  run.map Grouped.toFiring

/-- What the firings of a run give one after another, and the store that they leave. -/
abbrev outcome (s : Store) (run : List (Grouped ι)) : List (Outcome × RawEvent) × Store :=
  runAll Firing.program s (firings run)

theorem capacity_outcome (s : Store) (run : List (Grouped ι)) :
    (outcome s run).2.capacity = s.capacity := by
  induction run generalizing s with
  | nil => rfl
  | cons f rest ih => exact (ih _).trans (f.program.capacity_run s)

theorem outcome_ample {addresses : Finset Address} (run : List (Grouped ι)) {s : Store}
    (hs : s.Ample addresses) (haddresses : usedBy (firings run) ⊆ addresses) :
    (outcome s run).2.Ample addresses := by
  induction run generalizing s with
  | nil => exact hs
  | cons f rest ih =>
    obtain ⟨hnow, hlater⟩ := Finset.union_subset_iff.mp haddresses
    exact ih (f.uses_addresses.run_ample hnow hs) hlater

variable [DecidableEq ι]

/-- A group alone, its firings in the order of the run. -/
def ofGroup (g : ι) (run : List (Grouped ι)) : List (Grouped ι) :=
  run.filter fun f => f.group = g

/-- Of all that a run gives, what its firings of a group gave. -/
def resultsOf {β : Type} (g : ι) : List (Grouped ι) → List β → List β
  | f :: run, b :: results =>
    if f.group = g then b :: resultsOf g run results else resultsOf g run results
  | _, _ => []

/-- No two groups have an address in common. -/
def Separate (run : List (Grouped ι)) : Prop :=
  ∀ f ∈ run, ∀ f' ∈ run, f.group ≠ f'.group → Disjoint f.addresses f'.addresses

instance (run : List (Grouped ι)) : Decidable (Separate run) :=
  inferInstanceAs (Decidable (∀ f ∈ run, ∀ f' ∈ run, _))

/-- Seen at the addresses of a group, a run is the run of that group. -/
theorem outcome_restrict {addresses keys : Finset Address} (g : ι) (run : List (Grouped ι))
    {s : Store} (hs : s.Ample addresses) (haddresses : usedBy (firings run) ⊆ addresses)
    (hown : ∀ f ∈ run, f.group = g → f.addresses ⊆ keys)
    (hothers : ∀ f ∈ run, f.group ≠ g → Disjoint f.addresses keys) :
    outcome (s.restrict keys) (ofGroup g run) =
      (resultsOf g run (outcome s run).1, (outcome s run).2.restrict keys) := by
  induction run generalizing s with
  | nil => rfl
  | cons f rest ih =>
    obtain ⟨hnow, hlater⟩ := Finset.union_subset_iff.mp haddresses
    have hnext := ih (f.uses_addresses.run_ample hnow hs) hlater
      (fun f' hf' => hown f' (List.mem_cons_of_mem f hf'))
      (fun f' hf' => hothers f' (List.mem_cons_of_mem f hf'))
    by_cases hgroup : f.group = g
    · have hrun := f.uses_addresses.run_restrict hnow (hown f (List.mem_cons_self ..) hgroup) hs
      have hsplit : ofGroup g (f :: rest) = f :: ofGroup g rest := by
        simp [ofGroup, hgroup]
      rw [hsplit]
      show (_ :: (outcome (f.program.run (s.restrict keys)).2 (ofGroup g rest)).1,
        (outcome (f.program.run (s.restrict keys)).2 (ofGroup g rest)).2) = _
      rw [hrun, hnext]
      show _ = (if f.group = g then _ else _, _)
      rw [if_pos hgroup]
      rfl
    · have hrun := f.uses_addresses.restrict_run_of_disjoint (s := s)
        (hothers f (List.mem_cons_self ..) hgroup)
      have hsplit : ofGroup g (f :: rest) = ofGroup g rest := by
        simp [ofGroup, hgroup]
      rw [hrun] at hnext
      rw [hsplit, hnext]
      show _ = (if f.group = g then _ else _, _)
      rw [if_neg hgroup]
      rfl

theorem addresses_subset_group {run : List (Grouped ι)} {f : Grouped ι} (h : f ∈ run) :
    f.addresses ⊆ usedBy (firings (ofGroup f.group run)) := by
  have hgroup : f.toFiring ∈ firings (ofGroup f.group run) :=
    List.mem_map_of_mem (by simp [ofGroup, h])
  exact fun key hkey => mem_usedBy.mpr ⟨f.toFiring, hgroup, hkey⟩

/-- A group gives what it gives alone, and leaves at its addresses what it leaves alone. -/
theorem group_isolated {capacity : Nat} {run : List (Grouped ι)} (hapart : Separate run)
    (hcapacity : (usedBy (firings run)).card ≤ capacity) (g : ι) :
    resultsOf g run (outcome (BoundedMap.empty capacity) run).1 =
        (outcome (BoundedMap.empty capacity) (ofGroup g run)).1 ∧
      (outcome (BoundedMap.empty capacity) run).2.restrict (usedBy (firings (ofGroup g run))) =
        (outcome (BoundedMap.empty capacity) (ofGroup g run)).2 := by
  have hown (f : Grouped ι) (hf : f ∈ run) (hgroup : f.group = g) :
      f.addresses ⊆ usedBy (firings (ofGroup g run)) :=
    hgroup ▸ addresses_subset_group hf
  have hothers (f : Grouped ι) (hf : f ∈ run) (hgroup : f.group ≠ g) :
      Disjoint f.addresses (usedBy (firings (ofGroup g run))) := by
    refine Finset.disjoint_right.mpr fun key hkey => ?_
    obtain ⟨_, hmem, hat⟩ := mem_usedBy.mp hkey
    obtain ⟨f', hf', rfl⟩ := List.mem_map.mp hmem
    obtain ⟨hrun, hof⟩ := List.mem_filter.mp hf'
    obtain rfl : f'.group = g := by simpa using hof
    exact Finset.disjoint_right.mp (hapart f hf f' hrun hgroup) hat
  have hall := outcome_restrict g run (Store.ample_empty hcapacity) (Finset.Subset.refl _) hown
    hothers
  rw [Store.restrict_empty] at hall
  rw [hall]
  exact ⟨rfl, rfl⟩

/-- Runs with the same groups have the same firings. -/
theorem mem_of_ofGroup_eq {run run' : List (Grouped ι)}
    (h : ∀ g, ofGroup g run' = ofGroup g run) (f : Grouped ι) : f ∈ run' ↔ f ∈ run := by
  have hof (l : List (Grouped ι)) : f ∈ ofGroup f.group l ↔ f ∈ l := by
    simp [ofGroup]
  rw [← hof run', h, hof]

/-- **A group of firings does what it would do alone**, if no other group uses its addresses
and the store has room for all: what it gives and what it leaves at its addresses are the
same, so they do not depend on how the groups are interleaved, and neither does the store
that is left in the end. -/
theorem groups_isolated (capacity : Nat) (run : List (Grouped ι)) (hapart : Separate run)
    (hcapacity : (usedBy (firings run)).card ≤ capacity) :
    (∀ g, resultsOf g run (outcome (BoundedMap.empty capacity) run).1 =
        (outcome (BoundedMap.empty capacity) (ofGroup g run)).1 ∧
      (outcome (BoundedMap.empty capacity) run).2.restrict (usedBy (firings (ofGroup g run))) =
        (outcome (BoundedMap.empty capacity) (ofGroup g run)).2) ∧
    ∀ run' : List (Grouped ι), (∀ g, ofGroup g run' = ofGroup g run) →
      (∀ g, resultsOf g run' (outcome (BoundedMap.empty capacity) run').1 =
        resultsOf g run (outcome (BoundedMap.empty capacity) run).1) ∧
      (outcome (BoundedMap.empty capacity) run').2 =
        (outcome (BoundedMap.empty capacity) run).2 := by
  refine ⟨group_isolated hapart hcapacity, fun run' hsame => ?_⟩
  have hmem := mem_of_ofGroup_eq hsame
  have hused : usedBy (firings run') = usedBy (firings run) := by
    ext key
    simp only [mem_usedBy, List.mem_map]
    grind
  have hapart' : Separate run' := fun f hf f' hf' =>
    hapart f ((hmem f).mp hf) f' ((hmem f').mp hf')
  have hcapacity' : (usedBy (firings run')).card ≤ capacity := hused ▸ hcapacity
  refine ⟨fun g => ?_, ?_⟩
  · rw [(group_isolated hapart' hcapacity' g).1, (group_isolated hapart hcapacity g).1, hsame]
  · refine BoundedMap.ext_get? (by rw [capacity_outcome, capacity_outcome]) fun k => ?_
    show (outcome _ run').2.lookup k = (outcome _ run).2.lookup k
    by_cases hk : k ∈ usedBy (firings run)
    · -- an address that is used belongs to a group
      obtain ⟨_, hmem, hkf⟩ := mem_usedBy.mp hk
      obtain ⟨f, hf, rfl⟩ := List.mem_map.mp hmem
      have hgroup := addresses_subset_group hf hkf
      have hrestrict := (group_isolated hapart' hcapacity' f.group).2
      rw [hsame, ← (group_isolated hapart hcapacity f.group).2] at hrestrict
      have hat := congrArg (Store.lookup · k) hrestrict
      simpa only [Store.lookup_restrict, if_pos hgroup] using hat
    · have hample := outcome_ample run (Store.ample_empty hcapacity) (Finset.Subset.refl _)
      have hample' := outcome_ample run' (Store.ample_empty hcapacity) hused.subset
      rw [Store.identityAt_eq_none_iff.mp (not_not.mp fun h => hk (hample.within k h)),
        Store.identityAt_eq_none_iff.mp (not_not.mp fun h => hk (hample'.within k h))]

/-- Two buffers take turns. One loses its head and is freed at the next; each of them has a
firing whose head cannot be read. -/
def takingTurns : List (Grouped Bool) :=
  [⟨.bare (.ofFlags false true) 100 0x1000 0x11, false⟩,
   ⟨.bare .plain 110 0x2000 0x33, true⟩,
   ⟨.bare .plain 120 0x1000 0, false⟩,
   ⟨.bare .plain 120 0x1000 0x22, false⟩,
   ⟨.bare (.ofFlags false true) 115 0x2000 0x33, true⟩,
   ⟨.bare (.ofFlags true false) 130 0x1000 0x22, false⟩,
   ⟨.bare .plain 140 0x2000 0, true⟩]

/-- The store has room for the five addresses and no more. -/
theorem takingTurns_isolated :
    Separate takingTurns ∧ (usedBy (firings takingTurns)).card ≤ 5 ∧
      (outcome (BoundedMap.empty 5) takingTurns).2.restrict
          (usedBy (firings (ofGroup true takingTurns))) =
        (outcome (BoundedMap.empty 5) (ofGroup true takingTurns)).2 :=
  ⟨by decide, by decide, ((groups_isolated 5 takingTurns (by decide) (by decide)).1 true).2⟩

end Lifeline
