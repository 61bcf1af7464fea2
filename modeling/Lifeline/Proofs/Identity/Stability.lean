import Lifeline.Proofs.Event.Emission

/-! One buffer keeps one identity.

A buffer that is alone in its store is reported as it was first seen, through any number
of new heads (`one_buffer_one_identity`). Heads that were left behind keep their records,
so the store may fill up and a move to the next head may be refused. What makes up for it
is the slack: as long as the buffer's own address holds no record, there is room for one
(`Alone.slack`), so the insertion that an invalidation asks for never fails. -/
namespace Lifeline

/-- Every record of the store is this identity's, and the buffer's address holds one or
could take one. -/
structure Alone (skb : Address) (identity : Identity) (s : Store) : Prop where
  only : s.Knows fun i => i = identity
  slack : s.identityAt skb ≠ none ∨ s.HasRoom

/-- A record lies under one of the two addresses. -/
def Known (skb head : Address) (s : Store) : Prop :=
  s.identityAt head ≠ none ∨ s.identityAt skb ≠ none

variable {skb : Address} {identity : Identity} {s : Store} {o : Observation}

theorem Alone.identity_recordOf (h : Alone o.skb identity s) (hknown : Known o.skb o.head s) :
    (s.recordOf o).identity = identity := by
  rw [Store.identity_recordOf]
  cases hhead : s.identityAt o.head with
  | some i => exact h.only _ i hhead
  | none =>
    cases hskb : s.identityAt o.skb with
    | some i => exact h.only _ i hskb
    | none =>
      rcases hknown with hk | hk
      · exact absurd hhead hk
      · exact absurd hskb hk

/-! ### What one observation keeps -/

/-- Resolving moves the record or leaves it: the slack is as it was. A refused move needs
none, as the record then stays under the buffer's address. -/
theorem Alone.recognized (behavior : Behavior) (h : Alone o.skb identity s)
    (hknown : Known o.skb o.head s) :
    Alone o.skb identity (s.recognized behavior o) ∧
      Known o.skb o.head (s.recognized behavior o) := by
  cases hhead : s.lookup o.head with
  | some r =>
    rw [Store.recognized_of_hit behavior hhead]
    exact ⟨h, hknown⟩
  | none =>
    have hfree := Store.identityAt_eq_none_iff.mpr hhead
    cases hskb : s.lookup o.skb with
    | none =>
      rcases hknown with hk | hk
      · exact absurd hfree hk
      · exact absurd (Store.identityAt_eq_none_iff.mpr hskb) hk
    | some r =>
      have hheld := Store.identityAt_of_lookup hskb
      rw [Store.recognized_of_moved behavior hhead hskb]
      by_cases hroom : s.HasRoom
      · have hne : o.skb ≠ o.head := by
          intro heq
          rw [heq, hhead] at hskb
          exact absurd hskb (by simp)
        have honly := h.only.insertIfAbsent o.head (h.only _ _ hheld)
        rw [if_pos hroom]
        refine ⟨⟨honly.delete o.skb, .inr ?_⟩, .inl ?_⟩
        · unfold Store.HasRoom at hroom ⊢
          rw [Store.size_moved hhead (by simp [hskb]) hroom]
          simpa using hroom
        · rw [Store.identityAt_delete, if_neg hne, Store.identityAt_insertIfAbsent,
            if_pos ⟨⟨hfree, hroom⟩, rfl⟩]
          exact Option.some_ne_none _
      · rw [if_neg hroom]
        exact ⟨h, hknown⟩

/-- Where the head is about to be replaced, the buffer's address holds a record afterwards. -/
theorem Alone.doubled (behavior : Behavior) {r : Record} (h : Alone o.skb identity s)
    (hr : r.identity = identity) :
    Alone o.skb identity (s.doubled behavior o r) ∧
      (behavior.invalidatesHead = true → (s.doubled behavior o r).identityAt o.skb ≠ none) := by
  have hat := s.identityAt_doubled behavior o r
  have honly : (s.doubled behavior o r).Knows fun i => i = identity := by
    have htouched := h.only.touch o.head o.timestamp
    unfold Store.doubled
    split
    · exact htouched.insertIfAbsent o.skb hr
    · exact htouched
  have hheld (hinv : behavior.invalidatesHead = true) :
      (s.doubled behavior o r).identityAt o.skb ≠ none := by
    rw [hat]
    by_cases hskb : s.identityAt o.skb = none
    · have hroom : s.HasRoom := h.slack.resolve_left (absurd hskb)
      rw [if_pos ⟨hinv, ⟨hskb, hroom⟩, rfl⟩]
      exact Option.some_ne_none _
    · rw [if_neg (fun heq => hskb heq.2.1.1)]
      exact hskb
  refine ⟨⟨honly, ?_⟩, hheld⟩
  by_cases hinv : behavior.invalidatesHead = true
  · exact .inl (hheld hinv)
  · have hsame : s.doubled behavior o r = (s.touch o.head o.timestamp).2 := if_neg hinv
    rw [hsame, Store.identityAt_touch, Store.hasRoom_touch]
    exact h.slack

theorem Known.doubled (behavior : Behavior) {r : Record} (h : Known o.skb o.head s) :
    Known o.skb o.head (s.doubled behavior o r) := by
  have hkept (key : Address) (hkey : s.identityAt key ≠ none) :
      (s.doubled behavior o r).identityAt key ≠ none := by
    rw [Store.identityAt_doubled]
    split
    · exact Option.some_ne_none _
    · exact hkey
  rcases h with h | h
  · exact .inl (hkept _ h)
  · exact .inr (hkept _ h)

/-! ### One firing after another -/

/-- What a firing leaves to the next one, unless it frees the buffer. -/
structure Settled (identity : Identity) (last : Firing) (s : Store) : Prop where
  alone : Alone last.skb identity s
  known : Known last.skb last.head s
  replaced : last.invalidates = true → s.identityAt last.skb ≠ none

/-- A firing that does not free the buffer settles it, once its record is in the store. -/
theorem settled_of_recognized {f : Firing} (hfrees : f.frees = false)
    (halone : Alone f.skb identity (s.recognized f.behavior f.observation))
    (hknown : Known f.skb f.head (s.recognized f.behavior f.observation))
    (hrecord : (s.recordOf f.observation).identity = identity) :
    Settled identity f (s.observed f.behavior f.observation) := by
  have hforgotten : s.observed f.behavior f.observation =
      (s.recognized f.behavior f.observation).doubled f.behavior f.observation
        (s.recordOf f.observation) := by
    rw [Store.observed, Store.forgotten, if_neg (by simp [hfrees])]
  obtain ⟨hdoubled, hreplaced⟩ := halone.doubled f.behavior hrecord
  rw [hforgotten]
  exact ⟨hdoubled, hknown.doubled f.behavior, hreplaced⟩

theorem Settled.next {last f : Firing} (h : Settled identity last s) (hskb : f.skb = last.skb)
    (hmove : last.head = f.head ∨ last.invalidates = true) :
    (s.recordOf f.observation).identity = identity ∧
      (f.frees = false → Settled identity f (s.observed f.behavior f.observation)) := by
  obtain ⟨halone, hknown, hreplaced⟩ := h
  rw [← hskb] at halone hknown hreplaced
  have hfound : Known f.skb f.head s := by
    rcases hmove with heq | hinv
    · exact heq ▸ hknown
    · exact .inr (hreplaced hinv)
  have hrecord := halone.identity_recordOf hfound
  refine ⟨hrecord, fun hfrees => ?_⟩
  obtain ⟨hrecognized, hstill⟩ := halone.recognized f.behavior hfound
  exact settled_of_recognized hfrees hrecognized hstill hrecord

/-- The first firing needs room for two: its head, and the buffer's own address. -/
theorem settled_first {capacity : Nat} (hcapacity : 2 ≤ capacity) (f : Firing) {s : Store}
    (hs : s = BoundedMap.empty capacity) :
    (s.recordOf f.observation).identity = f.origin ∧
      (f.frees = false → Settled f.origin f (s.observed f.behavior f.observation)) := by
  have hnone (key : Address) : s.lookup key = none := hs ▸ Store.lookup_empty capacity key
  have hsize : s.size = 0 := hs ▸ BoundedMap.size_empty capacity
  have hcap : s.capacity = capacity := hs ▸ rfl
  have hrecord : (s.recordOf f.observation).identity = f.origin := by
    rw [Store.identity_recordOf, Store.identityAt_eq_none_iff.mpr (hnone f.head),
      Store.identityAt_eq_none_iff.mpr (hnone f.skb)]
    rfl
  refine ⟨hrecord, fun hfrees => ?_⟩
  have hroom : s.HasRoom := by
    rw [Store.HasRoom, hsize, hcap]
    omega
  have hrecognized : s.recognized f.behavior f.observation =
      (s.insertIfAbsent f.head (Record.start f.head f.timestamp)).2 := by
    rw [Store.recognized_of_new f.behavior (hnone f.head) (hnone f.skb), if_neg (by simp [hfrees])]
  have honly : s.Knows fun i => i = f.origin := by
    intro key i hi
    rw [Store.identityAt_eq_none_iff.mpr (hnone key)] at hi
    exact absurd hi (by simp)
  have hgrown := Store.size_insertIfAbsent (r := Record.start f.head f.timestamp) (hnone f.head)
    hroom
  refine settled_of_recognized hfrees ⟨?_, .inr ?_⟩ (.inl ?_) hrecord
  · rw [hrecognized]
    exact honly.insertIfAbsent f.head rfl
  · rw [hrecognized, Store.HasRoom, hgrown, Store.capacity_insertIfAbsent, hsize, hcap]
    omega
  · rw [hrecognized, Store.identityAt_insertIfAbsent,
      if_pos ⟨⟨Store.identityAt_eq_none_iff.mpr (hnone f.head), hroom⟩, rfl⟩]
    exact Option.some_ne_none _

/-- A run that goes on from a settled store. -/
theorem identities_of_settled (last : Firing) (rest : List Firing) (s : Store)
    (hsettled : last.frees = false → Settled identity last s)
    (hskb : ∀ f ∈ rest, f.skb = last.skb) (hheads : ∀ f ∈ rest, f.head ≠ 0)
    (hfrees : ∀ f ∈ (last :: rest).dropLast, f.frees = false)
    (hmoves : (last :: rest).IsChain fun f g => f.head = g.head ∨ f.invalidates = true) :
    identities s rest = rest.map fun _ => some identity := by
  induction rest generalizing last s with
  | nil => rfl
  | cons f rest ih =>
    rw [List.dropLast_cons_cons] at hfrees
    rw [List.isChain_cons_cons] at hmoves
    have hfskb := hskb f (List.mem_cons_self ..)
    have hbefore := hsettled (hfrees last (List.mem_cons_self ..))
    obtain ⟨hrecord, hafter⟩ := hbefore.next hfskb hmoves.1
    have hrun := observe_run s f.behavior f.observation (hheads f (List.mem_cons_self ..))
    rw [hrecord] at hrun
    rw [identities_cons, Firing.identify, hrun, List.map_cons]
    refine congrArg _ (ih f _ hafter (fun g hg => ?_) (fun g hg => ?_) (fun g hg => ?_) hmoves.2)
    · rw [hskb g (List.mem_cons_of_mem f hg), hfskb]
    · exact hheads g (List.mem_cons_of_mem f hg)
    · exact hfrees g (List.mem_cons_of_mem last hg)

/-- **A buffer keeps the identity of its first firing** through any number of heads, in
any store with room for two records, whether or not its moves succeed: all firings are resolved to
it, and it is what each of them writes. -/
theorem one_buffer_one_identity (capacity : Nat) (hcapacity : 2 ≤ capacity) (first : Firing)
    (rest : List Firing) (hskb : ∀ f ∈ rest, f.skb = first.skb)
    (hheads : ∀ f ∈ first :: rest, f.head ≠ 0)
    (hfrees : ∀ f ∈ (first :: rest).dropLast, f.frees = false)
    (hmoves : (first :: rest).IsChain fun f g => f.head = g.head ∨ f.invalidates = true) :
    identities (BoundedMap.empty capacity) (first :: rest) =
        (first :: rest).map (fun _ => some first.origin) ∧
      reports (BoundedMap.empty capacity) (first :: rest) =
        (first :: rest).map (fun f => f.report (some first.origin)) ∧
      List.Forall₂ (fun f given => f.Writes first.origin given) (first :: rest)
        (reports (BoundedMap.empty capacity) (first :: rest)) := by
  obtain ⟨hrecord, hafter⟩ := settled_first hcapacity first rfl
  have hrun := observe_run (BoundedMap.empty capacity) first.behavior first.observation
    (hheads first (List.mem_cons_self ..))
  have hlater := identities_of_settled first rest _ hafter hskb
    (fun f hf => hheads f (List.mem_cons_of_mem first hf)) hfrees hmoves
  rw [hrecord] at hrun
  have hidentities : identities (BoundedMap.empty capacity) (first :: rest) =
      (first :: rest).map fun _ => some first.origin := by
    rw [identities_cons, Firing.identify, hrun, hlater, List.map_cons]
  have hreports : reports (BoundedMap.empty capacity) (first :: rest) =
      (first :: rest).map fun f => f.report (some first.origin) := by
    rw [reports_eq, hidentities, List.zipWith_map_right, List.zipWith_self]
  refine ⟨hidentities, hreports, ?_⟩
  rw [hreports, List.forall₂_map_right_iff, List.forall₂_same]
  exact fun f _ => f.writes_report first.origin

/-- Firings at new heads, after one that invalidates the first. -/
def movedTwice : List Firing :=
  [.bare (.ofFlags false true) 110 0x1000 0x22, .bare .plain 120 0x1000 0x33]

/-- A store for two records holds those of the first head and of the buffer, so that neither
move succeeds. -/
theorem one_identity_in_full_store :
    let first : Firing := .bare (.ofFlags false true) 100 0x1000 0x11
    (2 ≤ 2 ∧ (∀ f ∈ movedTwice, f.skb = first.skb) ∧ (∀ f ∈ first :: movedTwice, f.head ≠ 0) ∧
      (∀ f ∈ (first :: movedTwice).dropLast, f.frees = false) ∧
      (first :: movedTwice).IsChain fun f g => f.head = g.head ∨ f.invalidates = true) ∧
    identities (BoundedMap.empty 2) (first :: movedTwice) =
      [some ⟨0x11, 100⟩, some ⟨0x11, 100⟩, some ⟨0x11, 100⟩] := by
  intro first
  have hskb : ∀ f ∈ movedTwice, f.skb = first.skb := by decide
  have hheads : ∀ f ∈ first :: movedTwice, f.head ≠ 0 := by decide
  have hfrees : ∀ f ∈ (first :: movedTwice).dropLast, f.frees = false := by decide
  have hmoves : (first :: movedTwice).IsChain fun f g =>
      f.head = g.head ∨ f.invalidates = true := by decide
  exact ⟨⟨Nat.le_refl 2, hskb, hheads, hfrees, hmoves⟩,
    (one_buffer_one_identity 2 (Nat.le_refl 2) first movedTwice hskb hheads hfrees hmoves).1⟩

end Lifeline
