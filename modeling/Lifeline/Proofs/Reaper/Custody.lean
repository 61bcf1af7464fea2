import Lifeline.Proofs.Reaper.Sweep

/-! What a sweep does wherever the records are kept.

A custody keeps a store if its snapshots list the entries, in any order, and its removals take
their key; either may fail, and then nothing changes (`Custody.Keeps`). The plain store is such a
custody, whatever fails (`keeps_ofStore`). A sweep of listed entries gets through all of them, or as
far as the first stale one that cannot be removed (`Course`), and takes what is stale among those
that it gets through (`Custody.Keeps.sweep_of_listed`).

`sweep_takes_stale` says what that comes to. -/
namespace Lifeline

namespace Record

/-- Last seen more than `maxAge` before `now`. What lies ahead of `now` is no time ago. -/
def IsStale (r : Record) (now maxAge : Nanos) : Prop :=
  maxAge.toNat < now.toNat - r.lastSeen.toNat

instance (r : Record) (now maxAge : Nanos) : Decidable (r.IsStale now maxAge) :=
  inferInstanceAs (Decidable (_ < _))

theorem isStale_iff {r : Record} {now maxAge : Nanos} :
    r.IsStale now maxAge ↔ maxAge < r.age now := by
  rw [UInt64.lt_iff_toNat_lt, toNat_age, IsStale]

/-- What is stale is so for every smaller age. -/
theorem IsStale.mono {r : Record} {now maxAge maxAge' : Nanos} (h : r.IsStale now maxAge')
    (hage : maxAge ≤ maxAge') : r.IsStale now maxAge :=
  Nat.lt_of_le_of_lt (UInt64.le_iff_toNat_le.mp hage) h

end Record

/-- What is left of a store once the entries that `P` picks are gone, all others as they were. -/
def Store.IsWithout (left s : Store) (P : Address → Record → Prop) : Prop :=
  ∀ key r, left.lookup key = some r ↔ s.lookup key = some r ∧ ¬P key r

theorem Store.IsWithout.lookup_eq_none {left s : Store} {P : Address → Record → Prop}
    (h : left.IsWithout s P) {key : Address} {r : Record} (hr : s.lookup key = some r) :
    left.lookup key = none ↔ P key r := by
  constructor
  · intro hgone
    by_contra hspared
    exact Option.some_ne_none r (((h key r).mpr ⟨hr, hspared⟩).symm.trans hgone)
  · intro hpicked
    refine Option.eq_none_iff_forall_ne_some.mpr fun r' hr' => ?_
    obtain ⟨hheld, hspared⟩ := (h key r').mp hr'
    obtain rfl : r = r' := Option.some.inj (hr.symm.trans hheld)
    exact hspared hpicked

namespace Reaper

variable {σ ε : Type}

/-! ### Custodies -/

/-- What a custody fails at, and how: its snapshots, and the removals of some keys. -/
structure Troubles (ε : Type) where
  snapshot : Option ε
  removal : Address → Option ε

/-- The custody keeps a store, and fails at what it is said to fail at. -/
structure Custody.Keeps (custody : Custody σ ε) (store : σ → Store) (troubles : Troubles ε) :
    Prop where
  unlisted : ∀ e, troubles.snapshot = some e → ∀ s, ∃ s',
    custody.entries s = (.error e, s') ∧ store s' = store s
  /-- The entries may be listed in any order. -/
  listed : troubles.snapshot = none → ∀ s, ∃ l s',
    custody.entries s = (.ok l, s') ∧ store s' = store s ∧ l.Perm (store s).toList
  refused : ∀ key e, troubles.removal key = some e → ∀ s, ∃ s',
    custody.remove key s = (.error e, s') ∧ store s' = store s
  removed : ∀ key, troubles.removal key = none → ∀ s, ∃ s',
    custody.remove key s = (.ok (), s') ∧ store s' = (store s).delete key

/-- The failures of a plain store. -/
def Failing.troubles (failing : Failing) : Troubles SweepError where
  snapshot := if failing.snapshot then some .entries else none
  removal key := if failing.removal key then some .remove else none

/-- The plain store keeps itself. -/
theorem keeps_ofStore (failing : Failing) : (ofStore failing).Keeps id failing.troubles where
  unlisted e he s := by
    obtain ⟨hfails, rfl⟩ := Option.ite_some_none_eq_some.mp he
    exact ⟨s, by simp [ofStore, hfails], rfl⟩
  listed hnone s := by
    have hworks : failing.snapshot = false := by simpa [Failing.troubles] using hnone
    exact ⟨s.toList, s, by simp [ofStore, hworks], rfl, .refl _⟩
  refused key e he s := by
    obtain ⟨hfails, rfl⟩ := Option.ite_some_none_eq_some.mp he
    exact ⟨s, by simp [ofStore, hfails], rfl⟩
  removed key hnone s := by
    have hworks : failing.removal key = false := by simpa [Failing.troubles] using hnone
    exact ⟨s.delete key, by simp [ofStore, hworks], rfl⟩

/-! ### The entries that a sweep is after -/

theorem mem_stale {now maxAge : Nanos} {l : List (Address × Record)} {key : Address} :
    key ∈ stale now maxAge l ↔ ∃ r, (key, r) ∈ l ∧ r.IsStale now maxAge := by
  simp only [mem_stale_iff_age, Record.isStale_iff]

theorem stale_append (now maxAge : Nanos) (l l' : List (Address × Record)) :
    stale now maxAge (l ++ l') = stale now maxAge l ++ stale now maxAge l' := by
  rw [stale, List.filter_append, List.map_append, stale, stale]

theorem stale_cons {now maxAge : Nanos} {r : Record} (h : r.IsStale now maxAge) (key : Address)
    (l : List (Address × Record)) :
    stale now maxAge ((key, r) :: l) = key :: stale now maxAge l := by
  have hold : decide (maxAge < (key, r).2.age now) = true :=
    decide_eq_true (Record.isStale_iff.mp h)
  rw [stale, List.filter_cons, if_pos hold, List.map_cons, stale]

theorem mem_listed {l : List (Address × Record)} {s : Store} (hl : l.Perm s.toList)
    {key : Address} {r : Record} : (key, r) ∈ l ↔ s.lookup key = some r :=
  hl.mem_iff.trans mem_toList

theorem nodup_stale {l : List (Address × Record)} {s : Store} (hl : l.Perm s.toList)
    (now maxAge : Nanos) : (stale now maxAge l).Nodup := by
  have hkeys : (l.map Prod.fst).Nodup := by
    rw [(hl.map Prod.fst).nodup_iff, BoundedMap.toList, Std.ExtTreeMap.map_fst_toList_eq_keys]
    exact BoundedMap.nodup_keys s
  exact (List.filter_sublist.map Prod.fst).nodup hkeys

/-- Removing the stale ones among some listed entries leaves all others as they are. -/
theorem isWithout_foldl_stale {listed passed : List (Address × Record)} {s : Store}
    (hl : listed.Perm s.toList) (hpassed : passed ⊆ listed) (now maxAge : Nanos) :
    ((stale now maxAge passed).foldl Store.delete s).IsWithout s fun key r =>
      (key, r) ∈ passed ∧ r.IsStale now maxAge := by
  intro key r
  rw [lookup_foldl_delete]
  split
  · rename_i hmem
    obtain ⟨r', hr', hdue⟩ := mem_stale.mp hmem
    have hheld := (mem_listed hl).mp (hpassed hr')
    refine ⟨fun h => absurd h (Option.some_ne_none r).symm, fun ⟨h, hspared⟩ => ?_⟩
    obtain rfl : r' = r := Option.some.inj (hheld.symm.trans h)
    exact absurd ⟨hr', hdue⟩ hspared
  · rename_i hspared
    exact ⟨fun h => ⟨h, fun hmem => hspared (mem_stale.mpr ⟨r, hmem⟩)⟩, fun h => h.1⟩

theorem stale_eq_nil {now maxAge : Nanos} {l : List (Address × Record)}
    (h : ∀ key r, (key, r) ∈ l → ¬r.IsStale now maxAge) : stale now maxAge l = [] := by
  refine List.eq_nil_iff_forall_not_mem.mpr fun key hkey => ?_
  obtain ⟨r, hr, hdue⟩ := mem_stale.mp hkey
  exact h key r hr hdue

theorem size_delete_of_held {s : Store} {key : Address} (h : s.lookup key ≠ none) :
    1 + (s.delete key).size = s.size := by
  obtain ⟨r, hr⟩ := Option.ne_none_iff_exists'.mp h
  have hpositive : 0 < s.size := by
    rw [BoundedMap.size, ← Std.ExtTreeMap.length_toList]
    exact List.length_pos_of_mem (mem_toList.mpr hr)
  rw [Store.size_delete, if_pos (Option.isSome_iff_ne_none.mpr h)]
  omega

/-- Removing entries that are there takes as many. -/
theorem size_foldl_delete {keys : List Address} {s : Store} (hnodup : keys.Nodup)
    (hheld : ∀ key ∈ keys, s.lookup key ≠ none) :
    keys.length + (keys.foldl Store.delete s).size = s.size := by
  induction keys generalizing s with
  | nil => exact Nat.zero_add _
  | cons key rest ih =>
    obtain ⟨hnew, hrest⟩ := List.nodup_cons.mp hnodup
    obtain ⟨hkey, hlater⟩ := List.forall_mem_cons.mp hheld
    have hstill : ∀ k ∈ rest, (s.delete key).lookup k ≠ none := by
      intro k hk
      have hne : key ≠ k := fun heq => hnew (heq ▸ hk)
      rw [Store.lookup_delete, if_neg hne]
      exact hlater k hk
    have hsize := ih hrest hstill
    rw [List.length_cons, List.foldl_cons, ← size_delete_of_held hkey, ← hsize]
    omega

/-! ### One sweep -/

/-- How a sweep of listed entries goes: the entries that it gets through, and what it answers. -/
inductive Course (troubles : Troubles ε) (now maxAge : Nanos) :
    (listed passed : List (Address × Record)) → Except ε Nat → Prop
  | through {listed : List (Address × Record)}
      (clear : ∀ key ∈ stale now maxAge listed, troubles.removal key = none) :
      Course troubles now maxAge listed listed (.ok (stale now maxAge listed).length)
  | blocked {passed later : List (Address × Record)} {key : Address} {r : Record} {e : ε}
      (clear : ∀ key ∈ stale now maxAge passed, troubles.removal key = none)
      (due : r.IsStale now maxAge) (refused : troubles.removal key = some e) :
      Course troubles now maxAge (passed ++ (key, r) :: later) passed (.error e)

namespace Course

variable {troubles : Troubles ε} {now maxAge maxAge' : Nanos}
  {listed passed passed' : List (Address × Record)} {result result' : Except ε Nat}

/-- The first entry that has to go and cannot ends a sweep. -/
theorem exists_of_listed (troubles : Troubles ε) (now maxAge : Nanos)
    (listed : List (Address × Record)) :
    ∃ passed result, Course troubles now maxAge listed passed result := by
  cases hfind : listed.find? fun entry =>
      decide (entry.2.IsStale now maxAge) && (troubles.removal entry.1).isSome with
  | none =>
    refine ⟨listed, _, .through fun key hkey => ?_⟩
    obtain ⟨r, hr, hdue⟩ := mem_stale.mp hkey
    simpa [hdue] using List.find?_eq_none.mp hfind _ hr
  | some entry =>
    obtain ⟨hfirst, passed, later, rfl, hpassed⟩ := List.find?_eq_some_iff_append.mp hfind
    simp only [Bool.and_eq_true, decide_eq_true_eq] at hfirst
    obtain ⟨e, he⟩ := Option.isSome_iff_exists.mp hfirst.2
    refine ⟨passed, _, .blocked (fun key hkey => ?_) hfirst.1 he⟩
    obtain ⟨r, hr, hdue⟩ := mem_stale.mp hkey
    simpa [hdue] using hpassed _ hr

theorem clear (h : Course troubles now maxAge listed passed result) :
    ∀ key ∈ stale now maxAge passed, troubles.removal key = none := by
  cases h with
  | through clear => exact clear
  | blocked clear => exact clear

theorem passed_prefix (h : Course troubles now maxAge listed passed result) :
    passed <+: listed := by
  cases h with
  | through => exact List.prefix_refl _
  | blocked => exact List.prefix_append _ _

/-- What is due for a larger age and gets its turn there gets it for a smaller one as well, unless
the smaller age is held up by an entry that is not due for the larger. -/
theorem passed_of_larger (h : Course troubles now maxAge listed passed result)
    (h' : Course troubles now maxAge' listed passed' result') {entry : Address × Record}
    (hpassed : entry ∈ passed') (hdue : entry.2.IsStale now maxAge') :
    entry ∈ passed ∨ ∃ key r later e, listed = passed ++ (key, r) :: later ∧ entry ∈ later ∧
      r.IsStale now maxAge ∧ ¬r.IsStale now maxAge' ∧ troubles.removal key = some e ∧
      result = .error e := by
  cases h with
  | through => exact .inl (h'.passed_prefix.subset hpassed)
  | @blocked passed later key r e clear due refused =>
    rcases List.prefix_or_prefix_of_prefix h'.passed_prefix (List.prefix_append passed _) with
      hshort | ⟨more, rfl⟩
    · exact .inl (hshort.subset hpassed)
    · refine (List.mem_append.mp hpassed).imp_right fun hmore => ?_
      have hlisted := (List.prefix_append_right_inj passed).mp h'.passed_prefix
      rcases List.prefix_cons_iff.mp hlisted with rfl | ⟨more, rfl, hlater⟩
      · exact absurd hmore List.not_mem_nil
      -- the larger age got past the entry that is in the way
      have hspared : ¬r.IsStale now maxAge' := by
        intro hdue'
        have hcleared := h'.clear key (mem_stale.mpr ⟨r, List.mem_append_cons_self, hdue'⟩)
        exact Option.some_ne_none e (refused.symm.trans hcleared)
      rcases List.mem_cons.mp hmore with rfl | hmore
      · exact absurd hdue hspared
      · exact ⟨key, r, later, e, rfl, hlater.subset hmore, due, hspared, refused, rfl⟩

end Course

/-- A sweep fails at an entry that it lists: one that has to go and cannot, as none before. -/
structure HeldUp (custody : Custody σ ε) (troubles : Troubles ε) (now maxAge : Nanos) (s : σ)
    (before : List (Address × Record)) (entry : Address × Record)
    (after : List (Address × Record)) : Prop where
  listed : (custody.entries s).1 = .ok (before ++ entry :: after)
  due : entry.2.IsStale now maxAge
  clear : ∀ key r, (key, r) ∈ before → r.IsStale now maxAge → troubles.removal key = none
  fails : ∃ e, troubles.removal entry.1 = some e ∧ (sweep custody now maxAge s).1 = .error e

namespace Custody.Keeps

variable {custody : Custody σ ε} {store : σ → Store} {troubles : Troubles ε}

/-- Removals go on as long as none fails. -/
theorem removeAll_append (h : custody.Keeps store troubles) {keys : List Address}
    (hfree : ∀ key ∈ keys, troubles.removal key = none) (later : List Address) (s : σ) :
    ∃ s', removeAll custody (keys ++ later) s = removeAll custody later s' ∧
      store s' = keys.foldl Store.delete (store s) := by
  induction keys generalizing s with
  | nil => exact ⟨s, rfl, rfl⟩
  | cons key rest ih =>
    obtain ⟨hkey, hrest⟩ := List.forall_mem_cons.mp hfree
    obtain ⟨next, hnow, hstore⟩ := h.removed key hkey s
    obtain ⟨s', hrun, hs'⟩ := ih hrest next
    refine ⟨s', ?_, by rw [hs', hstore, List.foldl_cons]⟩
    rw [List.cons_append, removeAll, hnow]
    exact hrun

/-- A sweep that cannot list anything does nothing. -/
theorem sweep_of_unlisted (h : custody.Keeps store troubles) {e : ε}
    (he : troubles.snapshot = some e) (now maxAge : Nanos) (s : σ) :
    (sweep custody now maxAge s).1 = .error e ∧
      store (sweep custody now maxAge s).2 = store s := by
  obtain ⟨s', hentries, hstore⟩ := h.unlisted e he s
  rw [sweep, hentries]
  exact ⟨rfl, hstore⟩

/-- A sweep of listed entries removes what is stale among those that it gets through. -/
theorem sweep_of_listed (h : custody.Keeps store troubles) (hnone : troubles.snapshot = none)
    (s : σ) :
    ∃ listed, (custody.entries s).1 = .ok listed ∧ listed.Perm (store s).toList ∧
      ∀ now maxAge, ∃ passed,
        Course troubles now maxAge listed passed (sweep custody now maxAge s).1 ∧
        store (sweep custody now maxAge s).2 =
          (stale now maxAge passed).foldl Store.delete (store s) := by
  obtain ⟨listed, next, hentries, hnext, hlisted⟩ := h.listed hnone s
  refine ⟨listed, by rw [hentries], hlisted, fun now maxAge => ?_⟩
  obtain ⟨passed, result, hcourse⟩ := Course.exists_of_listed troubles now maxAge listed
  refine ⟨passed, ?_⟩
  rw [sweep, hentries]
  cases hcourse with
  | through clear =>
    obtain ⟨s', hrun, hs'⟩ := h.removeAll_append clear [] next
    rw [List.append_nil] at hrun
    simp only [hrun, removeAll]
    exact ⟨.through clear, by rw [hs', hnext]⟩
  | @blocked passed later key r e clear due refused =>
    obtain ⟨reached, hrun, hreached⟩ :=
      h.removeAll_append clear (key :: stale now maxAge later) next
    obtain ⟨s', hrefused, hs'⟩ := h.refused key e refused reached
    simp only [stale_append, stale_cons due, hrun, removeAll, hrefused]
    exact ⟨.blocked clear due refused, by rw [hs', hreached, hnext]⟩

/-- A sweep of a store without stale entries does nothing, and says so. -/
theorem sweep_of_fresh (h : custody.Keeps store troubles) (hnone : troubles.snapshot = none)
    {now maxAge : Nanos} {s : σ}
    (hfresh : ∀ key r, (store s).lookup key = some r → ¬r.IsStale now maxAge) :
    (sweep custody now maxAge s).1 = .ok 0 ∧
      store (sweep custody now maxAge s).2 = store s := by
  obtain ⟨listed, -, hl, hsweep⟩ := h.sweep_of_listed hnone s
  obtain ⟨passed, hcourse, hstore⟩ := hsweep now maxAge
  have hyoung : ∀ key r, (key, r) ∈ listed → ¬r.IsStale now maxAge :=
    fun key r hr => hfresh key r ((mem_listed hl).mp hr)
  generalize (sweep custody now maxAge s).1 = result at hcourse ⊢
  cases hcourse with
  | through =>
    rw [stale_eq_nil hyoung] at hstore ⊢
    exact ⟨rfl, hstore⟩
  | blocked clear due => exact absurd due (hyoung _ _ List.mem_append_cons_self)

/-- A sweep that can remove all that is stale removes it, and counts it. -/
theorem sweep_of_clear (h : custody.Keeps store troubles) (hnone : troubles.snapshot = none)
    {now maxAge : Nanos} {s : σ}
    (hclear : ∀ key r, (store s).lookup key = some r → r.IsStale now maxAge →
      troubles.removal key = none) :
    (store (sweep custody now maxAge s).2).IsWithout (store s)
        (fun _ r => r.IsStale now maxAge) ∧
      ∃ n, (sweep custody now maxAge s).1 = .ok n ∧
        n + (store (sweep custody now maxAge s).2).size = (store s).size := by
  obtain ⟨listed, -, hl, hsweep⟩ := h.sweep_of_listed hnone s
  obtain ⟨passed, hcourse, hstore⟩ := hsweep now maxAge
  rw [hstore]
  generalize (sweep custody now maxAge s).1 = result at hcourse ⊢
  cases hcourse with
  | through =>
    constructor
    · intro key r
      rw [isWithout_foldl_stale hl (List.Subset.refl _) now maxAge key r]
      exact and_congr_right fun hr => not_congr (and_iff_right ((mem_listed hl).mpr hr))
    · refine ⟨_, rfl, size_foldl_delete (nodup_stale hl now maxAge) fun key hkey => ?_⟩
      obtain ⟨r, hr, -⟩ := mem_stale.mp hkey
      exact Option.ne_none_iff_exists'.mpr ⟨r, (mem_listed hl).mp hr⟩
  | blocked clear due refused =>
    have hfree := hclear _ _ ((mem_listed hl).mp List.mem_append_cons_self) due
    exact absurd (refused.symm.trans hfree) (Option.some_ne_none _)

/-- A sweep that cannot remove some stale entry ends at the first such entry of its snapshot. -/
theorem sweep_of_blocked (h : custody.Keeps store troubles) (hnone : troubles.snapshot = none)
    {now maxAge : Nanos} {s : σ} {key : Address} {r : Record} {e : ε}
    (hr : (store s).lookup key = some r) (hdue : r.IsStale now maxAge)
    (he : troubles.removal key = some e) :
    ∃ before entry after, HeldUp custody troubles now maxAge s before entry after ∧
      (store (sweep custody now maxAge s).2).IsWithout (store s) fun key r =>
        (key, r) ∈ before ∧ r.IsStale now maxAge := by
  obtain ⟨listed, hlisted, hl, hsweep⟩ := h.sweep_of_listed hnone s
  obtain ⟨passed, hcourse, hstore⟩ := hsweep now maxAge
  have hwithout := isWithout_foldl_stale hl hcourse.passed_prefix.subset now maxAge
  rw [← hstore] at hwithout
  generalize hresult : (sweep custody now maxAge s).1 = result at hcourse
  cases hcourse with
  | through clear =>
    have hfree := clear key (mem_stale.mpr ⟨r, (mem_listed hl).mpr hr, hdue⟩)
    exact absurd (he.symm.trans hfree) (Option.some_ne_none e)
  | @blocked passed later k old e' clear due refused =>
    exact ⟨passed, (k, old), later, ⟨hlisted, due,
      fun key r hr hdue => clear key (mem_stale.mpr ⟨r, hr, hdue⟩), e', refused, hresult⟩, hwithout⟩

/-- A smaller age takes all that a larger one takes, unless it is held up on its way there by an
entry that the larger age spares. -/
theorem gone_of_larger (h : custody.Keeps store troubles) {now maxAge maxAge' : Nanos} {s : σ}
    {key : Address} {r : Record} (hr : (store s).lookup key = some r)
    (hgone : (store (sweep custody now maxAge' s).2).lookup key = none)
    (hage : maxAge ≤ maxAge') :
    (store (sweep custody now maxAge s).2).lookup key = none ∨
      ∃ before entry after, HeldUp custody troubles now maxAge s before entry after ∧
        (key, r) ∈ after ∧ ¬entry.2.IsStale now maxAge' := by
  cases hsnapshot : troubles.snapshot with
  | some e =>
    have hsame := (h.sweep_of_unlisted hsnapshot now maxAge' s).2
    rw [hsame, hr] at hgone
    exact absurd hgone (Option.some_ne_none r)
  | none =>
    obtain ⟨listed, hlisted, hl, hsweep⟩ := h.sweep_of_listed hsnapshot s
    obtain ⟨passed, hcourse, hstore⟩ := hsweep now maxAge
    obtain ⟨passed', hcourse', hstore'⟩ := hsweep now maxAge'
    rw [hstore'] at hgone
    have hwithout := isWithout_foldl_stale hl hcourse.passed_prefix.subset now maxAge
    have hwithout' := isWithout_foldl_stale hl hcourse'.passed_prefix.subset now maxAge'
    obtain ⟨hpassed', hdue⟩ := (hwithout'.lookup_eq_none hr).mp hgone
    rw [hstore, hwithout.lookup_eq_none hr]
    refine (hcourse.passed_of_larger hcourse' hpassed' hdue).imp ?_ ?_
    · exact fun hpassed => ⟨hpassed, hdue.mono hage⟩
    · rintro ⟨k, old, later, e, rfl, hlater, hold, hspared, hrefused, hresult⟩
      exact ⟨passed, (k, old), later, ⟨hlisted, hold,
        fun key r hr hdue => hcourse.clear key (mem_stale.mpr ⟨r, hr, hdue⟩), e, hrefused, hresult⟩,
        hlater, hspared⟩

end Custody.Keeps

/-- **A sweep takes the stale entries and nothing else, also when it fails.** If it can list the
entries and remove those that are stale, exactly those are gone, it tells how many they were, and
to sweep again does nothing. Without a list it changes nothing. If some stale entry cannot be
removed, it fails, and exactly the stale entries listed before the first such entry are gone. What
a sweep for a larger age takes is taken for a smaller one too, if that one does not fail before it
gets there, and it can fail only at an entry that the larger age spares. -/
theorem sweep_takes_stale {custody : Custody σ ε} {store : σ → Store} {troubles : Troubles ε}
    (h : custody.Keeps store troubles) (now maxAge : Nanos) (s : σ) :
    let swept := sweep custody now maxAge s
    (troubles.snapshot = none →
        (∀ key r, (store s).lookup key = some r → r.IsStale now maxAge →
          troubles.removal key = none) →
        (store swept.2).IsWithout (store s) (fun _ r => r.IsStale now maxAge) ∧
          (∃ n, swept.1 = .ok n ∧ n + (store swept.2).size = (store s).size) ∧
          (sweep custody now maxAge swept.2).1 = .ok 0 ∧
          store (sweep custody now maxAge swept.2).2 = store swept.2) ∧
      (∀ e, troubles.snapshot = some e → swept.1 = .error e ∧ store swept.2 = store s) ∧
      (troubles.snapshot = none → ∀ key r e, (store s).lookup key = some r →
        r.IsStale now maxAge → troubles.removal key = some e →
        ∃ before entry after, HeldUp custody troubles now maxAge s before entry after ∧
          (store swept.2).IsWithout (store s) fun key r =>
            (key, r) ∈ before ∧ r.IsStale now maxAge) ∧
      ∀ maxAge', maxAge ≤ maxAge' → ∀ key r, (store s).lookup key = some r →
        (store (sweep custody now maxAge' s).2).lookup key = none →
        (store swept.2).lookup key = none ∨
          ∃ before entry after, HeldUp custody troubles now maxAge s before entry after ∧
            (key, r) ∈ after ∧ ¬entry.2.IsStale now maxAge' := by
  intro swept
  refine ⟨fun hnone hclear => ?_, fun e he => h.sweep_of_unlisted he now maxAge s,
    fun hnone key r e hr hdue he => h.sweep_of_blocked hnone hr hdue he,
    fun maxAge' hage key r hr hgone => h.gone_of_larger hr hgone hage⟩
  obtain ⟨hwithout, hcount⟩ := h.sweep_of_clear hnone hclear
  have hfresh : ∀ key r, (store swept.2).lookup key = some r → ¬r.IsStale now maxAge :=
    fun key r hr => ((hwithout key r).mp hr).2
  obtain ⟨hzero, hsame⟩ := h.sweep_of_fresh hnone hfresh
  exact ⟨hwithout, hcount, hzero, hsame⟩

/-- Last seen at 10, 50, 20 and, ahead of the clock, at 500. -/
def leftBehind : Store :=
  [(0x1, 10), (0x2, 50), (0x3, 20), (0x4, 500)].foldl
    (fun s (key, seen) => (s.insertIfAbsent key (Record.start key seen)).2) (.empty 4)

/-- At 100 an age of 40 reaches the first three, and one of 60 the first and the third. -/
theorem leftBehind_swept :
    let swept (failing : Failing) (maxAge : Nanos) := sweep (ofStore failing) 100 maxAge leftBehind
    let unlisted : Failing := ⟨true, fun _ => false⟩
    let stuck : Failing := ⟨false, (· == 0x2)⟩
    (ofStore stuck).Keeps id stuck.troubles ∧
      ((swept .never 40).2.IsWithout leftBehind (fun _ r => r.IsStale 100 40) ∧
        ∃ n, (swept .never 40).1 = .ok n ∧ n + (swept .never 40).2.size = leftBehind.size) ∧
      ((swept unlisted 40).1 = .error .entries ∧ (swept unlisted 40).2 = leftBehind) ∧
      (∃ before entry after, HeldUp (ofStore stuck) stuck.troubles 100 40 leftBehind before entry
          after ∧
        (swept stuck 40).2.IsWithout leftBehind fun key r =>
          (key, r) ∈ before ∧ r.IsStale 100 40) ∧
      (swept .never 60).2.lookup 0x3 = none ∧ (swept .never 40).2.lookup 0x3 = none := by
  intro swept unlisted stuck
  have hkeeps : (ofStore stuck).Keeps id stuck.troubles := keeps_ofStore stuck
  obtain ⟨hclear, -, -, hlarger⟩ := sweep_takes_stale (keeps_ofStore .never) 100 40 leftBehind
  obtain ⟨-, hunlisted, -⟩ := sweep_takes_stale (keeps_ofStore unlisted) 100 40 leftBehind
  obtain ⟨-, -, hblocked, -⟩ := sweep_takes_stale hkeeps 100 40 leftBehind
  obtain ⟨hwithout, ⟨n, hok, hcount⟩, -⟩ := hclear rfl fun _ _ _ _ => rfl
  have hheld : leftBehind.lookup 0x2 = some (Record.start 0x2 50) := by decide +kernel
  have hstuck := hblocked rfl 0x2 (Record.start 0x2 50) .remove hheld (by decide) rfl
  have hgone : (swept .never 60).2.lookup 0x3 = none := by decide +kernel
  have hgone' : (swept .never 40).2.lookup 0x3 = none := by
    refine (hlarger 60 (by decide) 0x3 (Record.start 0x3 20) (by decide +kernel)
      hgone).resolve_right ?_
    rintro ⟨before, entry, after, hheldUp, -⟩
    obtain ⟨e, -, hfailed⟩ := hheldUp.fails
    cases hok.symm.trans hfailed
  exact ⟨hkeeps, ⟨hwithout, n, hok, hcount⟩, hunlisted .entries rfl, hstuck, hgone, hgone'⟩

/-- If `0x2` cannot be removed, an age of 60, which spares it, takes `0x3`. The smaller age of 40
does not: it fails at `0x2`, which is listed before. -/
theorem leftBehind_heldUp :
    let swept (maxAge : Nanos) := sweep (ofStore ⟨false, (· == 0x2)⟩) 100 maxAge leftBehind
    (40 : Nanos) ≤ 60 ∧ leftBehind.lookup 0x3 = some (Record.start 0x3 20) ∧
      (swept 60).1 = .ok 2 ∧ (swept 60).2.lookup 0x3 = none ∧
      (swept 40).1 = .error .remove ∧
      (swept 40).2.lookup 0x3 = some (Record.start 0x3 20) := by
  decide +kernel

end Reaper

end Lifeline
